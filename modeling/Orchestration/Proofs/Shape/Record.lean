import Orchestration.Proofs.Shape.Proper
import Orchestration.Proofs.Shape.Regions
import Orchestration.Shape.Record

/-!
# Orchestration.Proofs.Shape.Record

The records of shapes that have grown are those of their outlines.

* `Outline.record` — the record of an outline, by recursion on the outline; no tree is involved.
* `Outline.record_laid` — a tree that holds the nodes of an outline shows this record at the
  first of them.
-/

namespace Orchestration.Shape

/-- The fields that every record starts with. -/
def Sketch.header (s : Sketch) (path : String) (sequence : Nat) : List (String × Json) :=
  [("oid", .str s.oid), ("name", .str s.name), ("shape_type", .str s.tag),
    ("kind", .str s.kind.label), ("sequence", .int sequence),
    ("unique_id", .str (Text.orElse s.oid s.tag ++ "@" ++ path ++ "#" ++ toString sequence))]

namespace Payload

/-- The fields of a payload whose regions hold these records. -/
def fieldsWith (rs : List (Slot × List Json)) : Payload → List (String × Json)
  | .decide condition _ _ =>
    [("expression", .str condition), ("true_branch", .arr (inSlot .whenTrue rs)),
      ("false_branch", .arr (inSlot .whenFalse rs))]
  | .switch subject _ _ =>
    [("expression", .str subject),
      ("cases", .obj ((grouped (keyed rs)).map fun x => (x.1, .arr x.2))),
      ("default_case", .arr (inSlot .otherwise rs))]
  | .listen _ => [("branches", .arr ((branched rs).map .arr))]
  | .construct messages _ =>
    [("constructed_messages", .strings messages), ("inner_shapes", .arr (inSlot .inner rs))]
  | p => p.fields fun _ => .null

theorem fields_furnish (f : Handle → Json) {p : Payload} (hp : p.bare = p)
    (rs : List (Slot × List Handle)) :
    (p.furnish rs).fields (fun hs => .arr (hs.map f)) = p.fieldsWith (mapRegions f rs) := by
  cases p with
  | decide condition t u =>
    injection hp with _ ht hu
    subst ht hu
    rw [furnish_decide]
    simp [fields, fieldsWith, inSlot_mapRegions]
  | switch subject cases d =>
    injection hp with _ hc hd
    subst hc hd
    have hs := furnish_switch subject [] [] rs
    rw [show grouped ([] : List (String × List Handle)) = [] from rfl] at hs
    rw [hs]
    simp [fields, fieldsWith, inSlot_mapRegions, keyed_mapRegions, grouped_map]
  | listen branches =>
    injection hp with hb
    subst hb
    rw [furnish_listen]
    simp [fields, fieldsWith, branched_mapRegions]
  | construct messages inner =>
    injection hp with _ hi
    subst hi
    rw [furnish_construct]
    simp [fields, fieldsWith, inSlot_mapRegions]
  | _ =>
    rw [furnish_of_put fun slot _ => by cases slot <;> rfl]
    rfl

end Payload

namespace Outline

mutual

/-- The record of an outline in a context. -/
def record (path : String) (next : Nat) : Outline → Json
  | ⟨s, regions, children⟩ =>
    .obj <|
      s.header path next ++ s.payload.fieldsWith (regionRecords s path next regions) ++
        [("children", .arr (records path (next + 1) children))]

/-- The records in the regions of a shape, each in a context of its own. -/
def regionRecords (s : Sketch) (path : String) (sequence : Nat) :
    List (Slot × List Outline) → List (Slot × List Json)
  | [] => []
  | (slot, shapes) :: rest =>
    (slot, records (s.regionPath path sequence slot) 0 shapes) ::
      regionRecords s path sequence rest

/-- The records of outlines side by side. -/
def records (path : String) (next : Nat) : List Outline → List Json
  | [] => []
  | o :: rest => o.record path next :: records path (next + o.width) rest

end

theorem regionRecords_eq (s : Sketch) (path : String) (sequence : Nat)
    (regions : List (Slot × List Outline)) :
    regionRecords s path sequence regions =
      regions.map fun r => (r.1, records (s.regionPath path sequence r.1) 0 r.2) := by
  induction regions with
  | nil => rfl
  | cons r rest ih => rw [regionRecords, ih, List.map_cons]

mutual

/-- A depth of at least the number of shapes reaches everything below the first one. -/
theorem record_laid (t : Tree) (depth start : Nat) (path : String) (next : Nat)
    (parent : Option Handle) : (o : Outline) → o.Proper → o.count ≤ depth →
      (∀ x ∈ o.laid start path next parent, t.node? x.1 = some x.2) →
      t.recordWithin depth start = o.record path next
  | ⟨s, regions, children⟩ => by
    rintro ⟨hs, -, hregions, hchildren⟩ hcount ht
    rw [count] at hcount
    obtain ⟨depth, rfl⟩ : ∃ d, depth = d + 1 := ⟨depth - 1, by omega⟩
    rw [laid] at ht
    have hnode := ht _ (List.mem_cons_self ..)
    have hr := records_laidRegions t depth (start + 1) s path next start regions hregions
      (by omega) fun x hx => ht x (by simp [hx])
    have hc := records_laidAll t depth (start + 1 + countRegions regions) path (next + 1)
      (some start) children hchildren (by omega) fun x hx => ht x (by simp [hx])
    rw [Tree.recordWithin, hnode, record, ← hr, ← hc, ← Payload.fields_furnish _ hs.bare]
    rfl

theorem records_laidRegions (t : Tree) (depth start : Nat) (s : Sketch) (path : String)
    (sequence : Nat) (owner : Handle) : (regions : List (Slot × List Outline)) →
      ProperRegions s.payload regions → countRegions regions ≤ depth →
      (∀ x ∈ laidRegions start s path sequence owner regions, t.node? x.1 = some x.2) →
      mapRegions (t.recordWithin depth) (regionHandles start regions) =
        regionRecords s path sequence regions
  | [], _, _, _ => rfl
  | (slot, shapes) :: rest, ⟨_, hshapes, hrest⟩, hcount, ht => by
    rw [countRegions] at hcount
    rw [laidRegions] at ht
    have hs := records_laidAll t depth start (s.regionPath path sequence slot) 0 (some owner) shapes
      hshapes (by omega) fun x hx => ht x (List.mem_append_left _ hx)
    have hr := records_laidRegions t depth (start + countAll shapes) s path sequence owner rest
      hrest (by omega) fun x hx => ht x (List.mem_append_right _ hx)
    rw [regionRecords, ← hs, ← hr]
    rfl

theorem records_laidAll (t : Tree) (depth start : Nat) (path : String) (next : Nat)
    (parent : Option Handle) : (os : List Outline) → ProperAll os → countAll os ≤ depth →
      (∀ x ∈ laidAll start path next parent os, t.node? x.1 = some x.2) →
      (handles start os).map (t.recordWithin depth) = records path next os
  | [], _, _, _ => rfl
  | o :: rest, ⟨ho, hrest⟩, hcount, ht => by
    rw [countAll] at hcount
    rw [laidAll] at ht
    have h := record_laid t depth start path next parent o ho (by omega)
      fun x hx => ht x (List.mem_append_left _ hx)
    have hr := records_laidAll t depth (start + o.count) path (next + o.width) parent rest hrest
      (by omega) fun x hx => ht x (List.mem_append_right _ hx)
    rw [records, ← h, ← hr]
    rfl

end

end Outline

namespace Tree

theorem node?_of_mem {t : Tree} {before : List Node} {l : List (Handle × Node)}
    (hlist : t.list = before ++ l.map Prod.snd)
    (hhandles : l.map Prod.fst = List.range' before.length l.length) {x : Handle × Node}
    (hx : x ∈ l) : t.node? x.1 = some x.2 := by
  obtain ⟨i, hi⟩ := List.mem_iff_getElem?.mp hx
  rw [node?_eq_getElem?, hlist, fst_of_getElem? hhandles hi,
    List.getElem?_append_right (Nat.le_add_right ..)]
  simp [hi]

/-- A tree that has grown holds the laid nodes. -/
theorem placeAll_node? (t : Tree) (path : String) (next : Nat) (parent : Option Handle)
    (os : List Outline) : ∀ x ∈ Outline.laidAll t.size path next parent os,
      (t.placeAll path next parent os).tree.node? x.1 = some x.2 := by
  intro x hx
  refine node?_of_mem (placeAll_eq t path next parent os).2.2 ?_ hx
  rw [Outline.laidAll_handles, Outline.laidAll_length, length_list]

theorem placeAll_size (t : Tree) (path : String) (next : Nat) (parent : Option Handle)
    (os : List Outline) :
    (t.placeAll path next parent os).tree.size = t.size + Outline.countAll os := by
  rw [size_eq_of_list (placeAll_eq t path next parent os).2.2, List.length_map,
    Outline.laidAll_length]

theorem grow_record (t : Tree) (path : String) (next : Nat) {os : List Outline}
    (hos : Outline.ProperAll os) :
    (t.grow ⟨path, next⟩ none os).handles.map (t.grow ⟨path, next⟩ none os).tree.record =
      Outline.records path next os := by
  have hh := (placeAll_eq t path next none os).1
  have hsize := t.placeAll_size path next none os
  have hdepth : Outline.countAll os ≤ (t.placeAll path next none os).tree.size + 1 := by omega
  have hr := Outline.records_laidAll _ _ t.size path next none os hos hdepth
    (t.placeAll_node? path next none os)
  rw [← hh] at hr
  exact hr

end Tree

end Orchestration.Shape
