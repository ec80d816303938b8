import Orchestration.Proofs.Shape.Walk
import Orchestration.Shape.Record

/-!
# Orchestration.Proofs.Shape.Flatten

The records of shapes inside a record, one after the other.

* `Json.flatten` — the records in a value: each with those in its fields, in order of the fields.
  The value alone decides; no tree is involved.
* `Tree.Rising.record_eq` — the bound on the depth of a record is never met.
* `Tree.Linked.flatten_record` — flattening the record of a shape follows the walk from it.
-/

namespace Orchestration

namespace Json

/-- The fields that hold shapes, side by side or in branches. -/
def shapeKeys : List String :=
  ["service_variables", "service_correlations", "shapes", "true_branch", "false_branch",
    "default_case", "branches", "inner_shapes", "children"]

mutual

/-- The records in a value, each followed by those inside it. -/
def flatten : Json → List Json
  | .arr items => flattenItems items
  | .obj fields => .obj fields :: flattenFields fields
  | _ => []

/-- The records in several values. -/
def flattenItems : List Json → List Json
  | [] => []
  | item :: rest => flatten item ++ flattenItems rest

/-- The records in those fields that hold shapes; cases hold them under their keys. -/
def flattenFields : List (String × Json) → List Json
  | [] => []
  | (key, value) :: rest =>
    (if shapeKeys.contains key then flatten value
      else if key = "cases" then flattenCases value
      else []) ++ flattenFields rest

/-- The records in the cases of a switch. -/
def flattenCases : Json → List Json
  | .obj fields => flattenValues fields
  | _ => []

/-- The records in all fields. -/
def flattenValues : List (String × Json) → List Json
  | [] => []
  | (_, value) :: rest => flatten value ++ flattenValues rest

end

/-- The records inside a record, itself left out. -/
def flattenBelow : Json → List Json
  | .obj fields => flattenFields fields
  | _ => []

theorem flattenItems_eq (items : List Json) : flattenItems items = items.flatMap flatten := by
  induction items with
  | nil => rfl
  | cons item rest ih => rw [flattenItems, ih, List.flatMap_cons]

theorem flattenValues_eq (fields : List (String × Json)) :
    flattenValues fields = fields.flatMap fun x => flatten x.2 := by
  induction fields with
  | nil => rfl
  | cons x rest ih => rw [flattenValues, ih, List.flatMap_cons]

theorem flattenFields_append (fields others : List (String × Json)) :
    flattenFields (fields ++ others) = flattenFields fields ++ flattenFields others := by
  induction fields with
  | nil => rfl
  | cons x rest ih => rw [List.cons_append, flattenFields, flattenFields, ih, List.append_assoc]

theorem flatten_map {α : Type} (f : α → Json) (xs : List α) :
    flatten (.arr (xs.map f)) = xs.flatMap fun x => flatten (f x) := by
  rw [flatten, flattenItems_eq, List.flatMap_map]

end Json

namespace Shape

open Json

theorem Payload.flattenFields_fields (f : Handle → Json) (p : Payload) :
    flattenFields (p.fields fun hs => .arr (hs.map f)) =
      p.handles.flatMap fun h => flatten (f h) := by
  cases p with
  | decide condition t u =>
    simp [fields, flattenFields, shapeKeys, flatten_map]
  | switch subject cases d =>
    simp [fields, flattenFields, shapeKeys, flatten_map, flattenCases, flattenValues_eq,
      List.flatMap_map, List.flatMap_assoc]
  | listen branches =>
    rw [handles_listen, List.flatten_eq_flatMap, List.flatMap_assoc]
    simp [fields, flattenFields, shapeKeys, flatten_map]
  | construct messages inner =>
    simp [fields, flattenFields, shapeKeys, flatten_map]
  | _ => simp [fields, Exchange.fields, flattenFields, shapeKeys, handles, slots]

theorem Node.flatten_record (f : Handle → Json) (n : Node) :
    flatten (n.record fun hs => .arr (hs.map f)) =
      (n.record fun hs => .arr (hs.map f)) ::
        (n.payload.handles ++ n.children).flatMap fun h => flatten (f h) := by
  rw [record, flatten]
  simp [flattenFields_append, Payload.flattenFields_fields, flattenFields, shapeKeys, flatten_map]

theorem Payload.fields_congr {f g : List Handle → Json} {p : Payload}
    (h : ∀ hs, (∀ c ∈ hs, c ∈ p.handles) → f hs = g hs) : p.fields f = p.fields g := by
  cases p with
  | decide condition t u =>
    rw [fields, fields, h t fun c hc => by simp [hc], h u fun c hc => by simp [hc]]
  | switch subject cases d =>
    have hcases : cases.map (fun x => (x.1, f x.2)) = cases.map fun x => (x.1, g x.2) := by
      refine List.map_congr_left fun x hx => Prod.ext rfl (h x.2 fun c hc => ?_)
      rw [handles_switch]
      exact List.mem_append_left _ (List.mem_flatMap.mpr ⟨x, hx, hc⟩)
    rw [fields, fields, h d fun c hc => by simp [hc]]
    exact congrArg
      (fun l => [("expression", .str subject), ("cases", .obj l), ("default_case", g d)]) hcases
  | listen branches =>
    have hmap : branches.map f = branches.map g := by
      refine List.map_congr_left fun b hb => h b fun c hc => ?_
      rw [handles_listen]
      exact List.mem_flatten.mpr ⟨b, hb, hc⟩
    rw [fields, fields, hmap]
  | construct messages inner =>
    rw [fields, fields, h inner fun c hc => by simp [hc]]
  | _ => rfl

theorem Node.record_congr {f g : Handle → Json} {n : Node} (h : ∀ c ∈ n.inside, f c = g c) :
    (n.record fun hs => .arr (hs.map f)) = n.record fun hs => .arr (hs.map g) := by
  have hmap : ∀ hs : List Handle, (∀ c ∈ hs, c ∈ n.inside) →
      Json.arr (hs.map f) = .arr (hs.map g) := fun hs hin =>
    congrArg Json.arr (List.map_congr_left fun c hc => h c (hin c hc))
  have hp := Payload.fields_congr fun hs hc =>
    hmap hs fun c hm => List.mem_append_right n.children (hc c hm)
  rw [record, record, hp, hmap n.children fun c hm => List.mem_append_left _ hm]

namespace Tree

variable {t : Tree} {roots : List Handle}

theorem Rising.recordWithin_eq (hr : t.Rising) {depth depth' : Nat} {h : Handle}
    (hd : t.size - h < depth) (hd' : t.size - h < depth') :
    t.recordWithin depth h = t.recordWithin depth' h := by
  induction depth generalizing depth' h with
  | zero => exact absurd hd (Nat.not_lt_zero _)
  | succ depth ih =>
    obtain ⟨depth', rfl⟩ := Nat.exists_eq_succ_of_ne_zero (Nat.ne_zero_of_lt hd')
    rw [recordWithin, recordWithin]
    cases hn : t.node? h with
    | none => rfl
    | some n =>
      refine Node.record_congr fun c hc => ?_
      have hlt : t.size - c < t.size - h := hr.sub_lt (inside_of_node? hn ▸ hc)
      exact ih (Nat.lt_of_lt_of_le hlt (Nat.le_of_lt_succ hd))
        (Nat.lt_of_lt_of_le hlt (Nat.le_of_lt_succ hd'))

theorem Rising.record_eq (hr : t.Rising) {h : Handle} {n : Node} (hn : t.node? h = some n) :
    t.record h = n.record fun hs => .arr (hs.map t.record) := by
  rw [record, recordWithin, hn]
  refine Node.record_congr fun c hc => ?_
  have hlt : t.size - c < t.size - h := hr.sub_lt (inside_of_node? hn ▸ hc)
  exact hr.recordWithin_eq (Nat.lt_of_lt_of_le hlt (Nat.sub_le ..)) (sub_lt_depth c)

/-- Regions and children are never both there, so their order does not matter. -/
theorem Linked.inside_eq (hl : t.Linked roots) {h : Handle} {n : Node}
    (hn : t.node? h = some n) : n.payload.handles ++ n.children = n.inside := by
  by_cases hs : n.payload.slots = []
  · simp [Node.inside, Payload.handles, hs]
  · simp [Node.inside, hl.childless hn hs]

theorem Linked.flatten_record (hl : t.Linked roots) {h : Handle} (hh : h < t.size) :
    flatten (t.record h) = (t.walk [h]).map t.record := by
  have hr := hl.rising
  induction h using hr.induct with
  | step h ih =>
    obtain ⟨n, hn⟩ := exists_node? hh
    have hbelow : n.inside.flatMap (fun c => flatten (t.record c)) =
        n.inside.flatMap fun c => (t.walk [c]).map t.record := by
      refine List.flatMap_congr fun c hc => ?_
      rw [← inside_of_node? hn] at hc
      exact ih c hc (hl.inside_lt_size hc)
    rw [hr.walk_singleton, inside_of_node? hn, walk_eq_flatMap, hr.record_eq hn,
      Node.flatten_record, hl.inside_eq hn, hbelow, ← hr.record_eq hn, List.map_cons,
      List.map_flatMap]

end Tree

end Shape

end Orchestration
