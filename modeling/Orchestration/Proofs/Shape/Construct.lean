import Orchestration.Proofs.Shape.Reading

/-!
# Orchestration.Proofs.Shape.Construct

The order of the shapes inside a construct.

* `innerTypes`, `MapsFirst` — maps and assignments; no assignment stands before a map.
* `Tree.Shows.kinds` — the kinds of shown elements can be read off the nodes.
* `Tree.read_construct` — a construct lists its maps, then its assignments, numbered in this order;
  this is the order of the document exactly when the maps come first there.
-/

namespace Orchestration.Shape

open Designer (Element)

/-- What a construct holds inside. -/
def innerTypes : List String := ["Transform", "MessageAssignment"]

/-- The maps and assignments of a construct in the order in which it lists them. -/
def innerElements (e : Element) : List Element :=
  e.select ["Transform"] ++ e.select ["MessageAssignment"]

/-- In the document no assignment stands before a map. -/
def MapsFirst (e : Element) : Prop :=
  (e.select innerTypes).Pairwise fun a b => a.type = "MessageAssignment" → b.type ≠ "Transform"

/-! ## Elements in order -/

theorem isOneOf_map (c : Element) :
    c.isOneOf ["Transform"] = (c.type == "Transform" && c.isOneOf innerTypes) := by
  cases h : c.type? with
  | none => simp [Element.isOneOf, h]
  | some type =>
    by_cases ht : type = "Transform"
    · simp [Element.isOneOf, Element.type, innerTypes, h, ht]
    · simp [Element.isOneOf, Element.type, h, ht]

theorem isOneOf_assignment (c : Element) :
    c.isOneOf ["MessageAssignment"] = (!(c.type == "Transform") && c.isOneOf innerTypes) := by
  cases h : c.type? with
  | none => simp [Element.isOneOf, h]
  | some type =>
    by_cases ht : type = "Transform"
    · simp [Element.isOneOf, Element.type, h, ht]
    · simp [Element.isOneOf, Element.type, innerTypes, h, ht]

theorem innerElements_eq (e : Element) : innerElements e =
    (e.select innerTypes).filter (fun c => c.type == "Transform") ++
      (e.select innerTypes).filter (fun c => !(c.type == "Transform")) := by
  rw [innerElements, Element.select, Element.select, Element.select, List.filter_filter,
    List.filter_filter]
  simp only [isOneOf_map, isOneOf_assignment]

/-- Elements of one sort before those of the other stay where they are. -/
theorem filter_append_filter_not {α : Type} {p : α → Bool} {l : List α}
    (h : l.Pairwise fun a b => p a = false → p b = false) :
    l.filter p ++ l.filter (fun x => !p x) = l := by
  induction l with
  | nil => rfl
  | cons a l ih =>
    obtain ⟨hfirst, hrest⟩ := List.pairwise_cons.mp h
    cases ha : p a with
    | true =>
      rw [List.filter_cons_of_pos ha, List.filter_cons_of_neg (by simp [ha]), List.cons_append,
        ih hrest]
    | false =>
      have hnone : l.filter p = [] := by
        rw [List.filter_eq_nil_iff]
        intro b hb
        simp [hfirst b hb ha]
      have hl := ih hrest
      rw [hnone, List.nil_append] at hl
      rw [List.filter_cons_of_neg (by simp [ha]), List.filter_cons_of_pos (by simp [ha]), hnone, hl,
        List.nil_append]

theorem type_of_mem_innerTypes {e c : Element} (hc : c ∈ e.select innerTypes) :
    c.type = "Transform" ∨ c.type = "MessageAssignment" := by
  by_cases ht : c.type = "Transform"
  · exact .inl ht
  · have hone : c.isOneOf ["MessageAssignment"] = true := by
      rw [isOneOf_assignment]
      simp [ht, (List.mem_filter.mp hc).2]
    exact .inr (Element.type_of_mem_select (List.mem_filter.mpr ⟨(List.mem_filter.mp hc).1, hone⟩))

theorem MapsFirst.innerElements {e : Element} (h : MapsFirst e) :
    innerElements e = e.select innerTypes := by
  rw [innerElements_eq]
  refine filter_append_filter_not (h.imp_of_mem fun {a b} ha hb hab hnot => ?_)
  have hne : a.type ≠ "Transform" := by simpa using hnot
  simpa using hab ((type_of_mem_innerTypes ha).resolve_left hne)

theorem innerElements_mapsFirst (e : Element) : (innerElements e).Pairwise fun a b =>
    a.type = "MessageAssignment" → b.type ≠ "Transform" := by
  rw [innerElements, List.pairwise_append]
  refine ⟨?_, ?_, ?_⟩
  · refine List.pairwise_of_forall_mem_list fun a ha b _ hassignment => ?_
    rw [Element.type_of_mem_select ha] at hassignment
    simp at hassignment
  · refine List.pairwise_of_forall_mem_list fun a _ b hb _ => ?_
    rw [Element.type_of_mem_select hb]
    decide
  · intro a ha b _ hassignment
    rw [Element.type_of_mem_select ha] at hassignment
    simp at hassignment

/-! ## Their shapes -/

theorem Outline.sketches_inner (e : Element) :
    (inner e).map Outline.sketch = sketches (innerElements e) := by
  have hleaf : ∀ {type : String} {f : Form}, Form.ofType type = f →
      ((e.select [type]).filterMap fun c =>
        (f.sketch? c).map fun s => (⟨s, [], []⟩ : Outline)).map Outline.sketch =
          sketches (e.select [type]) := by
    intro type f hf
    rw [List.map_filterMap, sketches]
    refine List.filterMap_congr fun c hc => ?_
    rw [Option.map_map, Sketch.ofElement?, Element.type_of_mem_select hc, hf]
    exact Option.map_id'
  have hmap : Form.ofType "Transform" = .transform := by decide
  have hassignment : Form.ofType "MessageAssignment" = .messageAssignment := by decide
  rw [innerElements, sketches_append, ← hleaf hmap, ← hleaf hassignment, inner, List.map_append]

theorem Outline.widthAll_leaves {os : List Outline} (h : ∀ o ∈ os, o.children = []) :
    widthAll os = os.length := by
  induction os with
  | nil => rfl
  | cons o rest ih =>
    obtain ⟨hfirst, hrest⟩ := List.forall_mem_cons.mp h
    obtain ⟨s, regions, children⟩ := o
    obtain rfl : children = [] := hfirst
    rw [widthAll, width, widthAll, ih hrest, List.length_cons, Nat.add_comm]

namespace Tree

variable {t : Tree} {owner : Handle}

theorem shows_inner {e : Element} {hs : List Handle} (h : t.Lodges owner (Outline.inner e) hs) :
    t.Shows owner (innerElements e) hs := by
  rw [Shows, ← Outline.sketches_inner, List.forall₂_map_left_iff]
  exact h.carries.imp fun _ _ hc => hc.exists_node

theorem sequence_inner {e : Element} {hs : List Handle} (h : t.Lodges owner (Outline.inner e) hs)
    {k : Nat} {x : Handle} (hx : hs[k]? = some x) :
    ∃ m, t.node? x = some m ∧ m.sequence = k := by
  obtain ⟨m, hm, hsequence⟩ := h.sequence hx
  have hleaves : ∀ o ∈ (Outline.inner e).take k, o.children = [] := by
    intro o ho
    obtain ⟨_, -, s, -, rfl⟩ := Outline.mem_inner (List.mem_of_mem_take ho)
    rfl
  obtain ⟨hk, -⟩ := List.getElem?_eq_some_iff.mp hx
  have hlength := List.Forall₂.length_eq h.carries
  refine ⟨m, hm, ?_⟩
  rw [hsequence, Outline.widthAll_leaves hleaves, List.length_take, Nat.min_eq_left (by omega)]

theorem Shows.kinds {es : List Element} {hs : List Handle} (h : t.Shows owner es hs) :
    hs.map (fun x => (t.node? x).map Node.kind) = ((sketches es).map Sketch.kind).map some := by
  unfold Shows at h
  generalize sketches es = ss at h
  induction h with
  | nil => rfl
  | cons hfirst _ ih =>
    obtain ⟨n, hn, hd, -⟩ := hfirst
    rw [List.map_cons, List.map_cons, List.map_cons, ih, hn, Option.map_some, hd.kind]

/-- The kind of a map or an assignment. -/
def innerKind (c : Element) : Kind :=
  if c.type = "Transform" then .transform else .messageAssignment

theorem kinds_sketches {es : List Element}
    (hes : ∀ c ∈ es, c.type = "Transform" ∨ c.type = "MessageAssignment") :
    (sketches es).map Sketch.kind = es.map innerKind := by
  have hkind : ∀ c ∈ es, ∃ s, Sketch.ofElement? c = some s ∧ s.kind = innerKind c := by
    intro c hc
    rcases hes c hc with ht | ht
    · have hform : Form.ofType c.type = .transform := by rw [ht]; decide
      exact ⟨_, by rw [Sketch.ofElement?, hform, Form.sketch?]; rfl, by simp [innerKind, ht]⟩
    · have hform : Form.ofType c.type = .messageAssignment := by rw [ht]; decide
      exact ⟨_, by rw [Sketch.ofElement?, hform, Form.sketch?]; rfl, by simp [innerKind, ht]⟩
  induction es with
  | nil => rfl
  | cons c rest ih =>
    obtain ⟨s, hs, hk⟩ := hkind c (List.mem_cons_self ..)
    rw [sketches, List.filterMap_cons_some hs, List.map_cons, List.map_cons, hk]
    congr 1
    exact ih (fun c hc => hes c (List.mem_cons_of_mem _ hc))
      fun c hc => hkind c (List.mem_cons_of_mem _ hc)

theorem pairwise_innerKind {es : List Element}
    (hes : ∀ c ∈ es, c.type = "Transform" ∨ c.type = "MessageAssignment") :
    (es.Pairwise fun a b => a.type = "MessageAssignment" → b.type ≠ "Transform") ↔
      (es.map innerKind).Pairwise fun k k' => k = .messageAssignment → k' ≠ .transform := by
  rw [List.pairwise_map]
  refine List.Pairwise.iff_of_mem fun {a b} ha hb => ?_
  rcases hes a ha with ha | ha
  · simp [innerKind, ha]
  · rcases hes b hb with hb | hb
    · simp [innerKind, ha, hb]
    · simp [innerKind, ha, hb]

/-- Nodes that stand for both orders show that these are the same. -/
theorem mapsFirst_of_shows {e : Element} {hs : List Handle}
    (h : t.Shows owner (innerElements e) hs) (h' : t.Shows owner (e.select innerTypes) hs) :
    MapsFirst e := by
  have hselect : ∀ c ∈ e.select innerTypes, c.type = "Transform" ∨ c.type = "MessageAssignment" :=
    fun c hc => type_of_mem_innerTypes hc
  have hinner : ∀ c ∈ innerElements e, c.type = "Transform" ∨ c.type = "MessageAssignment" := by
    intro c hc
    rcases List.mem_append.mp hc with hc | hc
    · exact .inl (Element.type_of_mem_select hc)
    · exact .inr (Element.type_of_mem_select hc)
  -- maps and assignments are of different kinds, and the nodes have theirs
  have hkinds : (e.select innerTypes).map innerKind = (innerElements e).map innerKind := by
    have hsame := h'.kinds.symm.trans h.kinds
    rw [kinds_sketches hselect, kinds_sketches hinner] at hsame
    exact List.map_injective_iff.mpr (fun _ _ hk => Option.some.inj hk) hsame
  rw [MapsFirst, pairwise_innerKind hselect, hkinds, ← pairwise_innerKind hinner]
  exact innerElements_mapsFirst e

theorem Furnished.constructed {h : Handle} {e : Element} {s : Sketch} {n : Node}
    {rs : List (Slot × List Handle)}
    (hf : t.Furnished h ⟨s, [(.inner, Outline.inner e)], []⟩ n rs)
    (hs : Form.construct.sketch? e = some s) :
    ∃ inner, n.payload = .construct (references e "MessageRef" "Ref") inner ∧
      t.Lodges h (Outline.inner e) inner := by
  obtain ⟨uses, hp⟩ := hf.payload
  have hbare : s.payload = .construct (references e "MessageRef" "Ref") [] :=
    Form.payload_of_sketch? hs
  cases hf.regions with
  | @cons _ r _ _ hfirst hrest =>
    cases hrest
    obtain ⟨slot, inner⟩ := r
    obtain rfl : slot = .inner := hfirst.slot
    refine ⟨inner, ?_, hfirst.lodges⟩
    dsimp only at hp
    rw [hp, hbare, Payload.furnish_construct, Payload.bindAll_of_not_receive uses (by simp)]
    simp [inSlot]

/-- A construct lists its maps before its assignments and numbers them so. Their order in the
document is kept exactly when the maps come first there. -/
theorem read_construct (t : Tree) (c : Context) {parent : Option Handle} (es : List Element)
    (roots : List Handle) (hparent : ∀ p, parent = some p → p < t.size) {i : Nat} {e : Element}
    (h : Outline.Reached es i e) (he : Text.lower e.type = "construct") :
    ∃ n inner, (t.read c parent es roots).node? (t.size + i) = some n ∧
      n.payload = .construct (references e "MessageRef" "Ref") inner ∧
      (t.read c parent es roots).Shows (t.size + i) (innerElements e) inner ∧
      (∀ (k : Nat) x, inner[k]? = some x →
        ∃ m, (t.read c parent es roots).node? x = some m ∧ m.sequence = k) ∧
      ((t.read c parent es roots).Shows (t.size + i) (e.select innerTypes) inner ↔
        MapsFirst e) := by
  have hform : Form.ofType e.type = .construct :=
    Form.ofType_of_mem_table (by rw [he]; decide)
  obtain ⟨n, s, rs, hs, -, hf⟩ := t.read_reached c es roots hparent h hform
  obtain ⟨inner, hp, hlodges⟩ := hf.constructed hs
  have hshows := shows_inner hlodges
  refine ⟨n, inner, hf.node, hp, hshows, fun k x hx => sequence_inner hlodges hx, fun h' => ?_,
    fun hfirst => ?_⟩
  · exact mapsFirst_of_shows hshows h'
  · rwa [hfirst.innerElements] at hshows

/-- A map, another shape, which no construct lists, and an assignment. -/
def mapFirst : Element :=
  untold "Construct" [untold "Transform" [], untold "Delay" [], untold "MessageAssignment" []]

theorem read_construct_mapFirst :
    (∀ p, (none : Option Handle) = some p → p < empty.size) ∧
      Outline.Reached [mapFirst] 0 mapFirst ∧ Text.lower mapFirst.type = "construct" ∧
      (empty.read ⟨"body", 0⟩ none [mapFirst] []).Shows 0 (mapFirst.select innerTypes) [1, 2] := by
  have hreached : Outline.Reached [mapFirst] 0 mapFirst := ⟨_, rfl, rfl⟩
  have htype : Text.lower mapFirst.type = "construct" := by decide
  obtain ⟨n, inner, hn, hp, -, -, horder⟩ :=
    read_construct empty ⟨"body", 0⟩ [mapFirst] [] (lt_of_no_parent _) hreached htype
  have hnode : ((empty.read ⟨"body", 0⟩ none [mapFirst] []).node? 0).map Node.payload =
      some (.construct [] [1, 2]) := by
    decide +kernel
  have hn' : (empty.read ⟨"body", 0⟩ none [mapFirst] []).node? 0 = some n := hn
  rw [hn', Option.map_some, hp] at hnode
  obtain ⟨-, rfl⟩ := Payload.construct.inj (Option.some.inj hnode)
  have hfirst : MapsFirst mapFirst := by
    unfold MapsFirst
    decide
  exact ⟨lt_of_no_parent _, hreached, htype, horder.mpr hfirst⟩

/-- An assignment, then a map. -/
def assignmentFirst : Element :=
  untold "Construct" [untold "MessageAssignment" [], untold "Transform" []]

def assignmentTree : Tree := empty.read ⟨"body", 0⟩ none [assignmentFirst] []

/-- The map is listed and numbered first. -/
theorem read_construct_assignmentFirst :
    Outline.Reached [assignmentFirst] 0 assignmentFirst ∧
      Text.lower assignmentFirst.type = "construct" ∧
      (assignmentFirst.select innerTypes).map Element.type = ["MessageAssignment", "Transform"] ∧
      (assignmentTree.node? 0).map Node.payload = some (.construct [] [1, 2]) ∧
      ¬assignmentTree.Shows 0 (assignmentFirst.select innerTypes) [1, 2] := by
  refine ⟨⟨_, rfl, rfl⟩, by decide, by decide, by decide +kernel, fun h => ?_⟩
  have hkinds : [1, 2].map (fun x => (assignmentTree.node? x).map Node.kind) =
      [some .transform, some .messageAssignment] := by
    decide +kernel
  have hdocument : ((sketches (assignmentFirst.select innerTypes)).map Sketch.kind).map some =
      [some .messageAssignment, some .transform] := by
    decide +kernel
  have hsame := h.kinds
  rw [hkinds, hdocument] at hsame
  cases hsame

end Tree

end Orchestration.Shape
