import Orchestration.Proofs.Shape.Identity

/-!
# Orchestration.Proofs.Shape.Plain

Elements whose shapes are told apart by their unique identifiers.

* `Element.Throughout` — a property of an element and of all elements below it.
* `Element.Plain` — the texts that identifiers are made of hold no separator.
* `Element.SingleDefault` — no switch has two default containers; each of them would be numbered
  from zero in the same context.
* `Outline.forall_flat` — what holds of each element's own shape holds at every depth.
* `Outline.ofElement_plain` — such elements have plain outlines, at every depth.
-/

namespace Orchestration

namespace Designer.Element

mutual

/-- An element and all elements below it, in document order. -/
def elements : Element → List Element
  | ⟨type?, oid?, properties, children⟩ =>
    ⟨type?, oid?, properties, children⟩ :: elementsOf children

def elementsOf : List Element → List Element
  | [] => []
  | e :: rest => e.elements ++ elementsOf rest

end

theorem elements_eq (e : Element) : e.elements = e :: elementsOf e.children := by
  obtain ⟨type?, oid?, properties, children⟩ := e
  rw [elements]

theorem elements_subset_elementsOf {c : Element} {es : List Element} (hc : c ∈ es) :
    c.elements ⊆ elementsOf es := by
  induction es with
  | nil => cases hc
  | cons e rest ih =>
    rw [elementsOf]
    rcases List.mem_cons.mp hc with rfl | hc
    · exact List.subset_append_left ..
    · exact List.Subset.trans (ih hc) (List.subset_append_right ..)

/-- Of an element and of all elements below it. -/
def Throughout (P : Element → Prop) (e : Element) : Prop := ∀ c ∈ e.elements, P c

instance (P : Element → Prop) [DecidablePred P] : DecidablePred (Throughout P) := fun e =>
  inferInstanceAs (Decidable (∀ c ∈ e.elements, P c))

variable {P : Element → Prop} {e c : Element}

theorem Throughout.self (h : e.Throughout P) : P e := by
  refine h e ?_
  rw [elements_eq]
  exact List.mem_cons_self ..

theorem Throughout.child (h : e.Throughout P) (hc : c ∈ e.children) : c.Throughout P := by
  intro c' hc'
  refine h c' ?_
  rw [elements_eq]
  exact List.mem_cons_of_mem _ (elements_subset_elementsOf hc hc')

theorem Throughout.selected (h : e.Throughout P) {types : List String} (hc : c ∈ e.select types) :
    c.Throughout P :=
  h.child (List.mem_filter.mp hc).1

/-- No separator stands in the identifier, the type or the name. A slash does no harm. -/
def Plain (e : Element) : Prop := ∀ s ∈ [e.oid, e.type, e.prop "Name"], Shape.Clear s

instance : DecidablePred Plain := fun e =>
  inferInstanceAs (Decidable (∀ s ∈ [e.oid, e.type, e.prop "Name"], Shape.Clear s))

/-- At most one container of a switch stands for the default. -/
def SingleDefault (e : Element) : Prop :=
  Shape.Form.ofType e.type = .switch →
    ((e.select Shape.decisionTypes).filter fun c => (Shape.caseKey? c).isNone).length ≤ 1

instance : DecidablePred SingleDefault := fun e =>
  inferInstanceAs (Decidable (Shape.Form.ofType e.type = .switch →
    ((e.select Shape.decisionTypes).filter fun c => (Shape.caseKey? c).isNone).length ≤ 1))

end Designer.Element

namespace Shape

open Designer (Element)

/-! ## Sketches -/

namespace Form

variable {f : Form} {e : Element} {s : Sketch}

theorem clear_label (kind : Kind) : Clear kind.label := by
  have hall : ∀ kind ∈ Kind.all, Clear kind.label := by decide
  exact hall kind kind.mem_all

theorem clear_tag (he : e.Plain) (f : Form) (kind : Kind) : Clear (f.tag kind e) := by
  have htype : Clear e.type := he e.type (by simp)
  cases f with
  | loop | exception | fallback => exact htype.orElse (clear_label kind)
  | throw | suspend | terminate =>
    rw [tag]
    decide
  | _ => exact clear_label kind

theorem clear_key (he : e.Plain) (hs : f.sketch? e = some s) :
    Clear (Text.orElse s.oid s.tag) := by
  obtain ⟨kind, -, rfl⟩ := Option.map_eq_some_iff.mp hs
  exact (he e.oid (by simp)).orElse (clear_tag he f kind)

/-- The forms whose shapes have regions; their usual names are fixed. -/
def owners : List Form := [.decide, .switch, .listen, .construct]

theorem clear_regionName (hf : f ∈ owners) (he : e.Plain) (hs : f.sketch? e = some s) :
    Clear s.regionName := by
  obtain ⟨kind, -, rfl⟩ := Option.map_eq_some_iff.mp hs
  have husual : f.usualName e ∈ ["", "Listen"] := by
    simp only [owners, List.mem_cons, List.not_mem_nil, or_false] at hf
    rcases hf with rfl | rfl | rfl | rfl <;> simp [usualName]
  have hfixed : ∀ s ∈ ["", "Listen"], Clear s := by decide
  have hname : Clear (Text.orElse (e.prop "Name") (f.usualName e)) :=
    (he (e.prop "Name") (by simp)).orElse (hfixed _ husual)
  exact (he e.oid (by simp)).orElse (hname.orElse (clear_tag he f kind))

end Form

/-! ## Labels -/

namespace Slot

theorem label_case_inj {number number' : Nat} {key key' : String}
    (h : (Slot.case number key).label = (Slot.case number' key').label) : number = number' := by
  have hlist := congrArg String.toList h
  rw [toList_label_case, toList_label_case] at hlist
  exact toDigits_inj (List.append_cancel_right (List.append_cancel_left hlist))

theorem label_branch_inj {number number' : Nat}
    (h : (Slot.branch number).label = (Slot.branch number').label) : number = number' := by
  have hlist := congrArg String.toList h
  rw [toList_label_branch, toList_label_branch] at hlist
  exact toDigits_inj (List.append_cancel_right (List.append_cancel_left hlist))

theorem label_case_ne_default (number : Nat) (key : String) :
    (Slot.case number key).label ≠ "default" := by
  intro h
  have hlist := congrArg String.toList h
  rw [toList_label_case] at hlist
  exact absurd (List.head_eq_of_cons_eq hlist) (by decide)

end Slot

namespace Outline

theorem slot_of_mem_cases {number : Nat} {containers : List (Element × List Outline)}
    {r : Slot × List Outline} (hr : r ∈ cases number containers) :
    (r.1 = .otherwise ∧ ∃ c ∈ containers, caseKey? c.1 = none) ∨
      ∃ k key, number ≤ k ∧ r.1 = .case k key := by
  induction containers generalizing number with
  | nil => simp [cases] at hr
  | cons c rest ih =>
    rcases List.mem_cons.mp hr with rfl | hr
    · unfold caseSlot
      split
      · next hnone => exact .inl ⟨rfl, c, List.mem_cons_self .., hnone⟩
      · next key _ => exact .inr ⟨number, key, Nat.le_refl number, rfl⟩
    · rcases ih hr with ⟨hslot, c', hc', hnone⟩ | ⟨k, key, hk, hslot⟩
      · exact .inl ⟨hslot, c', List.mem_cons_of_mem _ hc', hnone⟩
      · exact .inr ⟨k, key, Nat.le_of_succ_le hk, hslot⟩

/-- The numbers tell the cases apart, and there is one default at most. -/
theorem labels_cases (number : Nat) {containers : List (Element × List Outline)}
    (hdefault : (containers.filter fun c => (caseKey? c.1).isNone).length ≤ 1) :
    ((cases number containers).map fun r => r.1.label).Nodup := by
  induction containers generalizing number with
  | nil => simp [cases]
  | cons c rest ih =>
    rw [cases, List.map_cons, List.nodup_cons]
    cases hkey : caseKey? c.1 with
    | none =>
      rw [List.filter_cons_of_pos (by simp [hkey]), List.length_cons] at hdefault
      -- this is the default, so that there is no other one
      have hrest : rest.filter (fun c => (caseKey? c.1).isNone) = [] :=
        List.length_eq_zero_iff.mp (by omega)
      refine ⟨fun hm => ?_, ih (number + 1) (by simp [hrest])⟩
      obtain ⟨r, hr, hlabel⟩ := List.mem_map.mp hm
      rw [caseSlot, hkey] at hlabel
      rcases slot_of_mem_cases hr with ⟨-, c', hc', hnone⟩ | ⟨k, key, -, hslot⟩
      · exact List.filter_eq_nil_iff.mp hrest c' hc' (by simp [hnone])
      · rw [hslot] at hlabel
        exact Slot.label_case_ne_default k key hlabel
    | some key =>
      rw [List.filter_cons_of_neg (by simp [hkey])] at hdefault
      refine ⟨fun hm => ?_, ih (number + 1) hdefault⟩
      obtain ⟨r, hr, hlabel⟩ := List.mem_map.mp hm
      rw [caseSlot, hkey] at hlabel
      rcases slot_of_mem_cases hr with ⟨hslot, -⟩ | ⟨k, key', hk, hslot⟩
      · rw [hslot] at hlabel
        exact Slot.label_case_ne_default number key hlabel.symm
      · rw [hslot] at hlabel
        have := Slot.label_case_inj hlabel
        omega

theorem labels_branches (number : Nat) (containers : List (Element × List Outline)) :
    ((branches number containers).map fun r => r.1.label).Nodup ∧
      ∀ r ∈ branches number containers, ∃ k, number ≤ k ∧ r.1 = .branch k := by
  induction containers generalizing number with
  | nil => simp [branches]
  | cons c rest ih =>
    obtain ⟨hnodup, hlater⟩ := ih (number + 1)
    rw [branches, List.map_cons, List.nodup_cons, List.forall_mem_cons]
    refine ⟨⟨fun hm => ?_, hnodup⟩, ⟨number, Nat.le_refl number, rfl⟩, fun r hr => ?_⟩
    · obtain ⟨r, hr, hlabel⟩ := List.mem_map.mp hm
      obtain ⟨k, hk, hslot⟩ := hlater r hr
      rw [hslot] at hlabel
      have := Slot.label_branch_inj hlabel
      omega
    · obtain ⟨k, hk, hslot⟩ := hlater r hr
      exact ⟨k, Nat.le_of_succ_le hk, hslot⟩

theorem labels_decide (s : Sketch) (d : Decision) (branches : List (List Outline)) :
    ((decide s d branches).regions.map fun r => r.1.label).Nodup := by
  rw [decide]
  cases branches[d.whenTrue]? with
  | none => cases branches[d.whenFalse]? <;> simp
  | some t =>
    cases branches[d.whenFalse]? with
    | none => simp
    | some u => simp [Slot.label]

/-! ## One element -/

section

variable {f : Form} {e : Element} {s : Sketch}

theorem mem_owners_of_regions (h : (complete f e s).regions ≠ []) : f ∈ Form.owners := by
  cases f with
  | decide | switch | listen | construct => simp [Form.owners]
  | _ => exact absurd rfl h

/-- The branches of a decision change its payload and nothing else. -/
theorem sketch_complete (f : Form) (e : Element) (s : Sketch) :
    ∃ p, (complete f e s).sketch = { s with payload := p } := by
  cases f with
  | decide => exact ⟨_, rfl⟩
  | _ => exact ⟨s.payload, rfl⟩

theorem labels_complete (hf : f = .switch →
      ((e.select decisionTypes).filter fun c => (caseKey? c).isNone).length ≤ 1) :
    ((complete f e s).regions.map fun r => r.1.label).Nodup := by
  cases f with
  | decide => exact labels_decide s _ _
  | switch =>
    refine labels_cases 1 ?_
    rw [List.filter_map, List.length_map]
    exact hf rfl
  | listen => exact (labels_branches 1 _).1
  | construct => exact List.nodup_cons.mpr ⟨List.not_mem_nil, List.nodup_nil⟩
  | _ => exact List.nodup_nil

theorem complete_plain (he : e.Plain) (hs : f.sketch? e = some s)
    (hdefault : f = .switch →
      ((e.select decisionTypes).filter fun c => (caseKey? c).isNone).length ≤ 1) :
    (complete f e s).Plain where
  key := by
    obtain ⟨p, hp⟩ := sketch_complete f e s
    have hkey := (Form.clear_key he hs).noAt
    rwa [hp]
  name := by
    intro h
    obtain ⟨p, hp⟩ := sketch_complete f e s
    have hname := (Form.clear_regionName (mem_owners_of_regions h) he hs).noHash
    rwa [hp]
  labels := labels_complete hdefault

theorem leaf_plain (he : e.Plain) (hs : f.sketch? e = some s) : Plain ⟨s, [], []⟩ :=
  ⟨(Form.clear_key he hs).noAt, fun h => absurd rfl h, List.nodup_nil⟩

/-! ## All elements -/

theorem mem_flatAll {o : Outline} {os : List Outline} : o ∈ flatAll os ↔ ∃ p ∈ os, o ∈ p.flat := by
  induction os with
  | nil => simp [flatAll]
  | cons p rest ih => simp [flatAll, ih]

theorem mem_flatRegions {o : Outline} {regions : List (Slot × List Outline)} :
    o ∈ flatRegions regions ↔ ∃ r ∈ regions, o ∈ flatAll r.2 := by
  induction regions with
  | nil => simp [flatRegions]
  | cons r rest ih => simp [flatRegions, ih]

/-- A region holds the content of a container, or the maps and assignments of a construct. -/
theorem mem_regions_complete {r : Slot × List Outline} (hr : r ∈ (complete f e s).regions) :
    (∃ c ∈ e.children, r.2 = ofElements c.children) ∨ r.2 = inner e := by
  have hselect : ∀ {types : List String} {x : Element × List Outline},
      x ∈ (e.select types).map (fun c => (c, ofElements c.children)) →
        ∃ c ∈ e.children, x.2 = ofElements c.children := by
    intro types x hx
    obtain ⟨c, hc, rfl⟩ := List.mem_map.mp hx
    exact ⟨c, (List.mem_filter.mp hc).1, rfl⟩
  cases f with
  | decide =>
    refine .inl ?_
    have hbranch : r.2 ∈ (e.select decisionTypes).map fun c => ofElements c.children := by
      rcases List.mem_append.mp hr with hr | hr
      · obtain ⟨b, hb, rfl⟩ := List.mem_map.mp hr
        exact List.mem_of_getElem? (Option.mem_toList.mp hb)
      · obtain ⟨b, hb, rfl⟩ := List.mem_map.mp hr
        exact List.mem_of_getElem? (Option.mem_toList.mp hb)
    obtain ⟨c, hc, he⟩ := List.mem_map.mp hbranch
    exact ⟨c, (List.mem_filter.mp hc).1, he.symm⟩
  | switch =>
    obtain ⟨x, hx, he⟩ := (takes_cases hr).2
    exact .inl (he ▸ hselect hx)
  | listen =>
    obtain ⟨x, hx, he⟩ := (takes_branches hr).2
    exact .inl (he ▸ hselect hx)
  | construct => exact .inr (congrArg Prod.snd (List.mem_singleton.mp hr))
  | _ => cases hr

theorem children_complete (f : Form) (e : Element) (s : Sketch) :
    (complete f e s).children = [] ∨ (complete f e s).children = ofElements e.children := by
  cases f with
  | decide | switch | listen | construct | messageAssignment => exact .inl rfl
  | _ => exact .inr rfl

/-- Inside a construct stand single shapes of the child elements. -/
theorem mem_inner {o : Outline} (ho : o ∈ inner e) :
    ∃ c ∈ e.children, ∃ s, Sketch.ofElement? c = some s ∧ o = ⟨s, [], []⟩ := by
  have hleaf : ∀ {type : String} {f : Form}, Form.ofType type = f →
      o ∈ (e.select [type]).filterMap (fun c => (f.sketch? c).map fun s => ⟨s, [], []⟩) →
        ∃ c ∈ e.children, ∃ s, Sketch.ofElement? c = some s ∧ o = ⟨s, [], []⟩ := by
    intro type f hf ho
    obtain ⟨c, hc, ho⟩ := List.mem_filterMap.mp ho
    obtain ⟨s, hs, rfl⟩ := Option.map_eq_some_iff.mp ho
    refine ⟨c, (List.mem_filter.mp hc).1, s, ?_, rfl⟩
    rw [Sketch.ofElement?, Element.type_of_mem_select hc, hf, hs]
  rcases List.mem_append.mp ho with ho | ho
  · exact hleaf (by decide) ho
  · exact hleaf (by decide) ho

end

/-- What holds of the shape of each element, completed or standing inside a construct, holds at
every depth. -/
theorem forall_flat {P : Outline → Prop} {Q : Element → Prop}
    (hshape : ∀ e s, Q e → Sketch.ofElement? e = some s → P (complete (Form.ofType e.type) e s))
    (hleaf : ∀ e s, Q e → Sketch.ofElement? e = some s → P ⟨s, [], []⟩)
    (e : Element) (hQ : e.Throughout Q) :
    (∀ o, ofElement? e = some o → ∀ o' ∈ o.flat, P o') ∧
      ∀ o ∈ flatAll (ofElements e.children), P o := by
  induction e using Designer.Element.rec_children with
  | step e ih =>
    have hchildren : ∀ o ∈ flatAll (ofElements e.children), P o := by
      intro o ho
      obtain ⟨p, hp, ho⟩ := mem_flatAll.mp ho
      rw [ofElements_eq] at hp
      obtain ⟨c, hc, hcp⟩ := List.mem_filterMap.mp hp
      exact (ih c hc (hQ.child hc)).1 p hcp o ho
    refine ⟨fun o ho o' ho' => ?_, hchildren⟩
    obtain ⟨s, hs, rfl⟩ := ofElement?_eq_some ho
    -- a container is no shape itself: its content is covered by the second half of the induction
    have hregions : ∀ r ∈ (complete (Form.ofType e.type) e s).regions, ∀ o ∈ flatAll r.2, P o := by
      intro r hr o ho
      rcases mem_regions_complete hr with ⟨c, hc, he⟩ | he
      · rw [he] at ho
        exact (ih c hc (hQ.child hc)).2 o ho
      · rw [he] at ho
        obtain ⟨p, hp, ho⟩ := mem_flatAll.mp ho
        obtain ⟨c, hc, s, hs, rfl⟩ := mem_inner hp
        obtain rfl : o = ⟨s, [], []⟩ := by simpa [flat, flatRegions, flatAll] using ho
        exact hleaf c s (hQ.child hc).self hs
    have hbelow : ∀ o ∈ flatAll (complete (Form.ofType e.type) e s).children, P o := by
      rcases children_complete (Form.ofType e.type) e s with he | he
      · simp [he, flatAll]
      · rwa [he]
    rw [flat_eq] at ho'
    rcases List.mem_cons.mp ho' with rfl | ho'
    · exact hshape e s hQ.self hs
    · rcases List.mem_append.mp ho' with ho' | ho'
      · obtain ⟨r, hr, ho'⟩ := mem_flatRegions.mp ho'
        exact hregions r hr o' ho'
      · exact hbelow o' ho'

theorem ofElement_plain (e : Element) (hplain : e.Throughout Element.Plain)
    (hdefault : e.Throughout Element.SingleDefault) :
    (∀ o, ofElement? e = some o → ∀ o' ∈ o.flat, o'.Plain) ∧
      ∀ o ∈ flatAll (ofElements e.children), o.Plain := by
  have hboth : e.Throughout fun c => c.Plain ∧ c.SingleDefault := fun c hc =>
    ⟨hplain c hc, hdefault c hc⟩
  exact forall_flat (fun _ _ hc hs => complete_plain hc.1 hs hc.2)
    (fun _ _ hc hs => leaf_plain hc.1 hs) e hboth

end Outline

end Shape

end Orchestration
