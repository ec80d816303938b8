import Orchestration.Proofs.Shape.Tag

/-!
# Orchestration.Proofs.Shape.Unrecognized

Elements of a type that no form knows.

* `Outline.unrecognized` — those among the elements whose shapes are read, in the order of reading.
* `Form.descend`, `Outline.eq_map_unrecognized` — the way in which reading descends; whatever is
  collected on this way, one item for each unknown type, agrees with that list.
* `Sketch.unknown` — the shape of such an element.
* `Outline.fallbacks_ofElements` — the fallbacks that elements describe are these shapes.
-/

namespace Orchestration.Shape

open Designer (Element)

namespace Form

/-- Only types that no form knows are read as fallbacks. -/
theorem eq_fallback_of_kind {type : String} (h : (ofType type).kind? = some .fallback) :
    ofType type = .fallback := by
  rcases ofType_cases type with hf | hf | hrow | ⟨hf, -⟩
  · rw [hf] at h
    cases h
  · rw [hf] at h
    cases h
  · exact absurd h (fits_of_mem_table _ hrow).1
  · exact hf

theorem eq_metadata_of_sketch? {f : Form} {e : Element} (h : f.sketch? e = none) :
    f = .metadata := by
  cases f with
  | metadata => rfl
  | _ => exact absurd h (Option.some_ne_none _)

/-! ## Descending -/

/-- What is found below an element that is read in a form, from what each element contains: the
element's own content, that of its containers, or that of the two branches taken. -/
def descend {α : Type} (f : Form) (content : Element → List α) (e : Element) : List α :=
  match f with
  | .metadata | .construct | .messageAssignment => []
  | .decide =>
    let branches := (e.select decisionTypes).map content
    let d := Decision.ofElement e
    (branches[d.whenTrue]?).getD [] ++ (branches[d.whenFalse]?).getD []
  | .switch => (e.select decisionTypes).flatMap content
  | .listen => (e.select listenTypes).flatMap content
  | _ => content e

theorem getD_map {α β : Type} {g : List α → List β} (hg : g [] = []) (xs : List (List α))
    (i : Nat) : ((xs.map g)[i]?).getD [] = g ((xs[i]?).getD []) := by
  rw [List.getElem?_map]
  cases xs[i]? with
  | none => exact hg.symm
  | some x => rfl

theorem map_descend {α β : Type} (g : α → β) (f : Form) (content : Element → List α)
    (e : Element) : (f.descend content e).map g = f.descend (fun c => (content c).map g) e := by
  cases f with
  | decide =>
    simp only [descend]
    rw [List.map_append, ← getD_map List.map_nil, ← getD_map List.map_nil, List.map_map]
    rfl
  | switch | listen => exact List.map_flatMap
  | _ => rfl

theorem descend_congr {α : Type} {f : Form} {content content' : Element → List α} {e : Element}
    (he : content e = content' e) (hc : ∀ c ∈ e.children, content c = content' c) :
    f.descend content e = f.descend content' e := by
  have hselect : ∀ types, ∀ c ∈ e.select types, content c = content' c :=
    fun types c h => hc c (List.mem_filter.mp h).1
  cases f with
  | decide => simp only [descend, List.map_congr_left (hselect decisionTypes)]
  | switch | listen => exact List.flatMap_congr (hselect _)
  | metadata | construct | messageAssignment => rfl
  | _ => exact he

theorem mem_descend {α : Type} {f : Form} {content : Element → List α} {e : Element} {x : α}
    (hx : x ∈ f.descend content e) : x ∈ content e ∨ ∃ c ∈ e.children, x ∈ content c := by
  have hselect : ∀ types, x ∈ (e.select types).flatMap content →
      ∃ c ∈ e.children, x ∈ content c := by
    intro types hx
    obtain ⟨c, hc, hx⟩ := List.mem_flatMap.mp hx
    exact ⟨c, (List.mem_filter.mp hc).1, hx⟩
  have hbranch : ∀ i : Nat, x ∈ (((e.select decisionTypes).map content)[i]?).getD [] →
      ∃ c ∈ e.children, x ∈ content c := by
    intro i hx
    rw [List.getElem?_map] at hx
    cases hc : (e.select decisionTypes)[i]? with
    | none => simp [hc] at hx
    | some c =>
      rw [hc] at hx
      exact ⟨c, (List.mem_filter.mp (List.mem_of_getElem? hc)).1, hx⟩
  cases f with
  | metadata | construct | messageAssignment => cases hx
  | decide => exact .inr ((List.mem_append.mp hx).elim (hbranch _) (hbranch _))
  | switch | listen => exact .inr (hselect _ hx)
  | _ => exact .inl hx

end Form

namespace Outline

mutual

/-- The elements of unknown type among those that are read with an element, itself included. -/
def unrecognized : Element → List Element
  | ⟨type?, oid?, properties, children⟩ =>
    let e : Element := ⟨type?, oid?, properties, children⟩
    match Form.ofType e.type with
    | .metadata | .construct | .messageAssignment => []
    | .decide =>
      let branches := unrecognizedIn decisionTypes children
      let d := Decision.ofElement e
      (branches[d.whenTrue]?).getD [] ++ (branches[d.whenFalse]?).getD []
    | .switch => (unrecognizedIn decisionTypes children).flatten
    | .listen => (unrecognizedIn listenTypes children).flatten
    | .fallback => e :: unrecognizedAll children
    | _ => unrecognizedAll children

def unrecognizedAll : List Element → List Element
  | [] => []
  | e :: rest => unrecognized e ++ unrecognizedAll rest

/-- The same for each child element of the given types, apart from itself. -/
def unrecognizedIn (types : List String) : List Element → List (List Element)
  | [] => []
  | ⟨type?, oid?, properties, children⟩ :: rest =>
    let e : Element := ⟨type?, oid?, properties, children⟩
    if e.isOneOf types then unrecognizedAll children :: unrecognizedIn types rest
    else unrecognizedIn types rest

end

theorem unrecognizedAll_eq (es : List Element) : unrecognizedAll es = es.flatMap unrecognized := by
  induction es with
  | nil => rfl
  | cons e rest ih => rw [unrecognizedAll, ih, List.flatMap_cons]

theorem unrecognizedIn_eq (types : List String) (es : List Element) : unrecognizedIn types es =
    (es.filter (·.isOneOf types)).map fun c => unrecognizedAll c.children := by
  induction es with
  | nil => rfl
  | cons e rest ih =>
    obtain ⟨type?, oid?, properties, children⟩ := e
    rw [unrecognizedIn, ih]
    split
    · next h => simp [h]
    · next h => simp [h]

theorem unrecognized_eq (e : Element) : unrecognized e =
    (if Form.ofType e.type = .fallback then [e] else []) ++
      (Form.ofType e.type).descend (fun c => c.children.flatMap unrecognized) e := by
  obtain ⟨type?, oid?, properties, children⟩ := e
  simp only [unrecognized, unrecognizedIn_eq, unrecognizedAll_eq]
  cases Form.ofType _ <;> simp [Form.descend, Element.select, List.flatMap]

/-- These elements are of unknown type, and each stands somewhere below. -/
theorem of_mem_unrecognized (e : Element) :
    (∀ c ∈ unrecognized e, Form.ofType c.type = .fallback ∧ c ∈ e.elements) ∧
      ∀ c ∈ e.children.flatMap unrecognized,
        Form.ofType c.type = .fallback ∧ c ∈ Element.elementsOf e.children := by
  induction e using Designer.Element.rec_children with
  | step e ih =>
    have hchildren : ∀ c ∈ e.children.flatMap unrecognized,
        Form.ofType c.type = .fallback ∧ c ∈ Element.elementsOf e.children := by
      intro c hc
      obtain ⟨child, hchild, hc⟩ := List.mem_flatMap.mp hc
      have hbelow := (ih child hchild).1 c hc
      exact ⟨hbelow.1, Element.elements_subset_elementsOf hchild hbelow.2⟩
    refine ⟨fun c hc => ?_, hchildren⟩
    rw [unrecognized_eq, List.mem_append] at hc
    rw [Element.elements_eq]
    rcases hc with hc | hc
    · split at hc
      · next hf =>
        obtain rfl := List.mem_singleton.mp hc
        exact ⟨hf, List.mem_cons_self⟩
      · cases hc
    · rcases Form.mem_descend hc with hc | ⟨child, hchild, hc⟩
      · have hbelow := hchildren c hc
        exact ⟨hbelow.1, List.mem_cons_of_mem _ hbelow.2⟩
      · -- a container, of which only the content is read
        have hbelow := (ih child hchild).2 c hc
        refine ⟨hbelow.1, List.mem_cons_of_mem _ ?_⟩
        refine Element.elements_subset_elementsOf hchild ?_
        rw [Element.elements_eq]
        exact List.mem_cons_of_mem _ hbelow.2

/-- What is collected by descending, with one item for each element of unknown type and no other,
consists of the items for the elements of unknown type. -/
theorem eq_map_unrecognized {α : Type} {F : Element → List α} {g : Element → α}
    (hF : ∀ e, F e = (if Form.ofType e.type = .fallback then [g e] else []) ++
      (Form.ofType e.type).descend (fun c => c.children.flatMap F) e) (e : Element) :
    F e = (unrecognized e).map g ∧
      e.children.flatMap F = (e.children.flatMap unrecognized).map g := by
  induction e using Designer.Element.rec_children with
  | step e ih =>
    have hchildren : e.children.flatMap F = (e.children.flatMap unrecognized).map g := by
      rw [List.map_flatMap]
      exact List.flatMap_congr fun c hc => (ih c hc).1
    refine ⟨?_, hchildren⟩
    rw [hF, unrecognized_eq, List.map_append, Form.map_descend,
      Form.descend_congr hchildren fun c hc => (ih c hc).2]
    split <;> rfl

end Outline

/-! ## Shapes -/

/-- The shape of an element whose type is unknown. -/
def Sketch.unknown (e : Element) : Sketch :=
  ⟨.fallback, Text.orElse e.type Kind.fallback.label, e.oid,
    Text.orElse (e.prop "Name") ("Unknown_" ++ e.type),
    .fallback ("Unhandled shape type: " ++ e.type)⟩

namespace Outline

/-- The sketches of the fallbacks among outlines, at every depth. -/
def fallbacks (os : List Outline) : List Sketch :=
  ((flatAll os).map Outline.sketch).filter fun s => s.kind == .fallback

theorem fallbacks_cons (o : Outline) (os : List Outline) :
    fallbacks (o :: os) = fallbacks [o] ++ fallbacks os := by
  simp [fallbacks, flatAll]

theorem fallbacks_append (os os' : List Outline) :
    fallbacks (os ++ os') = fallbacks os ++ fallbacks os' := by
  induction os with
  | nil => rfl
  | cons o rest ih =>
    rw [List.cons_append, fallbacks_cons, ih, fallbacks_cons o rest, List.append_assoc]

theorem fallbacks_flatMap (es : List Element) :
    fallbacks (ofElements es) = es.flatMap fun e => fallbacks (ofElement? e).toList := by
  induction es with
  | nil => rfl
  | cons e rest ih => rw [ofElements, fallbacks_append, ih, List.flatMap_cons]

theorem fallbacks_single (o : Outline) : fallbacks [o] =
    (if o.sketch.kind = .fallback then [o.sketch] else []) ++
      (o.regions.flatMap (fun r => fallbacks r.2) ++ fallbacks o.children) := by
  have hregions : ∀ regions : List (Slot × List Outline),
      ((flatRegions regions).map Outline.sketch).filter (fun s => s.kind == .fallback) =
        regions.flatMap fun r => fallbacks r.2 := by
    intro regions
    induction regions with
    | nil => rfl
    | cons r rest ih =>
      rw [flatRegions, List.map_append, List.filter_append, ih, List.flatMap_cons, fallbacks]
  rw [fallbacks, flatAll, flatAll, List.append_nil, flat_eq, List.map_cons, List.filter_cons,
    List.map_append, List.filter_append, hregions, fallbacks]
  by_cases hk : o.sketch.kind = .fallback <;> simp [hk]

theorem fallbacks_leaves {os : List Outline}
    (hos : ∀ o ∈ os, o.sketch.kind ≠ .fallback ∧ o.regions = [] ∧ o.children = []) :
    fallbacks os = [] := by
  induction os with
  | nil => rfl
  | cons o rest ih =>
    obtain ⟨hk, hregions, hchildren⟩ := hos o List.mem_cons_self
    rw [fallbacks_cons, fallbacks_single, if_neg hk, hregions, hchildren,
      ih fun o ho => hos o (List.mem_cons_of_mem _ ho)]
    rfl

/-- No map and no assignment inside a construct is a fallback. -/
theorem fallbacks_inner (e : Element) : fallbacks (inner e) = [] := by
  have hleaves : ∀ (type : String) (f : Form), f.kind? ≠ some .fallback →
      fallbacks ((e.select [type]).filterMap fun c =>
        (f.sketch? c).map fun s => (⟨s, [], []⟩ : Outline)) = [] := by
    intro type f hf
    refine fallbacks_leaves fun o ho => ?_
    obtain ⟨c, -, hc⟩ := List.mem_filterMap.mp ho
    obtain ⟨s, hs, rfl⟩ := Option.map_eq_some_iff.mp hc
    exact ⟨fun hk => hf ((Form.kind_of_sketch? hs).trans (congrArg some hk)), rfl, rfl⟩
  rw [inner, fallbacks_append, hleaves "Transform" _ (by decide),
    hleaves "MessageAssignment" _ (by decide)]
  rfl

theorem fallbacks_cases (number : Nat) (cs : List (Element × List Outline)) :
    (cases number cs).flatMap (fun r => fallbacks r.2) = cs.flatMap fun c => fallbacks c.2 := by
  induction cs generalizing number with
  | nil => rfl
  | cons c rest ih => rw [cases, List.flatMap_cons, ih, List.flatMap_cons]

theorem fallbacks_branches (number : Nat) (cs : List (Element × List Outline)) :
    (branches number cs).flatMap (fun r => fallbacks r.2) = cs.flatMap fun c => fallbacks c.2 := by
  induction cs generalizing number with
  | nil => rfl
  | cons c rest ih => rw [branches, List.flatMap_cons, ih, List.flatMap_cons]

/-- The fallbacks below an element stand where its form descends. -/
theorem fallbacks_complete {f : Form} {e : Element} {s : Sketch} (hs : f.sketch? e = some s) :
    fallbacks [complete f e s] =
      (if s.kind = .fallback then [(complete f e s).sketch] else []) ++
        f.descend (fun c => fallbacks (ofElements c.children)) e := by
  obtain ⟨p, hp⟩ := sketch_complete f e s
  rw [fallbacks_single, hp]
  congr 1
  cases f with
  | metadata => cases hs
  | decide =>
    have hbranch : ∀ (slot : Slot) (b : Option (List Outline)),
        (b.toList.map (Prod.mk slot)).flatMap (fun r => fallbacks r.2) = fallbacks (b.getD []) := by
      intro slot b
      cases b with
      | none => rfl
      | some os => exact List.append_nil _
    simp only [complete, decide, Form.descend, List.flatMap_append, hbranch]
    rw [← Form.getD_map (g := fallbacks) rfl, ← Form.getD_map (g := fallbacks) rfl, List.map_map]
    exact List.append_nil _
  | switch =>
    refine (List.append_nil _).trans ((fallbacks_cases 1 _).trans ?_)
    rw [List.flatMap_map]
    rfl
  | listen =>
    refine (List.append_nil _).trans ((fallbacks_branches 1 _).trans ?_)
    rw [List.flatMap_map]
    rfl
  | construct =>
    simp only [complete, List.flatMap_cons, fallbacks_inner]
    rfl
  | _ => rfl

theorem fallbacks_ofElement? (e : Element) : fallbacks (ofElement? e).toList =
    (if Form.ofType e.type = .fallback then [Sketch.unknown e] else []) ++
      (Form.ofType e.type).descend
        (fun c => c.children.flatMap fun c => fallbacks (ofElement? c).toList) e := by
  simp only [← fallbacks_flatMap]
  rw [ofElement?_eq]
  cases hs : (Form.ofType e.type).sketch? e with
  | none =>
    rw [Form.eq_metadata_of_sketch? hs]
    rfl
  | some s =>
    refine (fallbacks_complete hs).trans ?_
    congr 1
    by_cases hf : Form.ofType e.type = .fallback
    · rw [hf] at hs ⊢
      obtain rfl := Option.some.inj hs
      rfl
    · have hk : s.kind ≠ .fallback := fun hk =>
        hf (Form.eq_fallback_of_kind ((Form.kind_of_sketch? hs).trans (congrArg some hk)))
      rw [if_neg hk, if_neg hf]

/-- What is described as a fallback is each element of unknown type, in the order of reading. -/
theorem fallbacks_ofElements (es : List Element) :
    fallbacks (ofElements es) = (unrecognizedAll es).map Sketch.unknown := by
  rw [fallbacks_flatMap, unrecognizedAll_eq]
  exact (eq_map_unrecognized fallbacks_ofElement? ⟨none, none, [], es⟩).2

end Outline

end Orchestration.Shape
