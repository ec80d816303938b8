import Orchestration.Shape.Outline

/-!
# Orchestration.Proofs.Shape.Outline

The recursion that reads outlines from elements, as equations without mutual recursion.

* `Element.rec_children` — induction on elements: a property that passes from the child elements
  to their parent holds of every element.
* `Outline.ofElement?_eq` — an element that is no metadata becomes its sketch, completed as its
  form tells.
-/

namespace Orchestration

namespace Designer.Element

mutual

theorem rec_children {P : Element → Prop} (step : ∀ e : Element, (∀ c ∈ e.children, P c) → P e) :
    (e : Element) → P e
  | ⟨type?, oid?, properties, children⟩ =>
    step ⟨type?, oid?, properties, children⟩ (rec_list step children)

theorem rec_list {P : Element → Prop} (step : ∀ e : Element, (∀ c ∈ e.children, P c) → P e) :
    (es : List Element) → ∀ e ∈ es, P e
  | [] => by simp
  | e :: rest => by
    have he : P e := rec_children step e
    have hrest : ∀ c ∈ rest, P c := rec_list step rest
    simpa using ⟨he, hrest⟩

end

theorem type_of_mem_select {e c : Element} {type : String} (hc : c ∈ e.select [type]) :
    c.type = type := by
  have hone : c.isOneOf [type] = true := (List.mem_filter.mp hc).2
  obtain ⟨type', ht, hm⟩ := (Option.any_eq_true _ _).mp hone
  simp at hm
  simp [Element.type, ht, hm]

end Designer.Element

namespace Shape

open Designer (Element)

namespace Outline

/-- The outline of an element read in a form, once its sketch is known. -/
def complete (f : Form) (e : Element) (s : Sketch) : Outline :=
  match f with
  | .decide =>
    decide s (Decision.ofElement e) ((e.select decisionTypes).map fun c => ofElements c.children)
  | .switch =>
    ⟨s, cases 1 ((e.select decisionTypes).map fun c => (c, ofElements c.children)), []⟩
  | .listen =>
    ⟨s, branches 1 ((e.select listenTypes).map fun c => (c, ofElements c.children)), []⟩
  | .construct => ⟨s, [(.inner, inner e)], []⟩
  | .messageAssignment => ⟨s, [], []⟩
  | _ => ⟨s, [], ofElements e.children⟩

theorem ofElements_eq (es : List Element) : ofElements es = es.filterMap ofElement? := by
  induction es with
  | nil => rfl
  | cons e rest ih =>
    rw [ofElements, ih]
    cases h : ofElement? e with
    | none => simp [h]
    | some o => simp [h]

theorem containers_eq (types : List String) (es : List Element) :
    containers types es =
      (es.filter (·.isOneOf types)).map fun c => (c, ofElements c.children) := by
  induction es with
  | nil => rfl
  | cons e rest ih =>
    obtain ⟨type?, oid?, properties, children⟩ := e
    rw [containers, ih]
    split
    · next h => simp [h]
    · next h => simp [h]

theorem ofElement?_eq (e : Element) :
    ofElement? e =
      ((Form.ofType e.type).sketch? e).map (complete (Form.ofType e.type) e) := by
  obtain ⟨type?, oid?, properties, children⟩ := e
  simp only [ofElement?, containers_eq]
  cases (Form.ofType _).sketch? _ with
  | none => rfl
  | some s =>
    simp only [Option.map_some]
    split <;> simp_all [complete, Element.select, Function.comp_def]

theorem ofElement?_eq_some {e : Element} {o : Outline} (h : ofElement? e = some o) :
    ∃ s, (Form.ofType e.type).sketch? e = some s ∧ o = complete (Form.ofType e.type) e s := by
  rw [ofElement?_eq] at h
  obtain ⟨s, hs, rfl⟩ := Option.map_eq_some_iff.mp h
  exact ⟨s, hs, rfl⟩

end Outline

end Shape

end Orchestration
