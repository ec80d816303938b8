import Orchestration.Analysis.Basic
import Orchestration.Proofs.Model.Unrecognized

/-!
# Orchestration.Proofs.Analysis.Unrecognized

Shapes of unknown type are accounted for once everywhere.

* `Analysis.unhandled` — the warning that the analysis has for an element of unknown type.
* `Analysis.unrecognized_once` — the reports, the nodes and the warnings of the analysis agree.
* `Analysis.unrecognized_once_regrouped` — cases with one key: the walk meets the nodes in another
  order than the one in which they were read.
-/

namespace Orchestration.Analysis

open Designer (Document Element)
open Shape (Form Kind Node)

/-- The warning about the shape of an element of unknown type. -/
def unhandled (e : Element) : String :=
  Text.orElse (e.prop "Name") ("Unknown_" ++ e.type) ++ ": " ++
    ("Unhandled shape type: " ++ e.type)

theorem shapeWarning?_of_unrecognized {n : Node} {e : Element} (h : n.Unrecognized e) :
    shapeWarning? n = some (unhandled e) := by
  simp only [shapeWarning?, h.kind, h.payload, h.name, if_true]
  rfl

theorem shapeWarning?_of_known {n : Node} (h : n.kind ≠ .fallback) : shapeWarning? n = none :=
  if_neg h

theorem filterMap_shapeWarning? {ns : List Node} {es : List Element}
    (h : List.Forall₂ Node.Unrecognized (ns.filter fun n => n.kind == .fallback) es) :
    ns.filterMap shapeWarning? = es.map unhandled := by
  induction ns generalizing es with
  | nil =>
    cases h
    rfl
  | cons n rest ih =>
    by_cases hk : n.kind = .fallback
    · rw [List.filter_cons_of_pos (by simp [hk])] at h
      cases h with
      | cons hn hrest =>
        rw [List.filterMap_cons_some (shapeWarning?_of_unrecognized hn), ih hrest, List.map_cons]
    · rw [List.filter_cons_of_neg (by simp [hk])] at h
      rw [List.filterMap_cons_none (shapeWarning?_of_known hk), ih h]

/-- Whatever text a model comes from: what was reported of unknown types names elements of the body
one by one, in the order in which they were read; no form knows their types. The fallbacks of the
tree, by increasing handle, are the nodes of the same elements in the same order. The warnings of the
analysis are one for each fallback that the walk meets, in its order, which is an order of the same
elements, and then those of the receive pattern. -/
theorem unrecognized_once {text source : String} {events : List Event} {m : Model}
    (h : Model.assembleText Model.noRefusals text.toList source = ⟨events, .ok m⟩) (s : Settings)
    (fileName : String) (size : Nat) :
    ∃ root, Model.readRoot text.toList source = .ok root ∧
      let d := Document.ofXml root
      let es := Model.unrecognized d
      (∀ e ∈ es, Form.ofType e.type = .fallback ∧ ∃ body ∈ d.bodies, e ∈ body.elements) ∧
      Model.unknownReports events = es.map Shape.Trace.unknown ∧
      List.Forall₂ Node.Unrecognized (m.tree.list.filter fun n => n.kind == .fallback) es ∧
      ∃ es', es'.Perm es ∧
        List.Forall₂ Node.Unrecognized (m.allShapes.filter fun n => n.kind == .fallback) es' ∧
        (ofModel s m fileName size).warnings =
          es'.map unhandled ++ (ReceivePattern.ofModel m).warnings := by
  obtain ⟨root, hroot, h⟩ := Model.exists_root h
  have hresult : (Model.assemble Model.noRefusals (Document.ofXml root) source).result = .ok m := by
    rw [h]
  have ha := Model.assembled_of_assemble hresult
  have hreports := Model.unknownReports_assemble hresult
  rw [h] at hreports
  -- the walk meets the fallbacks in an order of its own
  have hwalk := (Model.allShapes_perm ha.linked).filter fun n => n.kind == Kind.fallback
  obtain ⟨es', hes', hperm⟩ := List.perm_comp_forall₂ hwalk ha.fallbacks
  refine ⟨root, hroot, fun e he => Model.of_mem_unrecognized he, hreports, ha.fallbacks, es',
    hperm, hes', ?_⟩
  rw [ofModel, filterMap_shapeWarning? hes']

/-- Three elements of unknown type in a switch; the first and the last case have one value. -/
def regrouped : String :=
  Model.withBody "<Element Type='Switch'>
  <Element Type='DecisionBranch'><Property Name='Expression' Value='1'/>
  <Element Type='Ping'/></Element>
  <Element Type='DecisionBranch'><Property Name='Expression' Value='2'/>
  <Element Type='Pong'><Property Name='Name' Value='Reply'/></Element></Element>
  <Element Type='DecisionBranch'><Property Name='Expression' Value='1'/>
  <Element Type='Pang'/></Element>
  </Element>"

/-- The tags of the fallbacks among nodes. -/
def fallbackTags (ns : List Node) : List String :=
  (ns.filter fun n => n.kind == .fallback).map Node.tag

set_option maxRecDepth 100000 in
theorem regrouped_parsed : ∃ events m,
    Model.assembleText Model.noRefusals regrouped.toList "orders.odx" = ⟨events, .ok m⟩ ∧
    (fallbackTags m.tree.list, fallbackTags m.allShapes, m.allShapes.filterMap shapeWarning?) =
      (["Ping", "Pong", "Pang"], ["Ping", "Pang", "Pong"],
        ["Unknown_Ping: Unhandled shape type: Ping", "Unknown_Pang: Unhandled shape type: Pang",
          "Reply: Unhandled shape type: Pong"]) :=
  Model.exists_reported (f := fun _ m => (fallbackTags m.tree.list, fallbackTags m.allShapes,
    m.allShapes.filterMap shapeWarning?)) (by decide +kernel)

/-- What was read second comes third in the walk and in the analysis. -/
theorem unrecognized_once_regrouped : ∃ events m,
    Model.assembleText Model.noRefusals regrouped.toList "orders.odx" = ⟨events, .ok m⟩ ∧
    fallbackTags m.tree.list = ["Ping", "Pong", "Pang"] ∧
    fallbackTags m.allShapes = ["Ping", "Pang", "Pong"] ∧
    ∃ es es' : List Element, Model.unknownReports events = es.map Shape.Trace.unknown ∧
      List.Forall₂ Node.Unrecognized (m.tree.list.filter fun n => n.kind == .fallback) es ∧
      es'.Perm es ∧ es'.map unhandled =
        ["Unknown_Ping: Unhandled shape type: Ping", "Unknown_Pang: Unhandled shape type: Pang",
          "Reply: Unhandled shape type: Pong"] ∧
      (ofModel .usual m "orders.odx" 0).warnings =
        es'.map unhandled ++ (ReceivePattern.ofModel m).warnings := by
  obtain ⟨events, m, hm, hv⟩ := regrouped_parsed
  obtain ⟨hread, hv⟩ := Prod.mk.inj hv
  obtain ⟨hwalked, hwarned⟩ := Prod.mk.inj hv
  obtain ⟨root, -, -, hreports, hnodes, es', hperm, hes', hwarnings⟩ :=
    unrecognized_once hm .usual "orders.odx" 0
  refine ⟨events, m, hm, hread, hwalked, _, es', hreports, hnodes, hperm, ?_, hwarnings⟩
  rw [← filterMap_shapeWarning? hes', hwarned]

end Orchestration.Analysis
