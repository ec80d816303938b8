import Orchestration.Proofs.Model.Section
import Orchestration.Proofs.Model.Tag
import Orchestration.Proofs.Shape.Unrecognized

/-!
# Orchestration.Proofs.Model.Unrecognized

Shapes of unknown type in a model, and what was reported of them.

* `Trace.warnings_ofElements` — while elements are read, unknown types are all that is warned of.
* `Model.unrecognized` — the elements of unknown type in the body of a document.
* `Model.unknownReports_assemble` — the assembly reports each of them.
* `Node.Unrecognized`, `Model.Assembled.fallbacks` — the fallbacks of the tree are their nodes.
-/

namespace Orchestration

open Designer (Document Element)
open Shape (Form Kind Node Outline Sketch)

/-! ## Reports -/

namespace Shape.Trace

open Model (warnings warnings_append)
open Outline (unrecognizedAll)

theorem ofElements_eq (es : List Element) : ofElements es = es.flatMap ofElement := by
  induction es with
  | nil => rfl
  | cons e rest ih => rw [ofElements, ih, List.flatMap_cons]

theorem warnings_flatMap (es : List Element) :
    warnings (ofElements es) = es.flatMap fun e => warnings (ofElement e) := by
  rw [ofElements_eq]
  exact List.filter_flatMap ..

theorem containers_eq (types : List String) (es : List Element) : containers types es =
    (es.filter (·.isOneOf types)).map fun c => (c, ofElements c.children) := by
  induction es with
  | nil => rfl
  | cons e rest ih =>
    obtain ⟨type?, oid?, properties, children⟩ := e
    rw [containers, ih]
    split
    · next h => simp [h]
    · next h => simp [h]

theorem warnings_cases (cs : List (Element × List Event)) :
    warnings (cases cs) = cs.flatMap fun c => warnings c.2 := by
  rw [cases, warnings, List.filter_flatMap]
  refine List.flatMap_congr fun c _ => ?_
  have hdone : ∀ e k, warnings [caseDone e k] = [] := by
    intro e k
    unfold caseDone
    split <;> rfl
  change warnings _ = _
  rw [warnings_append, hdone, List.append_nil]

theorem warnings_branches (number : Nat) (cs : List (Element × List Event)) :
    warnings (branches number cs) = cs.flatMap fun c => warnings c.2 := by
  induction cs generalizing number with
  | nil => rfl
  | cons c rest ih =>
    rw [List.flatMap_cons, ← ih (number + 1), ← warnings_append]
    rfl

theorem warnings_decision (s : Sketch) (d : Decision) (outlines : List (List Outline))
    {reports : List (List Event)} (hlength : reports.length = d.branches) :
    warnings (decision s d outlines reports) =
      (((reports.map warnings)[d.whenTrue]?).getD []) ++
        ((reports.map warnings)[d.whenFalse]?).getD [] := by
  unfold decision
  split
  · next hnone =>
    obtain rfl := List.length_eq_zero_iff.mp (hlength.trans hnone)
    rfl
  · have hpromoted : ∀ promoted : Option Outline, warnings (promoted.toList.map fun o =>
        .debug s!"[PARSE]   Using expression from shape: {o.sketch.name}") = [] := by
      intro promoted
      cases promoted <;> rfl
    simp only [warnings_append, hpromoted, List.append_nil]
    rw [Form.getD_map rfl, Form.getD_map rfl]
    cases d.conditioned <;> rfl

theorem length_select (e : Element) :
    (e.select decisionTypes).length = (Decision.ofElement e).branches :=
  (List.length_map _).symm

theorem warnings_framed (e : Element) (s : Sketch) (events : List Event) :
    warnings (found e :: events ++ [finished s]) = warnings events := by
  rw [warnings_append]
  exact List.append_nil _

/-- The warnings are those from below the element, and one for its own type if that is unknown. -/
theorem warnings_ofElement (e : Element) : warnings (ofElement e) =
    (if Form.ofType e.type = .fallback then [unknown e] else []) ++
      (Form.ofType e.type).descend
        (fun c => c.children.flatMap fun c => warnings (ofElement c)) e := by
  obtain ⟨type?, oid?, properties, children⟩ := e
  simp only [← warnings_flatMap, ofElement, containers_eq]
  cases Form.ofType (Element.type ⟨type?, oid?, properties, children⟩) with
  | decide =>
    refine (warnings_framed ..).trans ((warnings_decision _ _ _ ?_).trans ?_)
    · rw [List.length_map, List.length_map]
      exact length_select ⟨type?, oid?, properties, children⟩
    · simp [Form.descend, Element.select, Function.comp_def]
  | switch =>
    refine (warnings_framed ..).trans ((warnings_cases _).trans ?_)
    rw [List.flatMap_map]
    rfl
  | listen =>
    refine (warnings_framed ..).trans ((warnings_branches 1 _).trans ?_)
    rw [List.flatMap_map]
    rfl
  | «variable» =>
    refine (warnings_append ..).trans ?_
    split <;> rfl
  | _ => rfl

/-- What is warned of while elements are read is each unknown type, in the order of reading. -/
theorem warnings_ofElements (es : List Element) :
    warnings (ofElements es) = (unrecognizedAll es).map unknown := by
  rw [warnings_flatMap, Outline.unrecognizedAll_eq]
  exact (Outline.eq_map_unrecognized warnings_ofElement ⟨none, none, [], es⟩).2

end Shape.Trace

namespace Model

/-- The elements of unknown type in the body of a document, in the order in which they are read. -/
def unrecognized (d : Document) : List Element :=
  Outline.unrecognizedAll ((d.bodies.head?.map Element.children).getD [])

theorem of_mem_unrecognized {d : Document} {e : Element} (he : e ∈ unrecognized d) :
    Form.ofType e.type = .fallback ∧ ∃ body ∈ d.bodies, e ∈ body.elements := by
  cases hb : d.bodies.head? with
  | none => simp [unrecognized, hb, Outline.unrecognizedAll] at he
  | some body =>
    have hread : e ∈ body.children.flatMap Outline.unrecognized := by
      rw [← Outline.unrecognizedAll_eq]
      simpa [unrecognized, hb] using he
    obtain ⟨htype, hbelow⟩ := (Outline.of_mem_unrecognized body).2 e hread
    refine ⟨htype, body, List.mem_of_head? hb, ?_⟩
    rw [Element.elements_eq]
    exact List.mem_cons_of_mem _ hbelow

/-- How a warning of an unknown type begins. -/
def unknownHead : String := "[PARSE] Unknown shape type: "

/-- The warnings of unknown types among reports. -/
def unknownReports (events : List Event) : List Event :=
  (warnings events).filter fun e => unknownHead.toList.isPrefixOf e.text.toList

theorem unknownReports_append (events events' : List Event) :
    unknownReports (events ++ events') = unknownReports events ++ unknownReports events' := by
  rw [unknownReports, warnings_append, List.filter_append, unknownReports, unknownReports]

theorem filter_unknown (es : List Element) :
    (es.map Shape.Trace.unknown).filter (fun e => unknownHead.toList.isPrefixOf e.text.toList) =
      es.map Shape.Trace.unknown := by
  refine List.filter_eq_self.mpr fun event h => ?_
  obtain ⟨e, -, rfl⟩ := List.mem_map.mp h
  have htext : (Shape.Trace.unknown e).text = unknownHead ++ e.type := rfl
  rw [List.isPrefixOf_iff_prefix, htext, String.toList_append]
  exact List.prefix_append ..

theorem unknownReports_closing (d : Document) (m : Model) : unknownReports (closing d m) = [] := by
  have hsummary : unknownReports [m.summary] = [] := rfl
  rw [closing, unknownReports_append, hsummary, List.append_nil]
  split
  · have htext : (s!"No service body found in orchestration '{nameOf d}'").toList =
        "No service body found in orchestration '".toList ++ ((nameOf d).toList ++ "'".toList) := by
      rw [String.toList_append, String.toList_append, List.append_assoc]
      rfl
    refine List.filter_eq_nil_iff.mpr fun e he => ?_
    obtain rfl := List.mem_singleton.mp he
    rw [Event.warning, htext]
    simp [unknownHead]
  · rfl

section

variable {d : Document} {source : String}

/-- What a section warns of when it is not refused. -/
def Section.cautions (d : Document) : Section → List Event
  | .shapes => (unrecognized d).map Shape.Trace.unknown
  | _ => []

theorem Section.warnings_step (s : Section) (m : Model) :
    warnings (s.step noRefusals d source m).events = s.cautions d := by
  cases s with
  | messages | portTypes | ports => rfl
  | declaredVariables =>
    refine ((warnings_append ..).trans (List.append_nil _)).trans ?_
    exact warnings_declareEvents variableType
  | declaredCorrelations =>
    refine ((warnings_append ..).trans (List.append_nil _)).trans ?_
    exact warnings_declareEvents correlationType
  | shapes =>
    refine ((warnings_append ..).trans (List.append_nil _)).trans ?_
    exact Shape.Trace.warnings_ofElements _
  | bindings =>
    refine ((warnings_append ..).trans (List.append_nil _)).trans ?_
    exact warnings_correlate _ _

theorem warnings_run (m : Model) (ss : List Section) :
    warnings (run noRefusals d source m ss).events = ss.flatMap (Section.cautions d) := by
  induction ss generalizing m with
  | nil => rfl
  | cons s rest ih =>
    have hgoes : ¬ s.Stops noRefusals := fun hs => Bool.false_ne_true hs.2
    obtain ⟨m', hm'⟩ := Section.step_ok d source hgoes m
    rw [run_cons, Reported.bind_of_ok hm', warnings_append, Section.warnings_step, ih,
      List.flatMap_cons]

/-- What is reported of unknown types is each of them, in the order in which the body is read. -/
theorem unknownReports_assemble {m : Model} (h : (assemble noRefusals d source).result = .ok m) :
    unknownReports (assemble noRefusals d source).events =
      (unrecognized d).map Shape.Trace.unknown := by
  have hname : nameOf d ≠ "" := by
    intro hnone
    rw [assemble_result, ← nameOf, if_pos hnone] at h
    cases h
  have hgoes : ∀ s ∈ sections d, ¬ s.Stops noRefusals := fun s _ hs => Bool.false_ne_true hs.2
  obtain ⟨m, hm⟩ := run_ok d source hgoes (blank d source)
  have hsections : (sections d).flatMap (Section.cautions d) =
      (unrecognized d).map Shape.Trace.unknown := by
    cases hb : d.bodies with
    | nil => simp [sections, hb, unrecognized, Section.cautions, Outline.unrecognizedAll]
    | cons body rest => simp [sections, hb, Section.cautions]
  rw [assemble_eq noRefusals d source hname, Reported.bind_of_ok hm, unknownReports_append,
    unknownReports_closing, List.append_nil, unknownReports, warnings_run, hsections,
    filter_unknown]

end

/-- A text with a model has a document, from which the model is assembled. -/
theorem exists_root {text : List Char} {source : String} {events : List Event} {m : Model}
    (h : assembleText noRefusals text source = ⟨events, .ok m⟩) :
    ∃ root, readRoot text source = .ok root ∧
      assemble noRefusals (Document.ofXml root) source = ⟨events, .ok m⟩ := by
  unfold assembleText at h
  split at h
  · cases h
  · next root hroot => exact ⟨root, hroot, h⟩

theorem exists_reported {α : Type} {f : List Event → Model → α} {a : α}
    {before body after : List Char} {source : String}
    (h : let x := assembleText noRefusals (before ++ body ++ after) source
      x.result.toOption.map (f x.events) = some a) :
    ∃ events m, assembleText noRefusals (String.ofList before ++ String.ofList body ++
      String.ofList after).toList source = ⟨events, .ok m⟩ ∧ f events m = a := by
  obtain ⟨m, hm, hv⟩ := exists_ok h
  rw [String.toList_append, String.toList_append, String.toList_ofList, String.toList_ofList,
    String.toList_ofList]
  exact ⟨_, m, by rw [← hm], hv⟩

end Model

/-! ## Nodes -/

namespace Shape

namespace Payload

/-- The details of a fallback; other contents have none. -/
def details? : Payload → Option String
  | .fallback details => some details
  | _ => none

theorem details?_put (slot : Slot) (hs : List Handle) (p : Payload) :
    (p.put slot hs).details? = p.details? := by
  cases p with
  | decide | switch | listen | construct => cases slot <;> rfl
  | _ => rfl

theorem details?_furnish (regions : List (Slot × List Handle)) (p : Payload) :
    (p.furnish regions).details? = p.details? := by
  induction regions generalizing p with
  | nil => rfl
  | cons r rest ih => rw [furnish_cons, ih, details?_put]

theorem eq_fallback_of_details? {p : Payload} {details : String}
    (h : p.details? = some details) : p = .fallback details := by
  cases p with
  | fallback d => exact congrArg _ (Option.some.inj h)
  | _ => cases h

end Payload

/-- All that a fallback says. -/
def Sketch.said (s : Sketch) : Kind × String × String × String × Option String :=
  (s.kind, s.tag, s.oid, s.name, s.payload.details?)

def Node.said (n : Node) : Kind × String × String × String × Option String :=
  (n.kind, n.tag, n.oid, n.name, n.payload.details?)

theorem sketched_said : Sketched Node.said Sketch.said := fun s _ _ _ regions _ =>
  congrArg (fun details => (s.kind, s.tag, s.oid, s.name, details))
    (Payload.details?_furnish regions s.payload)

theorem Node.said_bindAll (uses : List Binding) (n : Node) : (n.bindAll uses).said = n.said := by
  rcases n.bindAll_cases uses with h | ⟨_, _, _, _, _, _, hp, h⟩
  · rw [h]
  · rw [h, said, said, hp]
    rfl

/-- The node is the shape of an element of unknown type, which it names. -/
structure Node.Unrecognized (n : Node) (e : Element) : Prop where
  kind : n.kind = .fallback
  tag : n.tag = Text.orElse e.type "Fallback"
  oid : n.oid = e.oid
  name : n.name = Text.orElse (e.prop "Name") ("Unknown_" ++ e.type)
  payload : n.payload = .fallback ("Unhandled shape type: " ++ e.type)

theorem Node.unrecognized_of_said {n : Node} {e : Element}
    (h : n.said = (Sketch.unknown e).said) : n.Unrecognized e := by
  obtain ⟨hkind, h⟩ := Prod.mk.inj h
  obtain ⟨htag, h⟩ := Prod.mk.inj h
  obtain ⟨hoid, h⟩ := Prod.mk.inj h
  obtain ⟨hname, hdetails⟩ := Prod.mk.inj h
  exact ⟨hkind, htag, hoid, hname, Payload.eq_fallback_of_details? hdetails⟩

end Shape

namespace Model

theorem bodyOutlines_eq (d : Document) : bodyOutlines d =
    Outline.ofElements ((d.bodies.head?.map Element.children).getD []) := by
  rw [bodyOutlines]
  cases d.bodies.head? <;> rfl

/-- Declarations are variables and correlation sets. -/
theorem declaredSketches_known (d : Document) {s : Sketch}
    (hs : s ∈ declaredSketches d variableType ++ declaredSketches d correlationType) :
    s.kind ≠ .fallback := by
  have hknown : ∀ type, (Form.ofType type).kind? ≠ some .fallback →
      s ∈ declaredSketches d type → s.kind ≠ .fallback :=
    fun type ht hs hk => ht ((kind_of_mem_declaredSketches hs).trans (congrArg some hk))
  rcases List.mem_append.mp hs with hs | hs
  · exact hknown variableType (by decide +kernel) hs
  · exact hknown correlationType (by decide +kernel) hs

/-- The fallbacks, by increasing handle, are the nodes of the elements of unknown type, in the order
in which these are read. -/
theorem Assembled.fallbacks {d : Document} {m : Model} (ha : Assembled d m) :
    List.Forall₂ Node.Unrecognized (m.tree.list.filter fun n => n.kind == .fallback)
      (unrecognized d) := by
  let declared := declaredSketches d variableType ++ declaredSketches d correlationType
  have hdeclared : declared.filter (fun s => s.kind == .fallback) = [] :=
    List.filter_eq_nil_iff.mpr fun s hs => by simpa using declaredSketches_known d hs
  have hlist : m.tree.list.map Node.said =
      (declared ++ (Outline.flatAll (bodyOutlines d)).map Outline.sketch).map Sketch.said := by
    rw [List.map_append, List.map_map]
    exact ha.list_map Shape.sketched_said Node.said_bindAll
  have hkinds := congrArg (List.filter fun x => x.1 == Kind.fallback) hlist
  rw [List.filter_map, List.filter_map] at hkinds
  have hsaid : (m.tree.list.filter fun n => n.kind == .fallback).map Node.said =
      (unrecognized d).map fun e => (Sketch.unknown e).said :=
    calc (m.tree.list.filter fun n => n.kind == .fallback).map Node.said
      _ = ((declared ++ (Outline.flatAll (bodyOutlines d)).map Outline.sketch).filter
            fun s => s.kind == .fallback).map Sketch.said := hkinds
      _ = (Outline.fallbacks (bodyOutlines d)).map Sketch.said := by
        rw [List.filter_append, hdeclared, List.nil_append, Outline.fallbacks]
      _ = (unrecognized d).map fun e => (Sketch.unknown e).said := by
        rw [bodyOutlines_eq, Outline.fallbacks_ofElements, List.map_map, unrecognized]
        rfl
  rw [← List.forall₂_eq_eq_eq, List.forall₂_map_left_iff, List.forall₂_map_right_iff] at hsaid
  exact hsaid.imp fun _ _ => Node.unrecognized_of_said

end Model

end Orchestration
