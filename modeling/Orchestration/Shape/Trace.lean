import Orchestration.Event
import Orchestration.Shape.Outline

/-!
# Orchestration.Shape.Trace

What is reported while a body is read: for each element, in order, what was found, what its
branches turned out to be, and whether its child elements are shapes as well.
-/

namespace Orchestration.Shape.Trace

open Designer (Element)

def truth (b : Bool) : String := if b then "True" else "False"

def found (e : Element) : Event :=
  .debug s!"[PARSE] Found shape type: {e.type}, OID: {e.oid}"

def skipped (e : Element) : Event := .debug s!"[PARSE] Skipping metadata element: {e.type}"

def unknown (e : Element) : Event := .warning s!"[PARSE] Unknown shape type: {e.type}"

/-- The shape is complete, but for its children. -/
def finished (s : Sketch) : Event :=
  .debug s!"[PARSE] Shape {s.name} ({s.tag}) - Will recurse: {truth !s.kind.holdsSlots}"

/-- Reports of a decision; the branches come with their outlines and reports. -/
def decision (s : Sketch) (d : Decision) (outlines : List (List Outline))
    (reports : List (List Event)) : List Event :=
  let head := Event.debug s!"[PARSE] Decision '{s.name}' has {d.branches} branches"
  if d.branches = 0 then [head]
  else
    let choice :=
      match d.conditioned with
      | some i =>
        Event.debug s!"[PARSE]   Found expression in branch {i}: {Text.first 60 d.condition}"
      | none => .debug "[PARSE]   No expression found - using branch order"
    let promoted := Outline.promoted? d.condition ((outlines[d.whenTrue]?).getD [])
    [head, choice] ++ (reports[d.whenTrue]?).getD [] ++ (reports[d.whenFalse]?).getD [] ++
      promoted.toList.map fun o =>
        .debug s!"[PARSE]   Using expression from shape: {o.sketch.name}"

/-- The report after one container of a switch. -/
def caseDone (container : Element) (shapes : Nat) : Event :=
  match caseKey? container with
  | none => .debug s!"[PARSE]   Default case parsed: {shapes} shapes"
  | some key => .debug s!"[PARSE]   Case '{key}' parsed: {shapes} shapes"

/-- Reports of the containers of a switch. -/
def cases (containers : List (Element × List Event)) : List Event :=
  containers.flatMap fun (c, events) =>
    events ++ [caseDone c (Outline.ofElements c.children).length]

/-- Reports of the branches of a listen, numbered from `number`. -/
def branches (number : Nat) : List (Element × List Event) → List Event
  | [] => []
  | (_, events) :: rest =>
    .debug s!"[PARSE] Parsing Listen branch {number}" :: events ++ branches (number + 1) rest

mutual

/-- Reports of one element with everything below it. -/
def ofElement : Element → List Event
  | ⟨type?, oid?, properties, children⟩ =>
    let e : Element := ⟨type?, oid?, properties, children⟩
    let form := Form.ofType e.type
    match form.sketch? e with
    | none => [found e, skipped e]
    | some s =>
      match form with
      | .decide =>
        let regions := containers decisionTypes children
        found e ::
          decision s (Decision.ofElement e)
            (regions.map fun (c, _) => Outline.ofElements c.children) (regions.map Prod.snd) ++
          [finished s]
      | .switch =>
        found e ::
          .debug s!"[PARSE] Switch '{s.name}' with expression: {Text.first 60 (expressionOf e)}" ::
          cases (containers decisionTypes children) ++ [finished s]
      | .listen => found e :: branches 1 (containers listenTypes children) ++ [finished s]
      | .construct => [found e, finished s]
      | .messageAssignment => [found e, finished s]
      | .fallback => [found e, unknown e, finished s] ++ ofElements children
      | .variable =>
        found e ::
          (if e.type = "MessageDeclaration" then
            [.debug s!"[PARSE] Scope-level MessageDeclaration '{s.name}' parsed as VariableDeclaration"]
          else []) ++ finished s :: ofElements children
      | _ => found e :: finished s :: ofElements children

def ofElements : List Element → List Event
  | [] => []
  | e :: rest => ofElement e ++ ofElements rest

/-- The child elements of the given types, each with the reports of its content. -/
def containers (types : List String) : List Element → List (Element × List Event)
  | [] => []
  | ⟨type?, oid?, properties, children⟩ :: rest =>
    let e : Element := ⟨type?, oid?, properties, children⟩
    if e.isOneOf types then (e, ofElements children) :: containers types rest
    else containers types rest

end

end Orchestration.Shape.Trace
