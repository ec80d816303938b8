import Orchestration.Shape.Form

/-!
# Orchestration.Shape.Outline

The shapes that elements describe, before any of them has a place in a tree.

* `Outline` — a sketch, its regions and its children.
* `Outline.ofElement?` — the outline of an element, by recursion on the element; metadata has none.
-/

namespace Orchestration.Shape

open Designer (Element)

/-- A shape with everything below it. No outline has both regions and children. -/
structure Outline where
  sketch : Sketch
  regions : List (Slot × List Outline)
  children : List Outline

/-- The containers of a decision and of a switch. -/
def decisionTypes : List String := ["DecisionBranch"]

def listenTypes : List String := ["Task", "ListenBranch"]

namespace Outline

def expression? (o : Outline) : Option String :=
  if o.sketch.kind = .expression then
    match o.sketch.payload with
    | .expression text => some text
    | _ => none
  else none

/-- The shape that gives a decision its condition when nothing else does: the first expression
directly in the true branch. -/
def promoted? (condition : String) (whenTrue : List Outline) : Option Outline :=
  if Text.blank condition then whenTrue.find? fun o => o.sketch.kind == .expression else none

/-- A decision from the outlines of its branches, in order. Branches beyond the two that are taken
are left out. -/
def decide (s : Sketch) (d : Decision) (branches : List (List Outline)) : Outline :=
  let whenTrue := branches[d.whenTrue]?
  let promoted := promoted? d.condition (whenTrue.getD [])
  let condition := (promoted.bind expression?).getD d.condition
  ⟨{ s with payload := .decide condition [] [] },
    whenTrue.toList.map ((Slot.whenTrue, ·)) ++
      (branches[d.whenFalse]?).toList.map ((Slot.whenFalse, ·)), []⟩

def caseSlot (number : Nat) (container : Element) : Slot :=
  match caseKey? container with
  | none => .otherwise
  | some key => .case number key

/-- The regions of a switch, containers numbered from `number`. -/
def cases (number : Nat) : List (Element × List Outline) → List (Slot × List Outline)
  | [] => []
  | (container, shapes) :: rest => (caseSlot number container, shapes) :: cases (number + 1) rest

/-- The regions of a listen, branches numbered from `number`. -/
def branches (number : Nat) : List (Element × List Outline) → List (Slot × List Outline)
  | [] => []
  | (_, shapes) :: rest => (.branch number, shapes) :: branches (number + 1) rest

/-- The shapes inside a construct: its maps, then its assignments. -/
def inner (e : Element) : List Outline :=
  let leaves := fun (type : String) (f : Form) =>
    (e.select [type]).filterMap fun c => (f.sketch? c).map fun s => (⟨s, [], []⟩ : Outline)
  leaves "Transform" .transform ++ leaves "MessageAssignment" .messageAssignment

mutual

def ofElement? : Element → Option Outline
  | ⟨type?, oid?, properties, children⟩ =>
    let e : Element := ⟨type?, oid?, properties, children⟩
    let form := Form.ofType e.type
    match form.sketch? e with
    | none => none
    | some s =>
      match form with
      | .decide =>
        some (decide s (Decision.ofElement e) ((containers decisionTypes children).map Prod.snd))
      | .switch => some ⟨s, cases 1 (containers decisionTypes children), []⟩
      | .listen => some ⟨s, branches 1 (containers listenTypes children), []⟩
      | .construct => some ⟨s, [(.inner, inner e)], []⟩
      | .messageAssignment => some ⟨s, [], []⟩
      | _ => some ⟨s, [], ofElements children⟩

/-- The outlines of elements in order, metadata left out. -/
def ofElements : List Element → List Outline
  | [] => []
  | e :: rest => (ofElement? e).toList ++ ofElements rest

/-- The child elements of the given types, each with the outlines of its content. -/
def containers (types : List String) : List Element → List (Element × List Outline)
  | [] => []
  | ⟨type?, oid?, properties, children⟩ :: rest =>
    let e : Element := ⟨type?, oid?, properties, children⟩
    if e.isOneOf types then (e, ofElements children) :: containers types rest
    else containers types rest

end

end Outline

end Orchestration.Shape
