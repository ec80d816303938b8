/-!
# Orchestration.Shape.Payload

What a shape carries beyond its header.

* `Payload`      — one constructor for each kind of content.
* `Slot`         — the regions that a shape's content is divided into.
* `Payload.slots` — the handles in those regions, labelled, in order.
* `Payload.put`  — adds a region's handles.
-/

namespace Orchestration.Shape

/-- The position of a node in its tree. -/
abbrev Handle := Nat

/-- A statement that a correlation set is used by; `initializes` tells how. -/
structure StatementRef where
  statement : String
  initializes : Bool
  deriving DecidableEq

/-- A message exchanged through an operation of a port. -/
structure Exchange where
  port : String
  message : String
  operation : String
  operationMessage : String
  deriving DecidableEq

/-- The content of a shape. The lists of handles are the regions that the shape owns. -/
inductive Payload where
  | nothing
  | receive (exchange : Exchange) (activate : Bool) (initializes follows : List String)
  | send (exchange : Exchange)
  | construct (messages : List String) (inner : List Handle)
  | transform (className : String) (inputs outputs : List String)
  | expression (text : String)
  | loop (loopType collection item : String)
  | invoke (target : String)
  | correlation (typeRef : String) (refs : List StatementRef)
  | decide (condition : String) (whenTrue whenFalse : List Handle)
  | switch (subject : String) (cases : List (String × List Handle)) (otherwise : List Handle)
  | listen (branches : List (List Handle))
  | terminate (message : String)
  | delay (duration : String)
  | compensate (target : String)
  | exception (exceptionType variableName : String)
  | variable (varType useDefault : String)
  | callRules (policy : String)
  | fallback (details : String)
  deriving DecidableEq

/-- A region of a shape; cases and branches are numbered from one among all containers. -/
inductive Slot where
  | whenTrue
  | whenFalse
  | case (number : Nat) (key : String)
  | otherwise
  | branch (number : Nat)
  | inner
  deriving DecidableEq

/-- The name of a region in the paths of contexts. -/
def Slot.label : Slot → String
  | .whenTrue => "true"
  | .whenFalse => "false"
  | .case number _ => s!"case[{number}]"
  | .otherwise => "default"
  | .branch number => s!"branch[{number}]"
  | .inner => "construct"

namespace Payload

/-- Lists with their labels, numbered from `number`. -/
def numberBranches (number : Nat) : List (List Handle) → List (String × List Handle)
  | [] => []
  | b :: rest => (s!"branch[{number}]", b) :: numberBranches (number + 1) rest

def slots : Payload → List (String × List Handle)
  | .decide _ whenTrue whenFalse => [("true", whenTrue), ("false", whenFalse)]
  | .switch _ cases otherwise =>
    cases.map (fun (key, shapes) => ("case:" ++ key, shapes)) ++ [("default", otherwise)]
  | .listen branches => numberBranches 1 branches
  | .construct _ inner => [("inner", inner)]
  | _ => []

/-- All handles in the regions, in order. -/
def handles (p : Payload) : List Handle := p.slots.flatMap Prod.snd

/-- Adds handles under a key, at the end when the key is new. -/
def putCase (key : String) (hs : List Handle) :
    List (String × List Handle) → List (String × List Handle)
  | [] => [(key, hs)]
  | (k, old) :: rest =>
    if k = key then (k, old ++ hs) :: rest else (k, old) :: putCase key hs rest

/-- Adds a region's handles. Cases with one key share their slot; a region that the shape does
not have changes nothing. -/
def put (slot : Slot) (hs : List Handle) : Payload → Payload
  | .decide condition t f =>
    match slot with
    | .whenTrue => .decide condition (t ++ hs) f
    | .whenFalse => .decide condition t (f ++ hs)
    | _ => .decide condition t f
  | .switch subject cases d =>
    match slot with
    | .case _ key => .switch subject (putCase key hs cases) d
    | .otherwise => .switch subject cases (d ++ hs)
    | _ => .switch subject cases d
  | .listen branches =>
    match slot with
    | .branch _ => .listen (branches ++ [hs])
    | _ => .listen branches
  | .construct messages inner =>
    match slot with
    | .inner => .construct messages (inner ++ hs)
    | _ => .construct messages inner
  | p => p

end Payload

end Orchestration.Shape
