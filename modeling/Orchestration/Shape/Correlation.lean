import Orchestration.Event
import Orchestration.Shape.Tree

/-!
# Orchestration.Shape.Correlation

Correlation sets are bound to the receives that use them.

* A declaration names the statements that use it. A statement that is a receive of the tree
  initializes the set or follows it.
* `Tree.bind` binds the declarations among some shapes, `Tree.correlate` those below some roots; a
  set enters a list once.
-/

namespace Orchestration.Shape

/-- A use of a correlation set. -/
structure Binding where
  name : String
  ref : StatementRef
  deriving DecidableEq

def Node.bindings (n : Node) : List Binding :=
  if n.kind = .correlationDeclaration then
    match n.payload with
    | .correlation _ refs => refs.map (⟨n.name, ·⟩)
    | _ => []
  else []

/-- Whether a receive lists the set already. -/
def Payload.uses (b : Binding) : Payload → Bool
  | .receive _ _ initializes follows =>
    (if b.ref.initializes then initializes else follows).contains b.name
  | _ => false

/-- Enters a set into the list of a receive that tells how it is used. -/
def Payload.bind (b : Binding) : Payload → Payload
  | .receive x activate initializes follows =>
    if b.ref.initializes then .receive x activate (initializes ++ [b.name]) follows
    else .receive x activate initializes (follows ++ [b.name])
  | p => p

/-- How far the binding has come. -/
structure Correlated where
  tree : Tree
  added : Nat
  events : List Event

namespace Tree

/-- The uses that shapes declare, in order. A reference without an identifier is none. -/
def bindings (t : Tree) (hs : List Handle) : List Binding :=
  ((t.resolve hs).flatMap Node.bindings).filter fun b => b.ref.statement ≠ ""

/-- The receive that a use refers to. -/
def receiver? (t : Tree) (b : Binding) : Option (Handle × Node) :=
  (t.lookup b.ref.statement).bind fun h =>
    ((t.node? h).filter fun n => n.kind == .receive).map (h, ·)

end Tree

/-- The report of a use that refers to no receive. -/
def Binding.ignored (b : Binding) : Event :=
  .debug s!"[CORRELATION] Ignoring reference {b.ref.statement} from '{b.name}'"

/-- The report of a use that is new to its receive. -/
def Binding.entered (b : Binding) (receive : Node) : Event :=
  let role := if b.ref.initializes then "initializes" else "follows"
  .debug s!"[CORRELATION] Receive '{receive.name}' {role} '{b.name}'"

def Correlated.step (c : Correlated) (b : Binding) : Correlated :=
  match c.tree.receiver? b with
  | none => { c with events := c.events ++ [b.ignored] }
  | some (h, n) =>
    if n.payload.uses b then c
    else
      ⟨c.tree.update h fun n => { n with payload := n.payload.bind b }, c.added + 1,
        c.events ++ [b.entered n]⟩

/-- Binds every correlation set that one of the shapes declares. -/
def Tree.bind (t : Tree) (hs : List Handle) : Correlated :=
  (t.bindings hs).foldl Correlated.step ⟨t, 0, []⟩

/-- Binds every correlation set declared below the roots. -/
def Tree.correlate (t : Tree) (roots : List Handle) : Correlated := t.bind (t.walk roots)

end Orchestration.Shape
