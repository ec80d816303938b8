import Orchestration.Declarations
import Orchestration.Shape.Tree

/-!
# Orchestration.Model.Basic

The model of one orchestration: its declarations and the tree of its shapes.

* `Model.allShapes` — the shapes declared beside the body, then those of the body, each followed by
  everything below it.
* `Model.findPort?` — ports by name, in any letter case.
-/

namespace Orchestration

/-- An orchestration. The three lists of handles are the roots of the tree. -/
structure Model where
  namespaceName : String
  name : String
  source : String
  messages : List Message
  portTypes : List PortType
  ports : List Port
  declaredVariables : List Shape.Handle
  declaredCorrelations : List Shape.Handle
  shapes : List Shape.Handle
  tree : Shape.Tree

namespace Model

def fullName (m : Model) : String :=
  if m.namespaceName = "" then m.name else m.namespaceName ++ "." ++ m.name

def declared (m : Model) : List Shape.Handle := m.declaredVariables ++ m.declaredCorrelations

def roots (m : Model) : List Shape.Handle := m.declared ++ m.shapes

/-- Every shape of the model, in order. -/
def allHandles (m : Model) : List Shape.Handle := m.tree.walk m.roots

/-- Every node of the model, in order. -/
def allShapes (m : Model) : List Shape.Node := m.tree.resolve m.allHandles

/-- The type of a message, or the name itself when there is no such message. -/
def messageType (m : Model) (name : String) : String :=
  ((m.messages.find? fun x => x.name = name).map Message.type).getD name

/-- The first port of a name, in any letter case. -/
def findPort? (m : Model) (name : String) : Option Port :=
  m.ports.find? fun p => Text.lower p.name = Text.lower name

end Model

end Orchestration
