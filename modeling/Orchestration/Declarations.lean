import Orchestration.Designer.Element
import Orchestration.Text.Lower

/-!
# Orchestration.Declarations

What a service declares beside its body: messages, port types and ports.
-/

namespace Orchestration

open Designer (Element)

/-- A message variable. -/
structure Message where
  name : String
  type : String
  direction : String
  deriving DecidableEq

/-- An operation of a port type; the message types are names. -/
structure Operation where
  name : String
  operationType : String
  request : String
  response : String
  fault : String
  deriving DecidableEq

/-- A port type. -/
structure PortType where
  name : String
  modifier : String
  operations : List Operation
  deriving DecidableEq

/-- The direction in which messages pass a port. -/
inductive Direction where
  | none
  | receive
  | send
  /-- A request comes in and is answered. -/
  | receiveSend
  /-- A request goes out and is answered. -/
  | sendReceive
  deriving DecidableEq

def Direction.label : Direction → String
  | .none => "None"
  | .receive => "Receive"
  | .send => "Send"
  | .receiveSend => "ReceiveSend"
  | .sendReceive => "SendReceive"

/-- The direction told by a port's modifier and its signal flag. -/
def Direction.of (modifier signal : String) : Direction :=
  if modifier = "Implements" then if signal = "True" then .receive else .receiveSend
  else if modifier = "Uses" then if signal = "True" then .sendReceive else .send
  else .none

/-- Whether every message that passes is answered. -/
def Direction.isTwoWay : Direction → Bool
  | .receiveSend | .sendReceive => true
  | _ => false

/-- How a port is bound to a transport. -/
inductive BindingKind where
  | logical
  | physical
  | direct
  | web
  | unknown
  deriving DecidableEq

def BindingKind.label : BindingKind → String
  | .logical => "Logical"
  | .physical => "Physical"
  | .direct => "Direct"
  | .web => "Web"
  | .unknown => "Unknown"

/-- A port. A source file tells the transport's name and nothing else about it. -/
structure Port where
  name : String
  typeRef : String
  direction : Direction
  binding : BindingKind
  transport : String
  deriving DecidableEq

def Designer.named (es : List Element) : List Element := es.filter fun e => e.prop "Name" ≠ ""

def Designer.Document.messages (d : Designer.Document) : List Message :=
  (Designer.named (d.declared "MessageDeclaration")).map fun e =>
    ⟨e.prop "Name", e.prop "Type", e.prop "ParamDirection"⟩

/-- The message type that an operation refers to in a role. -/
def Operation.typeIn (operation : Element) (role : String) : String :=
  Designer.firstValue
    ((operation.select ["MessageRef"]).filter fun r =>
      r.properties.contains ⟨some "Name", some role⟩) "Ref"

/-- An operation as its element declares it. -/
def Operation.ofElement (e : Element) : Operation :=
  ⟨e.prop "Name", e.prop "OperationType", typeIn e "Request", typeIn e "Response", typeIn e "Fault"⟩

def Designer.Document.portTypes (d : Designer.Document) : List PortType :=
  (Designer.named (d.modules.flatMap (·.select ["PortType"]))).map fun e =>
    ⟨e.prop "Name", e.prop "TypeModifier",
      (Designer.named (e.select ["OperationDeclaration"])).map Operation.ofElement⟩

/-- The binding attributes in order of precedence. -/
def BindingKind.attributes : List (String × BindingKind) :=
  [("LogicalBindingAttribute", .logical), ("PhysicalBindingAttribute", .physical),
    ("DirectBindingAttribute", .direct), ("WebPortBindingAttribute", .web)]

/-- The transport of a port: what its physical binding tells, else its web binding. -/
def Port.transportOf (port : Element) : String :=
  let physical := ((port.nested? "PhysicalBindingAttribute").map fun b =>
    b.firstProp ["TransportType", "Adapter", "AdapterName"]).getD ""
  let web := ((port.nested? "WebPortBindingAttribute").map (·.prop "TransportType")).getD ""
  if physical = "" then web else physical

/-- A port as its element declares it. -/
def Port.ofElement (e : Element) : Port :=
  { name := e.prop "Name"
    typeRef := e.prop "Type"
    direction := .of (e.prop "PortModifier") (e.prop "Signal")
    binding :=
      ((BindingKind.attributes.find? fun (type, _) => (e.nested? type).isSome).map Prod.snd).getD .unknown
    transport := transportOf e }

def Designer.Document.ports (d : Designer.Document) : List Port :=
  (Designer.named (d.declared "PortDeclaration")).map Port.ofElement

end Orchestration
