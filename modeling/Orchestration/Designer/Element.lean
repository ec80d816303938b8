import Orchestration.Xml.Basic

/-!
# Orchestration.Designer.Element

The designer's view of a document: every construct is an `Element` with a type, an identifier,
properties and child elements.

* `Element.ofXml` — the view of an XML element; everything outside the designer namespace is left
  out.
* `Element.prop?`, `Element.prop` — a property's value; the first property of the name that has a
  value counts.
* `Element.select`, `Element.nested?` — child elements by type, in document order.
-/

namespace Orchestration.Designer

def designerSpace : String := "http://schemas.microsoft.com/BizTalk/2003/DesignerData"

def designerName (base : String) : Xml.Name := ⟨designerSpace, base⟩

/-- A property; either part may be missing. -/
structure Property where
  name? : Option String
  value? : Option String
  deriving DecidableEq

/-- A construct of the designer. -/
structure Element where
  type? : Option String
  oid? : Option String
  properties : List Property
  children : List Element

namespace Element

def type (e : Element) : String := e.type?.getD ""

def oid (e : Element) : String := e.oid?.getD ""

/-- The value of the first property of this name that has one. -/
def prop? (e : Element) (name : String) : Option String :=
  e.properties.findSome? fun p => if p.name? = some name then p.value? else none

/-- The value of a property, empty when there is none. -/
def prop (e : Element) (name : String) : String := (e.prop? name).getD ""

/-- The first of the properties whose value is not empty. -/
def firstProp (e : Element) (names : List String) : String :=
  ((names.map e.prop).find? (· ≠ "")).getD ""

/-- Whether the element has one of the types. -/
def isOneOf (e : Element) (types : List String) : Bool := e.type?.any types.contains

/-- The child elements of the given types. -/
def select (e : Element) (types : List String) : List Element :=
  e.children.filter (·.isOneOf types)

/-- The first child element of a type. -/
def nested? (e : Element) (type : String) : Option Element := (e.select [type]).head?

/-- The child element reached by a list of positions. -/
def descend (e : Element) : List Nat → Option Element
  | [] => some e
  | i :: path => e.children[i]?.bind (·.descend path)

end Element

/-- The first value of a property among several elements. -/
def firstValue (es : List Element) (name : String) : String :=
  (es.findSome? (·.prop? name)).getD ""

/-- The properties among the content of an XML element. -/
def propertiesOf (content : List Xml.Node) : List Property :=
  (content.filter fun n => n.name? = some (designerName "Property")).map fun n =>
    ⟨n.attribute? "Name", n.attribute? "Value"⟩

mutual

/-- The designer's view of an XML element. -/
def Element.ofXml : Xml.Node → Element
  | .text _ => ⟨none, none, [], []⟩
  | .element name attributes content =>
    let n := Xml.Node.element name attributes content
    ⟨n.attribute? "Type", n.attribute? "OID", propertiesOf content, childrenOf content⟩

/-- The designer elements among the content of an XML element. -/
def childrenOf : List Xml.Node → List Element
  | [] => []
  | n :: rest =>
    if n.name? = some (designerName "Element") then Element.ofXml n :: childrenOf rest
    else childrenOf rest

end

/-- A document: its root's name and the designer's view of the root. -/
structure Document where
  name : Xml.Name
  root : Element

namespace Document

def ofXml (root : Xml.Node) : Document := ⟨root.name?.getD ⟨"", ""⟩, Element.ofXml root⟩

/-- The modules; only a designer document has any. -/
def modules (d : Document) : List Element :=
  if d.name = designerName "MetaModel" then d.root.select ["Module"] else []

def services (d : Document) : List Element :=
  d.modules.flatMap (·.select ["ServiceDeclaration"])

def bodies (d : Document) : List Element := d.services.flatMap (·.select ["ServiceBody"])

/-- The elements of one type directly inside the services. -/
def declared (d : Document) (type : String) : List Element :=
  d.services.flatMap (·.select [type])

end Document

end Orchestration.Designer
