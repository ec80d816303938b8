/-!
# Orchestration.Xml.Basic

XML trees after namespaces and references have been resolved.
-/

namespace Orchestration.Xml

/-- An expanded name; `space` is empty for a name in no namespace. -/
structure Name where
  space : String
  base : String
  deriving DecidableEq

/-- The name with its namespace in braces, if it has one. -/
def Name.display (n : Name) : String :=
  if n.space = "" then n.base else "\x7b" ++ n.space ++ "\x7d" ++ n.base

/-- An attribute and its normalized value. -/
structure Attribute where
  name : Name
  value : String
  deriving DecidableEq

/-- Character data or an element. Comments and processing instructions leave nothing behind. -/
inductive Node where
  | text (content : String)
  | element (name : Name) (attributes : List Attribute) (content : List Node)

namespace Node

/-- The element's name; character data has none. -/
def name? : Node → Option Name
  | text _ => none
  | element n _ _ => some n

/-- The value of the attribute `base` in no namespace. -/
def attribute? (base : String) : Node → Option String
  | text _ => none
  | element _ attributes _ =>
    (attributes.find? fun a => a.name = ⟨"", base⟩).map Attribute.value

def content : Node → List Node
  | text _ => []
  | element _ _ content => content

mutual

/-- All character data of the node, concatenated. -/
def characters : Node → String
  | .text s => s
  | .element _ _ content => charactersOf content

/-- All character data of the nodes, concatenated. -/
def charactersOf : List Node → String
  | [] => ""
  | n :: rest => characters n ++ charactersOf rest

end

end Node

end Orchestration.Xml
