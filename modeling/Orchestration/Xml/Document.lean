import Orchestration.Xml.Basic
import Orchestration.Xml.Markup
import Orchestration.Xml.Uri

/-!
# Orchestration.Xml.Document

From markup items to a tree.

* `Bindings` — the namespaces in scope.
* `assemble` — joins the items into one root element; what stands around it may only be white
  space, comments and instructions.
* `parse`    — a whole document.
-/

namespace Orchestration.Xml

def xmlSpace : String := "http://www.w3.org/XML/1998/namespace"

/-- The namespace of declarations; nothing may be bound to it. -/
def declarationSpace : String := "http://www.w3.org/2000/xmlns/"

/-- The scopes in force with their namespaces, innermost first. The empty scope is the default. -/
abbrev Bindings := List (String × String)

def Bindings.space? (b : Bindings) (scope : String) : Option String :=
  if scope = "xml" then some xmlSpace
  else
    match b.lookup scope with
    | some space => some space
    | none => if scope = "" then some "" else none

def Tag.declared? (t : Tag) : Option String :=
  if t.scope = "xmlns" then some t.base
  else if t.scope = "" ∧ t.base = "xmlns" then some ""
  else none

/-- Whether a scope may be bound to a namespace. Only the default may be unbound, and every other
namespace has the form of a URI reference. -/
def mayBind (scope space : String) : Bool :=
  if scope = "xml" then space == xmlSpace
  else if space = "" then scope == ""
  else
    scope != "xmlns" && space != xmlSpace && space != declarationSpace &&
      Uri.isReference space.toList

def Bindings.extend (b : Bindings) (settings : List Setting) : Option Bindings :=
  settings.foldlM (fun b s =>
    match s.tag.declared? with
    | none => some b
    | some scope => if mayBind scope s.value then some ((scope, s.value) :: b) else none) b

/-- The attributes of a start tag that declare no scope. A scope must be bound; the default does
not apply to attributes. -/
def Bindings.attributes (b : Bindings) (settings : List Setting) : Option (List Attribute) :=
  (settings.filter fun s => s.tag.declared?.isNone).mapM fun s =>
    if s.tag.scope = "" then some ⟨⟨"", s.tag.base⟩, s.value⟩
    else (b.space? s.tag.scope).map fun space => ⟨⟨space, s.tag.base⟩, s.value⟩

def allDistinct {α : Type} [BEq α] : List α → Bool
  | [] => true
  | x :: rest => !rest.contains x && allDistinct rest

/-- An element of which the end tag has not been read; `content` is reversed. -/
structure Frame where
  tag : Tag
  name : Name
  attributes : List Attribute
  bindings : Bindings
  content : List Node

/-- The element of a frame whose content is complete. -/
def Frame.node (f : Frame) : Node := .element f.name f.attributes f.content.reverse

/-- The frame of a start tag. No attribute may occur twice, as written or by expanded name. -/
def Frame.begin? (outer : Bindings) (tag : Tag) (settings : List Setting) : Option Frame := do
  let bindings ← outer.extend settings
  let attributes ← bindings.attributes settings
  let space ← bindings.space? tag.scope
  if tag.scope = "xmlns" then none
  else if allDistinct (settings.map Setting.tag) && allDistinct (attributes.map Attribute.name) then
    some ⟨tag, ⟨space, tag.base⟩, attributes, bindings, []⟩
  else none

/-- What has been read of a document: the open elements, innermost first, and the root once it is
closed. -/
structure Progress where
  frames : List Frame
  root : Option Node

/-- The bindings of the innermost open element. -/
def Progress.bindings (p : Progress) : Bindings := (p.frames.head?.map Frame.bindings).getD []

/-- Adds a complete node to the innermost open element; outside every element it becomes the
root, of which there is one. -/
def Progress.add (p : Progress) (n : Node) : Option Progress :=
  match p.frames with
  | f :: outer => some { p with frames := { f with content := n :: f.content } :: outer }
  | [] => if p.root.isSome then none else some { p with root := some n }

def Progress.step (p : Progress) : Markup → Option Progress
  | .aside => some p
  | .raw text =>
    if p.frames.isEmpty then if text.all isSpace then some p else none
    else (expandText text).bind fun t => p.add (.text (String.ofList t))
  | .literal text => if p.frames.isEmpty then none else p.add (.text (String.ofList text))
  | .opens tag settings => do
    let f ← Frame.begin? p.bindings tag settings
    if p.frames.isEmpty && p.root.isSome then none
    else some { p with frames := f :: p.frames }
  | .whole tag settings => do
    let f ← Frame.begin? p.bindings tag settings
    p.add f.node
  | .closes tag =>
    match p.frames with
    | f :: outer => if f.tag = tag then { p with frames := outer }.add f.node else none
    | [] => none

def assemble (items : List Markup) : Option Node := do
  let p ← items.foldlM Progress.step ⟨[], none⟩
  if p.frames.isEmpty then p.root else none

/-- The tree of a document, or `none` when the document is not well-formed. -/
def parse (document : List Char) : Option Node := (Markup.read document).bind assemble

end Orchestration.Xml
