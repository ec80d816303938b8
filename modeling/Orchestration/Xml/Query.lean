import Orchestration.Xml.Document

/-!
# Orchestration.Xml.Query

Paths that select parts of a document.

* A path goes from an element, or from the root, through child elements of one namespace; a step
  may ask for an attribute's value. It may end at an attribute.
* A query is a path, the number of its matches, or a test of that number.
* `Query.ofText?` reads the written form, `Query.select` answers it, `Query.eval` gives the text of
  the first answer.
-/

namespace Orchestration.Xml

/-- A step to the child elements of a name, restricted to those with an attribute value. -/
structure Step where
  base : String
  condition : Option (String × String)

/-- A path; `last` is the attribute it ends at. -/
structure Path where
  fromRoot : Bool
  steps : List Step
  last : Option String

/-- A question about an element. -/
inductive Query where
  | path (p : Path)
  | count (p : Path)
  | countIs (p : Path) (n : Nat)

/-- One answer. -/
inductive Answer where
  | element (n : Node)
  | value (text : String)
  | number (n : Nat)
  | truth (b : Bool)

/-- Whether a step leads to this node. -/
def Step.admits (space : String) (s : Step) (n : Node) : Bool :=
  n.name? == some ⟨space, s.base⟩ &&
    s.condition.all fun (name, value) => n.attribute? name == some value

/-- The nodes that a step leads to. -/
def Step.follow (space : String) (s : Step) (ns : List Node) : List Node :=
  ns.flatMap fun n => n.content.filter (s.admits space)

/-- The elements that a path leads to, before its attribute. The first step from the root leads to
the root itself. -/
def Path.elements (space : String) (p : Path) (root start : Node) : List Node :=
  if p.fromRoot then
    match p.steps with
    | [] => []
    | s :: steps => steps.foldl (fun ns s => s.follow space ns) ([root].filter (s.admits space))
  else p.steps.foldl (fun ns s => s.follow space ns) [start]

/-- The matches of a path in document order. -/
def Path.matches (space : String) (p : Path) (root start : Node) : List Answer :=
  let ns := p.elements space root start
  match p.last with
  | none => ns.map .element
  | some a => (ns.filterMap (·.attribute? a)).map .value

/-- The answers to a query; a count or a test has exactly one. -/
def Query.select (space : String) (root start : Node) : Query → List Answer
  | .path p => p.matches space root start
  | .count p => [.number (p.matches space root start).length]
  | .countIs p n => [.truth ((p.matches space root start).length == n)]

def Answer.text : Answer → String
  | .element n => n.characters
  | .value text => text
  | .number n => toString n ++ ".0"
  | .truth b => if b then "true" else "false"

/-- The text of the first answer, empty when there is none. -/
def Query.eval (space : String) (root start : Node) (q : Query) : String :=
  ((q.select space root start).head?.map Answer.text).getD ""

/-- Cuts at every `/` outside quotation marks. -/
def splitSteps (quoted : Bool) (current : List Char) : List Char → List (List Char)
  | [] => [current.reverse]
  | c :: rest =>
    if c = '/' ∧ quoted = false then current.reverse :: splitSteps false [] rest
    else splitSteps (if c = '\x27' then !quoted else quoted) (c :: current) rest

/-- Reads `[@Name='value']`; an empty text asks for nothing. -/
def condition? (s : List Char) : Option (Option (String × String)) :=
  if s.isEmpty then some none
  else do
    let rest ← after? "[@" s
    let (name, rest) ← cut "=" rest
    let (value, rest) ← readQuoted rest
    if rest = [']'] then some (some (String.ofList name, String.ofList value)) else none

/-- Reads one step; `scope` is the written name of the namespace. -/
def step? (scope : String) (s : List Char) : Option Step := do
  let rest ← after? (scope ++ ":") s
  let condition ← condition? (rest.dropWhile isNamePart)
  some ⟨String.ofList (rest.takeWhile isNamePart), condition⟩

/-- Reads the steps of a path and the attribute it may end at. -/
def steps? (scope : String) : List (List Char) → Option (List Step × Option String)
  | [] => some ([], none)
  | ['@' :: name] => some ([], some (String.ofList name))
  | s :: rest => do
    let step ← step? scope s
    let (steps, last) ← steps? scope rest
    some (step :: steps, last)

def Path.ofText? (scope : String) (s : List Char) : Option Path :=
  let (fromRoot, s) := match s with
    | '/' :: rest => (true, rest)
    | s => (false, s)
  (steps? scope (splitSteps false [] s)).map fun (steps, last) => ⟨fromRoot, steps, last⟩

def Query.ofText? (scope text : String) : Option Query :=
  match after? "count(" text.toList with
  | none => (Path.ofText? scope text.toList).map .path
  | some rest => do
    let (inner, rest) ← cut ")" rest
    let p ← Path.ofText? scope inner
    match after? " = " rest with
    | some digits => (number? 10 digits).map (.countIs p)
    | none => if rest.isEmpty then some (.count p) else none

end Orchestration.Xml
