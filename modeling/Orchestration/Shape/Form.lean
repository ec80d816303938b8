import Orchestration.Designer.Element
import Orchestration.Shape.Tree
import Orchestration.Text.Blank
import Orchestration.Text.Layout
import Orchestration.Text.Lower
import Orchestration.Text.Search

/-!
# Orchestration.Shape.Form

What an element says about its own shape, the regions and children apart.

* `Form`      — how an element is read; its type alone decides.
* `Sketch`    — kind, tag, identifier, name and payload of the shape.
* `Decision`  — which branch of a decision is taken for which outcome.
* `caseKey?`  — what a container of a switch stands for.
-/

namespace Orchestration.Shape

open Designer (Element)

/-- How an element is read. -/
inductive Form where
  | metadata
  | receive
  | send
  | construct
  | transform
  | messageAssignment
  /-- An expression of the given kind. -/
  | expression (kind : Kind)
  | loop
  | invoke (kind : Kind)
  | correlation
  | decide
  | switch
  | listen
  /-- A shape without content of its own, and the name it has when none is given. -/
  | plain (kind : Kind) (usual : String)
  | throw
  | suspend
  | terminate
  | delay
  | compensate
  | exception
  | variable
  | callRules
  | fallback
  deriving DecidableEq

namespace Form

/-- Elements that belong to their owner and never become shapes. -/
def metadataTypes : List String :=
  ["TransactionAttribute", "MessageRef", "MessagePartRef", "StatementRef", "IteratorVariable",
    "LogicalBindingAttribute", "PhysicalBindingAttribute", "DirectBindingAttribute",
    "WebPortBindingAttribute"]

def table : List (String × Form) :=
  [("receive", .receive), ("send", .send), ("construct", .construct), ("transform", .transform),
    ("messageassignment", .messageAssignment),
    ("variableassignment", .expression .variableAssignment), ("while", .expression .while),
    ("until", .expression .until), ("expression", .expression .expression), ("loop", .loop),
    ("foreach", .loop), ("call", .invoke .call), ("exec", .invoke .start),
    ("start", .invoke .start), ("startorchestration", .invoke .start),
    ("correlationdeclaration", .correlation), ("decision", .decide), ("decide", .decide),
    ("if", .decide), ("ifelse", .decide), ("switch", .switch), ("listen", .listen),
    ("scope", .plain .scope ""), ("throw", .throw), ("suspend", .suspend),
    ("terminate", .terminate), ("delay", .delay), ("compensate", .compensate),
    ("group", .plain .group ""), ("parallel", .plain .parallel ""),
    ("parallelbranch", .plain .parallelBranch "ParallelBranch"), ("task", .plain .task "Task"),
    ("catch", .exception), ("catchexception", .exception),
    ("compensation", .plain .compensation ""),
    ("atomictransaction", .plain .atomicTransaction ""),
    ("longrunningtransaction", .plain .longRunningTransaction ""),
    ("variabledeclaration", .variable), ("messagedeclaration", .variable)]

/-- The form of a type. Rule calls go first, then the types of metadata, spelled exactly; the
other types are known in any letter case. -/
def ofType (type : String) : Form :=
  let folded := Text.lower type
  if folded = "callrules" ∨ folded = "callpolicy" then .callRules
  else if type ∈ metadataTypes then .metadata
  else (table.lookup folded).getD .fallback

/-- The kind of the shapes of a form; metadata has none. -/
def kind? : Form → Option Kind
  | .metadata => none
  | .receive => some .receive
  | .send => some .send
  | .construct => some .construct
  | .transform => some .transform
  | .messageAssignment => some .messageAssignment
  | .expression kind => some kind
  | .loop => some .loop
  | .invoke kind => some kind
  | .correlation => some .correlationDeclaration
  | .decide => some .decide
  | .switch => some .switch
  | .listen => some .listen
  | .plain kind _ => some kind
  | .throw => some .terminate
  | .suspend => some .terminate
  | .terminate => some .terminate
  | .delay => some .delay
  | .compensate => some .compensate
  | .exception => some .catch
  | .variable => some .variableDeclaration
  | .callRules => some .callRules
  | .fallback => some .fallback

end Form

/-- What an element says about its shape. -/
structure Sketch where
  kind : Kind
  tag : String
  oid : String
  name : String
  payload : Payload
  deriving DecidableEq

/-- The expression of an element: its own, or when that is blank the one of its first nested
expression. -/
def expressionOf (e : Element) : String :=
  let own := e.prop "Expression"
  if Text.blank own then ((e.nested? "Expression").map (·.prop "Expression")).getD "" else own

/-- The expression nested directly in an element, whatever the element's own. -/
def nestedExpression (e : Element) : String :=
  ((e.nested? "Expression").map (·.prop "Expression")).getD ""

/-- The letters and digits of a policy's name, forty of them at most. -/
def policySegment (policy : String) : String :=
  Text.first 40 (String.ofList (policy.toList.filter Char.isAlphanum))

/-- The name of a rule call without a name of its own. -/
def rulesName (policy : String) : String :=
  if Text.blank policy then "Execute_Rules_Engine"
  else "Execute_Rules_Engine_" ++ policySegment policy

/-- The messages that the child elements of a type refer to. -/
def references (e : Element) (type name : String) : List String :=
  ((e.select [type]).map (·.prop name)).filter (· ≠ "")

/-- The statements that a correlation set is used by. -/
def statementRefs (e : Element) : List StatementRef :=
  (e.select ["StatementRef"]).map fun r => ⟨r.prop "Ref", r.prop "Initializes" == "True"⟩

/-- The exchange of a receive or send. -/
def exchangeOf (e : Element) : Exchange :=
  ⟨e.prop "PortName", e.prop "MessageName", e.prop "OperationName",
    e.prop "OperationMessageName"⟩

/-- A map's payload. Of exactly two messages the second is the output; otherwise all are inputs. -/
def transformPayload (e : Element) : Payload :=
  match references e "MessagePartRef" "MessageRef" with
  | [input, output] => .transform (e.prop "ClassName") [input] [output]
  | messages => .transform (e.prop "ClassName") messages []

/-- The loop variable: the name of an iterator, or `item`. -/
def itemVariable (e : Element) : String :=
  Text.orElse (Designer.firstValue (e.select ["IteratorVariable"]) "Name") "item"

/-- Which branch of a decision is taken for which outcome. -/
structure Decision where
  /-- The condition, as far as branches and siblings tell it. -/
  condition : String
  /-- The first branch that carries a condition. -/
  conditioned : Option Nat
  branches : Nat
  deriving DecidableEq

/-- Reads a decision. The first branch with a condition supplies it; without one the expression
beside the branches does. -/
def Decision.ofElement (e : Element) : Decision :=
  let conditions := (e.select ["DecisionBranch"]).map expressionOf
  let conditioned := conditions.findIdx? fun c => !Text.blank c
  ⟨(conditioned.bind fun i => conditions[i]?).getD (nestedExpression e), conditioned,
    conditions.length⟩

/-- The branch taken when the condition holds: the one that carries it, else the first. -/
def Decision.whenTrue (d : Decision) : Nat := d.conditioned.getD 0

/-- The branch taken otherwise: the first of the others. -/
def Decision.whenFalse (d : Decision) : Nat := if d.whenTrue = 0 then 1 else 0

/-- The key of a switch container; a container without an expression, or named as the default,
has none. -/
def caseKey? (e : Element) : Option String :=
  let value := expressionOf e
  let name := Text.lower (e.prop "Name")
  if Text.blank value || Text.holds "default" name || Text.holds "else" name then none
  else some value

/-- The payload of a form before its regions are known. -/
def Form.payload (f : Form) (e : Element) : Payload :=
  match f with
  | .metadata => .nothing
  | .receive => .receive (exchangeOf e) (e.prop "Activate" == "True") [] []
  | .send => .send (exchangeOf e)
  | .construct => .construct (references e "MessageRef" "Ref") []
  | .transform => transformPayload e
  | .messageAssignment => .expression (e.prop "Expression")
  | .expression _ => .expression (e.prop "Expression")
  | .loop => .loop e.type (nestedExpression e) (itemVariable e)
  | .invoke _ => .invoke (e.prop "Invokee")
  | .correlation => .correlation (e.prop "Type") (statementRefs e)
  | .decide => .decide (Decision.ofElement e).condition [] []
  | .switch => .switch (expressionOf e) [] []
  | .listen => .listen []
  | .plain _ _ => .nothing
  | .throw => .terminate (e.firstProp ["Exception", "ExceptionType"])
  | .suspend => .terminate (Text.orElse (e.prop "ErrorMessage") "Suspended")
  | .terminate => .terminate (e.prop "ErrorMessage")
  | .delay => .delay (e.prop "Expression")
  | .compensate => .compensate (e.prop "Target")
  | .exception =>
    .exception (Text.orElse (e.firstProp ["ExceptionType", "Exception"]) "System.Exception")
      (Text.orElse (e.firstProp ["ExceptionName", "ExceptionVariable"]) "ex")
  | .variable => .variable (e.prop "Type") (e.prop "UseDefaultConstructor")
  | .callRules => .callRules (e.firstProp ["Policy", "PolicyName", "Ruleset"])
  | .fallback => .fallback ("Unhandled shape type: " ++ e.type)

/-- The tag of a form: the element's own type where several types share a form, else a fixed one. -/
def Form.tag (f : Form) (kind : Kind) (e : Element) : String :=
  match f with
  | .loop | .exception | .fallback => Text.orElse e.type kind.label
  | .throw => "Throw"
  | .suspend => "Suspend"
  | .terminate => "Terminate"
  | _ => kind.label

/-- The name an element has when it gives none. -/
def Form.usualName (f : Form) (e : Element) : String :=
  match f with
  | .plain _ usual => usual
  | .listen => "Listen"
  | .callRules => rulesName (e.firstProp ["Policy", "PolicyName", "Ruleset"])
  | .fallback => "Unknown_" ++ e.type
  | _ => ""

/-- The sketch of an element read in a form; metadata has none. -/
def Form.sketch? (f : Form) (e : Element) : Option Sketch :=
  f.kind?.map fun kind =>
    ⟨kind, f.tag kind e, e.oid, Text.orElse (e.prop "Name") (f.usualName e), f.payload e⟩

def Sketch.ofElement? (e : Element) : Option Sketch := (Form.ofType e.type).sketch? e

end Orchestration.Shape
