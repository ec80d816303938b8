import Orchestration.Failure
import Orchestration.Model.Basic
import Orchestration.Shape.Correlation
import Orchestration.Shape.Growth
import Orchestration.Shape.Trace
import Orchestration.Xml.Document

/-!
# Orchestration.Model.Assembly

From a document to a model, section by section.

* `Reported`  — a result together with what was reported on the way, also when it failed.
* `Section`   — the parts of a model, built in order. A refusal stops the assembly with the failure
  of that section; only the variables may be missing.
* `Document.assemble`, `assembleText` — the model of a document and of a source text.
-/

namespace Orchestration.Model

open Designer (Document Element)
open Shape (Handle Outline Tree)

/-- A result or a failure, after some reports. -/
structure Reported (α : Type) where
  events : List Event
  result : Except Failure α

namespace Reported

def done {α : Type} (x : α) : Reported α := ⟨[], .ok x⟩

def fail {α : Type} (f : Failure) : Reported α := ⟨[], .error f⟩

def say (events : List Event) : Reported Unit := ⟨events, .ok ()⟩

/-- Goes on with the result; the reports are kept in order. -/
def andThen {α β : Type} (x : Reported α) (f : α → Reported β) : Reported β :=
  match x.result with
  | .error e => ⟨x.events, .error e⟩
  | .ok a => ⟨x.events ++ (f a).events, (f a).result⟩

instance : Monad Reported where
  pure := done
  bind := andThen

/-- The result of something that reports nothing. -/
def ofExcept {α : Type} (r : Except Failure α) : Reported α := ⟨[], r⟩

end Reported

/-- The parts of a model, in the order in which they are built. -/
inductive Section where
  | messages
  | declaredVariables
  | portTypes
  | ports
  | declaredCorrelations
  | shapes
  | bindings
  deriving DecidableEq

/-- The name of a section in failures. -/
def Section.title : Section → String
  | .messages => "messages"
  | .declaredVariables => "variables"
  | .portTypes => "port types"
  | .ports => "ports"
  | .declaredCorrelations => "correlations"
  | .shapes => "shapes"
  | .bindings => "correlations"

/-- Why a section cannot be built: a failure that is known already, or any other cause. -/
inductive Refusal where
  | known (failure : Failure)
  | other (cause : String)

def Refusal.cause : Refusal → String
  | .known failure => failure.message
  | .other cause => cause

abbrev Refusals := Section → Option Refusal

def noRefusals : Refusals := fun _ => none

/-- Builds a section of the named orchestration unless it is refused. A known failure is passed on
as it is; any other cause is reported with the name of the section. -/
def Section.build {α : Type} (s : Section) (refusals : Refusals) (name source : String)
    (build : Reported α) : Reported α :=
  match refusals s with
  | none => build
  | some (.known failure) => .fail failure
  | some (.other cause) => .fail ⟨.section name s.title cause, source⟩

/-- The context of shapes declared beside the body. -/
def serviceContext : String := "service"

/-- The sequence number of shapes declared beside the body. -/
def serviceSequence : Int := -1

/-- Adds the declarations of one type that have a name. -/
def declare (d : Document) (type : String) (t : Tree) : List Handle × Tree :=
  (Designer.named (d.declared type)).foldl (fun (hs, t) e =>
    match Shape.Sketch.ofElement? e with
    | none => (hs, t)
    | some s => (hs ++ [t.size], t.sprout s serviceContext serviceSequence none)) ([], t)

/-- Reports of the declarations of one type. -/
def declareEvents (d : Document) (type : String) : List Event :=
  (Designer.named (d.declared type)).flatMap fun e =>
    let name := e.prop "Name"
    [Shape.Trace.found e, .debug s!"[PARSE] Collected service-level {type}: {name}"]

/-- The type of variables declared beside the body. -/
def variableType : String := "VariableDeclaration"

/-- The type of correlation sets declared beside the body. -/
def correlationType : String := "CorrelationDeclaration"

/-- The variables. When they cannot be built there are none, and a warning tells why. -/
def buildVariables (refusals : Refusals) (d : Document) (t : Tree) :
    Reported (List Handle × Tree) :=
  match refusals .declaredVariables with
  | none => ⟨declareEvents d variableType, .ok (declare d variableType t)⟩
  | some r =>
    ⟨[.warning s!"Failed to parse service-level variable declarations: {r.cause}"], .ok ([], t)⟩

/-- The body's shapes and the bindings of all correlation sets. Without a body there are neither,
and a warning tells so. -/
def buildBody (refusals : Refusals) (d : Document) (name source : String)
    (correlations : List Handle) (t : Tree) : Reported (List Handle × Tree) :=
  match d.bodies.head? with
  | none => ⟨[.warning s!"No service body found in orchestration '{name}'"], .ok ([], t)⟩
  | some body => do
    let grown ← Section.shapes.build refusals name source
      ⟨Shape.Trace.ofElements body.children,
        .ok (t.grow ⟨"body", 0⟩ none (Outline.ofElements body.children))⟩
    let bound := grown.tree.correlate (correlations ++ grown.handles)
    Section.bindings.build refusals name source ⟨bound.events, .ok (grown.handles, bound.tree)⟩

def summary (m : Model) : Event :=
  .info (s!"Parsed {m.fullName}: {m.messages.length} messages, {m.ports.length} ports, " ++
    s!"{m.tree.size} shapes")

def assemble (refusals : Refusals) (d : Document) (source : String) : Reported Model :=
  let name := Designer.firstValue d.services "Name"
  if name = "" then .fail ⟨.unnamed, source⟩
  else do
    let messages ← Section.messages.build refusals name source (.done d.messages)
    let (declaredVariables, t) ← buildVariables refusals d .empty
    let portTypes ← Section.portTypes.build refusals name source (.done d.portTypes)
    let ports ← Section.ports.build refusals name source (.done d.ports)
    let (declaredCorrelations, t) ← Section.declaredCorrelations.build refusals name source
      ⟨declareEvents d correlationType, .ok (declare d correlationType t)⟩
    let (shapes, t) ← buildBody refusals d name source declaredCorrelations t
    let m : Model :=
      { namespaceName := Designer.firstValue d.modules "Name"
        name, source, messages, portTypes, ports, declaredVariables, declaredCorrelations, shapes
        tree := t }
    .say [m.summary]
    return m

/-- The root of the document inside a text. -/
def readRoot (text : List Char) (source : String) : Except Failure Xml.Node :=
  match Designer.segment Designer.declarationMarker.toList Designer.sentinelMarker.toList text with
  | .error fault => .error ⟨.segment fault Designer.sentinelMarker, source⟩
  | .ok document =>
    match Xml.parse document with
    | none => .error ⟨.malformed, source⟩
    | some root => .ok root

def assembleText (refusals : Refusals) (text : List Char) (source : String) : Reported Model :=
  match readRoot text source with
  | .error f => .fail f
  | .ok root => assemble refusals (Document.ofXml root) source

/-- The model of a source text, or why there is none. -/
def ofText (text : String) (source : String) : Except Failure Model :=
  (assembleText noRefusals text.toList source).result

end Orchestration.Model
