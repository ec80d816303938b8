/-!
# Orchestration.Shape.Kind

The closed set of control-flow kinds.

* `Kind.label` — the name of a kind.
* `Kind.ofLabel?` — reads a name back.
-/

namespace Orchestration.Shape

/-- What a shape does. -/
inductive Kind where
  | receive
  | send
  | construct
  | transform
  | messageAssignment
  | variableAssignment
  | while
  | until
  | loop
  | call
  | start
  | correlationDeclaration
  | decide
  | switch
  | listen
  | scope
  | terminate
  | expression
  | delay
  | compensate
  | group
  | parallel
  | parallelBranch
  | task
  | catch
  | compensation
  | atomicTransaction
  | longRunningTransaction
  | variableDeclaration
  | callRules
  | fallback
  deriving DecidableEq, Repr

namespace Kind

def all : List Kind :=
  [.receive, .send, .construct, .transform, .messageAssignment, .variableAssignment, .while,
    .until, .loop, .call, .start, .correlationDeclaration, .decide, .switch, .listen, .scope,
    .terminate, .expression, .delay, .compensate, .group, .parallel, .parallelBranch, .task,
    .catch, .compensation, .atomicTransaction, .longRunningTransaction, .variableDeclaration,
    .callRules, .fallback]

def label : Kind → String
  | .receive => "Receive"
  | .send => "Send"
  | .construct => "Construct"
  | .transform => "Transform"
  | .messageAssignment => "MessageAssignment"
  | .variableAssignment => "VariableAssignment"
  | .while => "While"
  | .until => "Until"
  | .loop => "Loop"
  | .call => "Call"
  | .start => "StartOrchestration"
  | .correlationDeclaration => "CorrelationDeclaration"
  | .decide => "Decide"
  | .switch => "Switch"
  | .listen => "Listen"
  | .scope => "Scope"
  | .terminate => "Terminate"
  | .expression => "Expression"
  | .delay => "Delay"
  | .compensate => "Compensate"
  | .group => "Group"
  | .parallel => "Parallel"
  | .parallelBranch => "ParallelBranch"
  | .task => "Task"
  | .catch => "Catch"
  | .compensation => "Compensation"
  | .atomicTransaction => "AtomicTransaction"
  | .longRunningTransaction => "LongRunningTransaction"
  | .variableDeclaration => "VariableDeclaration"
  | .callRules => "CallRules"
  | .fallback => "Fallback"

def ofLabel? (s : String) : Option Kind := all.find? fun k => k.label = s

theorem mem_all (k : Kind) : k ∈ all := by cases k <;> decide

/-- The kinds that hold their substructure in slots, or none at all; the child elements of every
other kind become its children. -/
def holdsSlots : Kind → Bool
  | .decide | .switch | .listen | .construct | .messageAssignment => true
  | _ => false

end Kind

end Orchestration.Shape
