import Orchestration.Model.Basic

/-!
# Orchestration.Analysis.ReceivePattern

The receives that start an orchestration, and how they stand to each other. A workflow has exactly
one trigger, so this decides how an orchestration can be migrated.

* `ReceivePattern` — the patterns, each with its receives.
* `ReceivePattern.ofModel` — the pattern of a model.
-/

namespace Orchestration

open Shape (Handle Kind Node Tree)

/-- How the receives that start an orchestration stand to each other. The first of several is the
one that becomes the trigger. -/
inductive ReceivePattern where
  /-- Nothing starts it; it is called. -/
  | callable
  | single (trigger : Handle)
  /-- One receive starts it and initializes a correlation set; others follow a set. -/
  | convoy (trigger : Handle) (following : List Handle)
  /-- All starting receives wait in one listen. -/
  | listen (trigger : Handle) (others : List Handle)
  /-- All starting receives stand below parallels. -/
  | parallel (trigger : Handle) (others : List Handle)
  | sequential (trigger : Handle) (others : List Handle)
  deriving DecidableEq

namespace ReceivePattern

def label : ReceivePattern → String
  | .callable => "Callable"
  | .single _ => "SingleTrigger"
  | .convoy _ _ => "Convoy"
  | .listen _ _ => "ListenFirstToComplete"
  | .parallel _ _ => "ParallelAllMustComplete"
  | .sequential _ _ => "Invalid"

def primary? : ReceivePattern → Option Handle
  | .callable => none
  | .single t | .convoy t _ | .listen t _ | .parallel t _ | .sequential t _ => some t

def secondary : ReceivePattern → List Handle
  | .callable => []
  | .single _ => []
  | .convoy _ hs | .listen _ hs | .parallel _ hs | .sequential _ hs => hs

/-- Whether the target engine can express the pattern. -/
def isValid : ReceivePattern → Bool
  | .parallel _ _ => false
  | .sequential _ _ => false
  | _ => true

/-- Whether messages must be received in sessions. -/
def needsSessions : ReceivePattern → Bool
  | .convoy _ _ => true
  | _ => false

def needsRequestTrigger : ReceivePattern → Bool
  | .callable => true
  | _ => false

/-- Whether the waiting of other receives must be ended. -/
def needsTimeout : ReceivePattern → Bool
  | .listen _ _ => true
  | _ => false

/-- The number of receives of the pattern. -/
def size (p : ReceivePattern) : Nat := p.primary?.toList.length + p.secondary.length

/-- Why the pattern cannot be expressed; empty when it can. -/
def error : ReceivePattern → String
  | .parallel _ others =>
    s!"INVALID PATTERN: {others.length + 1} activating Receive shapes in Parallel branches " ++
      "detected. A workflow can only have ONE trigger. Recommendation: Split into multiple " ++
      "workflows or use correlation-based sequential receives."
  | .sequential _ others =>
    s!"INVALID PATTERN: {others.length + 1} sequential activating Receive shapes detected. " ++
      "A workflow can only have ONE trigger. Recommendation: Redesign to use correlation " ++
      "(convoy pattern) or split into multiple workflows."
  | _ => ""

/-- What to keep in mind when the pattern is migrated. -/
def warnings : ReceivePattern → List String
  | .callable =>
    ["No activating Receive shapes found. Workflow will use a request trigger (callable workflow)."]
  | .convoy _ following =>
    [s!"Convoy pattern detected with {following.length} correlated receive(s). " ++
      "Requires session-enabled messaging or a custom correlation implementation."]
  | .listen _ others =>
    [s!"Listen shape with {others.length + 1} activating receives detected. " ++
      "The first receive maps to the trigger and the others to switch/timeout actions. " ++
      "First-to-complete cancellation of the other branches is not native to the target engine."]
  | _ => []

/-- A receive with the correlation sets that it initializes and follows. -/
structure Receiver where
  handle : Handle
  activate : Bool
  initializes : List String
  follows : List String
  deriving DecidableEq

def receiver? (t : Tree) (h : Handle) : Option Receiver :=
  (t.node? h).bind fun n =>
    if n.kind = .receive then
      match n.payload with
      | .receive _ activate initializes follows => some ⟨h, activate, initializes, follows⟩
      | _ => none
    else none

/-- The receives of a model, in order. -/
def receivers (m : Model) : List Receiver := m.allHandles.filterMap (receiver? m.tree)

/-- The pattern of one starting receive among all receives. It is a convoy as soon as the receive
initializes any set and some receive that does not start the orchestration follows any. -/
def ofSingle (trigger : Receiver) (all : List Receiver) : ReceivePattern :=
  let following := all.filter fun r => !r.activate && !r.follows.isEmpty
  if trigger.initializes.isEmpty || following.isEmpty then .single trigger.handle
  else .convoy trigger.handle (following.map Receiver.handle)

/-- Whether the innermost listens around the handles are all the same one. -/
def shareListen (t : Tree) (hs : List Handle) : Bool :=
  match hs.map fun h => t.findAncestor h .listen with
  | some l :: rest => rest.all (· == some l)
  | _ => false

/-- Whether each handle stands below a parallel. -/
def allParallel (t : Tree) (hs : List Handle) : Bool :=
  hs.all fun h => (t.findAncestor h .parallel).isSome

def ofSeveral (t : Tree) (trigger : Handle) (others : List Handle) : ReceivePattern :=
  if shareListen t (trigger :: others) then .listen trigger others
  else if allParallel t (trigger :: others) then .parallel trigger others
  else .sequential trigger others

def ofModel (m : Model) : ReceivePattern :=
  let all := receivers m
  match all.filter Receiver.activate with
  | [] => .callable
  | [r] => ofSingle r all
  | r :: others => ofSeveral m.tree r.handle (others.map Receiver.handle)

end ReceivePattern

end Orchestration
