import Orchestration.Analysis.Trait
import Orchestration.Designer.Element
import Orchestration.Designer.Segment
import Orchestration.Json
import Orchestration.Text.Wide

/-!
# Orchestration.Settings

What the analysis is told from outside, and the usual settings.

* `Pattern`, `Measure` — the integration patterns and the counts that tell them.
* `Settings`           — tags, thresholds and limits.
* `Recommendation`     — the catalogue of advice.
-/

namespace Orchestration

/-- An integration pattern that is told by counts of shapes. -/
inductive Pattern where
  | aggregator
  | contentBasedRouting
  | scatterGather
  | messageBroker
  deriving DecidableEq

/-- A count of shapes. -/
inductive Measure where
  | receives
  | sends
  | decides
  | parallels
  | constructsOrTransforms
  deriving DecidableEq

/-- The name of a measure in settings. -/
def Measure.label : Measure → String
  | .receives => "min_receives"
  | .sends => "min_sends"
  | .decides => "min_decides"
  | .parallels => "min_parallels"
  | .constructsOrTransforms => "min_constructs_or_transforms"

/-- The lower-cased tags that a measure counts. -/
def Measure.tags : Measure → List String
  | .receives => ["receive"]
  | .sends => ["send"]
  | .decides => ["decide", "if"]
  | .parallels => ["parallel"]
  | .constructsOrTransforms => ["construct", "transform"]

namespace Pattern

def all : List Pattern := [.aggregator, .contentBasedRouting, .scatterGather, .messageBroker]

/-- The name of a pattern in settings. -/
def label : Pattern → String
  | .aggregator => "aggregator"
  | .contentBasedRouting => "content_based_routing"
  | .scatterGather => "scatter_gather"
  | .messageBroker => "message_broker"

def measures : Pattern → List Measure
  | .aggregator => [.receives, .constructsOrTransforms]
  | .contentBasedRouting => [.decides, .sends]
  | .scatterGather => [.parallels, .sends, .receives]
  | .messageBroker => [.receives, .decides, .sends]

/-- The trait of a file that shows the pattern. -/
def trait : Pattern → Trait
  | .aggregator => .aggregator
  | .contentBasedRouting => .contentBasedRouting
  | .scatterGather => .scatterGather
  | .messageBroker => .messageBroker

def ofLabel? (s : Text.Wide) : Option Pattern := all.find? fun p => .whole p.label = s

/-- The measure of a pattern with the given name. -/
def measure? (p : Pattern) (s : Text.Wide) : Option Measure :=
  p.measures.find? fun x => .whole x.label = s

end Pattern

/-- The least counts that tell a pattern. -/
abbrev Thresholds := Pattern → Measure → Nat

namespace Thresholds

def usual : Thresholds
  | .aggregator, .receives => 2
  | .scatterGather, .receives => 2
  | .messageBroker, .receives => 2
  | _, .sends => 2
  | _, _ => 1

def set (t : Thresholds) (p : Pattern) (x : Measure) (n : Nat) : Thresholds :=
  fun p' x' => if p' = p ∧ x' = x then n else t p' x'

end Thresholds

/-- Bounds of the tiers by number of tags: below `simple`, below `medium`, and the rest. -/
structure Tiers where
  simple : Nat
  medium : Nat
  deriving DecidableEq

/-- What the analysis is told. -/
structure Settings where
  sourcePattern : Text.Wide
  /-- Tags that can be migrated. -/
  supported : List Text.Wide
  /-- Tags that can be migrated in part. -/
  limited : List Text.Wide
  /-- How many examples are kept for an unsupported tag. -/
  exampleLimit : Nat
  thresholds : Thresholds
  tiers : Tiers

def Settings.usualSupported : List String :=
  ["Receive", "Send", "Construct", "Transform", "MessageAssignment", "VariableAssignment",
    "Expression", "Decide", "If", "Else", "Loop", "Parallel", "Scope", "Catch",
    "CatchException", "Throw", "Terminate", "Suspend", "Call", "Start", "Task", "Listen",
    "Delay", "While", "Until", "AtomicTransaction", "LongRunningTransaction", "Compensation",
    "Compensate", "CallRules", "CallPolicy", "Group", "Switch", "ForEach",
    "StartOrchestration", "ParallelBranch", "CorrelationDeclaration", "VariableDeclaration"]

def Settings.usual : Settings where
  sourcePattern := "*.odx"
  supported := usualSupported.map .whole
  limited :=
    ["CallRules", "CallPolicy", "Compensation", "Compensate", "AtomicTransaction",
      "LongRunningTransaction"]
  exampleLimit := 3
  thresholds := .usual
  tiers := ⟨5, 10⟩

/-- Advice for the files that have a trait; `advice` follows their number. -/
structure Recommendation where
  trait : Trait
  title : String
  advice : String

def Recommendation.catalogue : List Recommendation :=
  [⟨.businessRules, "P0 - Business Rules Engine Support",
      " files use CallRules. Implement a rules engine integration in the target workflow."⟩,
    ⟨.correlationSets, "P0 - Advanced Correlation Support",
      " files use correlation sets. Map correlation to stateful workflow state management."⟩,
    ⟨.convoy, "P1 - Convoy Pattern Support",
      " files use convoy patterns. Implement sequential/parallel convoy conversion using " ++
        "session-enabled queues."⟩,
    ⟨.dynamicPorts, "P1 - Dynamic Port Support",
      " files use dynamic ports. Implement late-binding connector selection."⟩,
    ⟨.compensation, "P1 - Compensation Logic Support",
      " files use compensation. Implement compensating transactions using scope error " ++
        "handlers."⟩,
    ⟨.transactions, "P2 - Transaction Scope Support",
      " files use transactions. Document transaction boundary conversion to scopes with " ++
        "error handling."⟩,
    ⟨.aggregator, "P2 - Aggregator Pattern",
      " files implement aggregator pattern. Convert using stateful workflows with " ++
        "session-enabled queues for correlation and aggregation."⟩,
    ⟨.contentBasedRouting, "P2 - Content-Based Routing",
      " files use content-based routing. Implement using switch/condition actions with " ++
        "expression-based routing logic."⟩,
    ⟨.scatterGather, "P2 - Scatter-Gather Pattern",
      " files implement scatter-gather. Convert using parallel branches for fan-out and a " ++
        "compose step for fan-in."⟩,
    ⟨.messageBroker, "P2 - Message Broker Pattern",
      " files implement message broker. Consider topics with filtered subscriptions for " ++
        "routing."⟩]

/-- The advice that every report ends its catalogue with. -/
def Recommendation.hybridNote : String :=
  "P3 - Hybrid Deployment Option: Consider a hybrid (self-hosted) deployment model " ++
    "if regulations, data residency or latency require running workflows on-premises."

/-- The traits that a report lists files for, with the names of the lists. -/
def Trait.lists : List (Trait × String) :=
  [(.correlationSets, "files_with_correlation"), (.dynamicPorts, "files_with_dynamic_ports"),
    (.transactions, "files_with_transactions"), (.businessRules, "files_with_business_rules"),
    (.compensation, "files_with_compensation"), (.convoy, "files_with_convoy"),
    (.aggregator, "files_with_aggregator"),
    (.contentBasedRouting, "files_with_content_based_routing"),
    (.scatterGather, "files_with_scatter_gather"),
    (.messageBroker, "files_with_message_broker")]

def sortedOnce (xs : List Text.Wide) : List Text.Wide :=
  (xs.mergeSort Text.Wide.le).eraseDups

/-- The name of the list that holds the files of a trait. -/
def Trait.listName (t : Trait) : String := (Trait.lists.lookup t).getD ""

/-- Names in order, each once, as they are shown. -/
def namesRecord (names : List Text.Wide) : Json := .strings ((sortedOnce names).map Text.Wide.shown)

/-- The settings with everything that is fixed. -/
def Settings.record (s : Settings) : Json :=
  .obj
    [("designer_namespace", .str Designer.designerSpace),
      ("xml_declaration_marker", .str Designer.declarationMarker),
      ("designer_data_sentinel", .str Designer.sentinelMarker),
      ("source_pattern", .str s.sourcePattern.shown),
      ("supported_shapes", namesRecord s.supported),
      ("partially_supported_shapes", namesRecord s.limited),
      ("feature_shape_types",
        .obj (Trait.tagged.map fun t => (t.field, namesRecord (t.tags.map .whole)))),
      ("pattern_thresholds",
        .obj (Pattern.all.map fun p =>
          (p.label, .obj (p.measures.map fun x => (x.label, .nat (s.thresholds p x)))))),
      ("unsupported_example_limit", .nat s.exampleLimit),
      ("complexity_tiers",
        .obj [("simple", .nat s.tiers.simple), ("medium", .nat s.tiers.medium)]),
      ("recommendations",
        .arr (Recommendation.catalogue.map fun r =>
          .strings [r.trait.listName, r.title, "\x7bcount\x7d" ++ r.advice]))]

end Orchestration
