/-!
# Orchestration.Analysis.Trait

What an orchestration may be said to have, and the tags that tell some of it.
-/

namespace Orchestration

/-- Something that matters for a migration. -/
inductive Trait where
  | correlationSets
  | dynamicPorts
  | transactions
  | exceptionHandling
  | businessRules
  | compensation
  | loops
  | parallel
  | listen
  | delay
  | callOrchestration
  | transform
  | solicitResponse
  | convoy
  | aggregator
  | contentBasedRouting
  | scatterGather
  | messageBroker
  deriving DecidableEq

namespace Trait

/-- The traits that some tag tells by itself, in the order of the settings. -/
def tagged : List Trait :=
  [.correlationSets, .dynamicPorts, .transactions, .exceptionHandling, .businessRules,
    .compensation, .loops, .parallel, .listen, .delay, .callOrchestration, .transform]

/-- The lower-cased tags that tell a trait. -/
def tags : Trait → List String
  | .correlationSets => ["correlationdeclaration", "initializecorrelation", "followscorrelation"]
  | .dynamicPorts => ["dynamicport"]
  | .transactions => ["atomictransaction", "longrunningtransaction"]
  | .exceptionHandling => ["catch", "catchexception"]
  | .businessRules => ["callrules", "callpolicy"]
  | .compensation => ["compensation", "compensate"]
  | .loops => ["loop", "foreach", "while", "until"]
  | .parallel => ["parallel"]
  | .listen => ["listen"]
  | .delay => ["delay"]
  | .callOrchestration => ["call", "start", "startorchestration"]
  | .transform => ["transform"]
  | _ => []

/-- The field of a trait in records. -/
def field : Trait → String
  | .correlationSets => "has_correlation_sets"
  | .dynamicPorts => "has_dynamic_ports"
  | .transactions => "has_transactions"
  | .exceptionHandling => "has_exception_handling"
  | .businessRules => "has_business_rules"
  | .compensation => "has_compensation"
  | .loops => "has_loops"
  | .parallel => "has_parallel"
  | .listen => "has_listen"
  | .delay => "has_delay"
  | .callOrchestration => "has_call_orchestration"
  | .transform => "has_transform"
  | .solicitResponse => "has_solicit_response"
  | .convoy => "has_convoy"
  | .aggregator => "has_aggregator_pattern"
  | .contentBasedRouting => "has_content_based_routing"
  | .scatterGather => "has_scatter_gather"
  | .messageBroker => "has_message_broker"

end Trait

end Orchestration
