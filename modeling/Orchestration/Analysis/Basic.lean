import Orchestration.Analysis.ReceivePattern
import Orchestration.Failure
import Orchestration.Settings
import Orchestration.Tally

/-!
# Orchestration.Analysis.Basic

What the analysis of one file finds.

* `Analysis` — counts of tags, gaps, traits and the receive pattern; or why the file could not be
  read.
* `Analysis.ofModel` — the analysis of a model under some settings.
-/

namespace Orchestration

/-- The findings for one file. -/
structure Analysis where
  fileName : String
  size : Nat := 0
  parsed : Bool := false
  parseError : String := ""
  errorKind : String := ""
  orchestration : String := ""
  /-- The tags in the order in which they were met. -/
  tags : List String := []
  counts : Tally := []
  /-- Tags that cannot be migrated. -/
  unsupported : List String := []
  /-- Tags that can be migrated in part. -/
  limited : List String := []
  warnings : List String := []
  has : Trait → Bool := fun _ => false
  portCount : Nat := 0
  messageCount : Nat := 0
  correlationCount : Nat := 0
  receivePattern : String := ""
  receiveError : String := ""

namespace Analysis

def unknownTag : String := "Unknown"

/-- The tag of a shape as it is counted. -/
def countedTag (n : Shape.Node) : String := if n.tag = "" then unknownTag else n.tag

/-- Whether a tag is one of the given names, in any letter case. -/
def isAmong (names : List Text.Wide) (tag : String) : Bool :=
  (names.map Text.Wide.lower).contains (Text.lower tag)

def isGap (s : Settings) (tag : String) : Bool :=
  !isAmong s.supported tag && tag != unknownTag

/-- Whether a tag can be migrated in part. -/
def isLimited (s : Settings) (tag : String) : Bool := !isGap s tag && isAmong s.limited tag

/-- The number of shapes that a measure counts. -/
def measure (counts : Tally) (x : Measure) : Nat :=
  (counts.filter fun (tag, _) => x.tags.contains (Text.lower tag)).foldr
    (fun (_, n) total => n + total) 0

/-- Whether every count of a pattern is reached. -/
def reaches (t : Thresholds) (counts : Tally) (p : Pattern) : Bool :=
  p.measures.all fun x => decide (t p x ≤ measure counts x)

/-- The number of correlation sets that are declared. -/
def correlationSets (m : Model) : Nat :=
  (m.allShapes.filter fun n => n.kind == .correlationDeclaration).length

/-- The number of receives that start the orchestration. -/
def activating (m : Model) : Nat := (m.allShapes.filter Shape.Node.isActivating).length

/-- Whether some tag tells a trait by itself. -/
def tells (tags : List String) (t : Trait) : Bool :=
  tags.any fun tag => t.tags.contains (Text.lower tag)

def usesCorrelation (m : Model) (tags : List String) : Bool :=
  tells tags .correlationSets || decide (0 < correlationSets m)

def traits (s : Settings) (m : Model) (counts : Tally) : Trait → Bool
  | .correlationSets => usesCorrelation m counts.names
  | .convoy => decide (1 < activating m) || decide (1 < correlationSets m)
  | .solicitResponse => m.ports.any fun p => p.direction.isTwoWay
  | .aggregator =>
    usesCorrelation m counts.names && reaches s.thresholds counts .aggregator
  | .contentBasedRouting => reaches s.thresholds counts .contentBasedRouting
  | .scatterGather => reaches s.thresholds counts .scatterGather
  | .messageBroker => reaches s.thresholds counts .messageBroker
  | t => tells counts.names t

/-- The warning about a shape of unknown type. -/
def shapeWarning? (n : Shape.Node) : Option String :=
  if n.kind = .fallback then
    match n.payload with
    | .fallback details => some s!"{n.name}: {details}"
    | _ => none
  else none

def ofModel (s : Settings) (m : Model) (fileName : String) (size : Nat) : Analysis :=
  let shapes := m.allShapes
  let counts := Tally.ofNames (shapes.map countedTag)
  let pattern := ReceivePattern.ofModel m
  { fileName, size
    parsed := true
    orchestration := m.fullName
    tags := counts.names
    counts
    unsupported := counts.names.filter (isGap s)
    limited := counts.names.filter (isLimited s)
    warnings := shapes.filterMap shapeWarning? ++ pattern.warnings
    has := traits s m counts
    portCount := m.ports.length
    messageCount := m.messages.length
    correlationCount := correlationSets m
    receivePattern := pattern.label
    receiveError := pattern.error }

/-- The analysis of a file that could not be read. -/
def ofFailure (f : Failure) (fileName : String) (size : Nat) : Analysis :=
  { fileName, size, parseError := f.message, errorKind := f.kind.label }

def record (a : Analysis) : Json :=
  let flag := fun (t : Trait) => (t.field, Json.bool (a.has t))
  .obj <|
    [("file_name", .str a.fileName), ("file_size_bytes", .nat a.size),
      ("parsed_successfully", .bool a.parsed), ("parse_error", .str a.parseError),
      ("error_kind", .str a.errorKind), ("orchestration", .str a.orchestration),
      ("shape_types", .strings a.tags),
      ("shape_type_counts", .obj (a.counts.map fun (tag, n) => (tag, .nat n))),
      ("unsupported_shapes", .strings a.unsupported),
      ("partially_supported_shapes", .strings a.limited), ("warnings", .strings a.warnings)] ++
    (Trait.tagged ++ [Trait.solicitResponse, Trait.convoy]).map flag ++
    [("port_count", .nat a.portCount), ("message_count", .nat a.messageCount),
      ("correlation_set_count", .nat a.correlationCount)] ++
    [Trait.aggregator, .contentBasedRouting, .scatterGather, .messageBroker].map flag ++
    [("receive_pattern", .str a.receivePattern),
      ("receive_pattern_error", .str a.receiveError)]

end Analysis

end Orchestration
