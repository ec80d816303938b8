import Orchestration.Analysis.Basic
import Orchestration.Rate
import Orchestration.Text.Layout

/-!
# Orchestration.Report

The findings for a directory.

* `Report.add`      — takes one file's findings into the running totals.
* `Report.finalize` — sorts the files into tiers and draws up the recommendations.
* `Report.lines`    — the report as text; `Report.record` — as structured data.
-/

namespace Orchestration

/-- The parsed files by number of tags, in order. -/
structure TierFiles where
  simple : List String
  medium : List String
  complex : List String
  deriving DecidableEq

/-- Running totals over files, and what is drawn from them at the end. -/
structure Report where
  directory : String := ""
  total : Nat := 0
  parsed : Nat := 0
  failed : Nat := 0
  cancelled : Bool := false
  /-- How often each tag occurs. -/
  frequency : Tally := []
  /-- In how many files each unsupported tag occurs. -/
  gaps : Tally := []
  /-- The first files of each unsupported tag. -/
  examples : List (String × List String) := []
  /-- The files that have a trait. -/
  files : List (Trait × List String) := Trait.lists.map fun (t, _) => (t, [])
  tiers : Option TierFiles := none
  mostComplex : List String := []
  recommended : List String := []
  details : List Analysis := []

namespace Report

/-- Adds an example for a tag unless there are enough. -/
def addExample (limit : Nat) (tag file : String) :
    List (String × List String) → List (String × List String)
  | [] => [(tag, if 0 < limit then [file] else [])]
  | (k, names) :: rest =>
    if k = tag then (k, if names.length < limit then names ++ [file] else names) :: rest
    else (k, names) :: addExample limit tag file rest

def examplesOf (r : Report) (tag : String) : List String := (r.examples.lookup tag).getD []

def filesWith (r : Report) (t : Trait) : List String := (r.files.lookup t).getD []

/-- Takes the findings for a parsed file into the totals. -/
def addParsed (s : Settings) (a : Analysis) (r : Report) : Report :=
  { r with
    parsed := r.parsed + 1
    frequency := a.counts.foldl (fun f (tag, n) => f.add tag n) r.frequency
    gaps := a.unsupported.foldl (fun g tag => g.add tag 1) r.gaps
    examples :=
      a.unsupported.foldl (fun e tag => addExample s.exampleLimit tag a.fileName e) r.examples
    files := r.files.map fun (t, names) => (t, if a.has t then names ++ [a.fileName] else names) }

/-- Takes one file's findings into the totals. A file that could not be read only counts. -/
def add (s : Settings) (r : Report) (a : Analysis) : Report :=
  let r := { r with details := r.details ++ [a], total := r.total + 1 }
  if a.parsed then r.addParsed s a else { r with failed := r.failed + 1 }

def parsedDetails (r : Report) : List Analysis := r.details.filter Analysis.parsed

/-- The parsed files whose number of tags satisfies a test. -/
def tier (r : Report) (test : Nat → Bool) : List Analysis :=
  r.parsedDetails.filter fun a => test a.tags.length

/-- How many of the most complex files are named. -/
def mostComplexLimit : Nat := 10

/-- The parsed files of the highest tier, those with the most tags first. -/
def complexFiles (s : Settings) (r : Report) : List Analysis :=
  (r.tier fun n => decide (s.tiers.medium ≤ n)).mergeSort
    fun a b => decide (b.tags.length ≤ a.tags.length)

/-- The advice that applies: the catalogue's for the traits that occur, the note on hybrid
deployment, and one entry for each unsupported tag, the most frequent first. -/
def recommendations (r : Report) : List String :=
  (Recommendation.catalogue.filterMap fun c =>
    let count := (r.filesWith c.trait).length
    if 0 < count then some s!"{c.title}: {count}{c.advice}" else none) ++
  [Recommendation.hybridNote] ++
  r.gaps.ranked.map fun (tag, count) =>
    s!"P? - Support for '{tag}' shape: Found {count} occurrences in " ++
      ", ".intercalate (r.examplesOf tag)

/-- Sorts the files into tiers, names the most complex ones and draws up the recommendations. -/
def finalize (s : Settings) (r : Report) : Report :=
  let names := fun (test : Nat → Bool) => (r.tier test).map Analysis.fileName
  { r with
    tiers := some
      { simple := names fun n => decide (n < s.tiers.simple)
        medium := names fun n => decide (s.tiers.simple ≤ n) && decide (n < s.tiers.medium)
        complex := names fun n => decide (s.tiers.medium ≤ n) }
    mostComplex := ((r.complexFiles s).take mostComplexLimit).map Analysis.fileName
    recommended := r.recommendations }

/-- The percentage of files that could be read, in tenths. -/
def successRate (r : Report) : Nat := Rate.tenths r.parsed r.total

/-- The first `n` items; a negative `n` leaves that many out at the end. -/
def slice {α : Type} (n : Int) (xs : List α) : List α :=
  if 0 ≤ n then xs.take n.toNat else xs.take (xs.length - (-n).toNat)

/-- A line for a tag and its count. -/
def row (tag : String) (count : Nat) : String :=
  Text.padRight 30 tag ++ " " ++ Text.padLeft 5 (toString count)

/-- The findings for a file name; of several the last ones. -/
def detail? (r : Report) (name : String) : Option Analysis :=
  r.details.reverse.find? fun a => a.fileName = name

/-- The lines for one of the most complex files. -/
def complexLines (a : Analysis) (name : String) : List String :=
  s!"  * {name} ({a.tags.length} shape types, {a.size / 1024}KB)" ::
    if a.unsupported.isEmpty then []
    else ["    Unsupported: " ++ ", ".intercalate a.unsupported]

/-- The report as text, line by line, with the `top` most frequent tags. -/
def lines (s : Settings) (top : Int) (r : Report) : List String :=
  let rule := Text.fill 80 '='
  let thin := Text.fill 80 '-'
  let files := fun (title : String) (t : Trait) =>
    s!"{title}: {(r.filesWith t).length} files"
  let tiers := r.tiers.getD ⟨[], [], []⟩
  [rule, "ANALYSIS SUMMARY", rule,
    s!"Total files analyzed: {r.total}",
    s!"Successfully parsed: {r.parsed}",
    s!"Failed to parse: {r.failed}",
    s!"Parse success rate: {Json.tenthsText r.successRate}%"] ++
  (if r.cancelled then ["Scan was cancelled before all files were analyzed"] else []) ++
  ["", thin, "PATTERN DETECTION", thin,
    files "Correlation Sets" .correlationSets,
    files "Dynamic Ports" .dynamicPorts,
    files "Transactions" .transactions,
    files "Business Rules" .businessRules,
    files "Compensation" .compensation,
    files "Convoy Pattern" .convoy,
    "", thin, "DESIGN PATTERNS", thin,
    files "Aggregator" .aggregator,
    files "Content-Based Routing" .contentBasedRouting,
    files "Scatter-Gather" .scatterGather,
    files "Message Broker" .messageBroker,
    "", thin, s!"TOP {top} SHAPE TYPES BY FREQUENCY", thin] ++
  (slice top r.frequency.ranked).map (fun (tag, count) =>
    (if Analysis.isAmong s.supported tag then "[OK] " else "[!!] ") ++ row tag count ++
      " occurrences" ++ (if Analysis.isAmong s.limited tag then " (partial)" else "")) ++
  (if r.gaps.isEmpty then []
  else
    ["", thin, "UNSUPPORTED SHAPES", thin] ++
    r.gaps.ranked.flatMap fun (tag, count) =>
      ["[!!] " ++ row tag count ++ " occurrences",
        "  Examples: " ++ ", ".intercalate (r.examplesOf tag)]) ++
  (if r.recommended.isEmpty then []
  else
    ["", rule, "RECOMMENDED FEATURES & ENHANCEMENTS", rule] ++ r.recommended.map ("* " ++ ·)) ++
  ["", rule, "DETAILED FILE ANALYSIS", rule,
    s!"Simple orchestrations (< 5 shape types): {tiers.simple.length}",
    s!"Medium orchestrations (5-9 shape types): {tiers.medium.length}",
    s!"Complex orchestrations (10+ shape types): {tiers.complex.length}"] ++
  (if r.mostComplex.isEmpty then []
  else
    "Most Complex Orchestrations:" ::
    r.mostComplex.flatMap fun name =>
      ((r.detail? name).map fun a => complexLines a name).getD []) ++
  [rule]

def text (s : Settings) (top : Int) (r : Report) : String := Text.ofLines (r.lines s top)

/-- How many tags the text shows when nothing else is asked for. -/
def usualTop : Int := 20

/-- The report as structured data; the tiers are empty before the end. -/
def record (r : Report) : Json :=
  let tally := fun (t : Tally) => Json.obj (t.map fun (k, n) => (k, .nat n))
  .obj <|
    [("directory", .str r.directory), ("total_files_analyzed", .nat r.total),
      ("successfully_parsed", .nat r.parsed), ("failed_to_parse", .nat r.failed),
      ("cancelled", .bool r.cancelled), ("shape_type_frequency", tally r.frequency),
      ("unsupported_shape_frequency", tally r.gaps),
      ("unsupported_shape_examples",
        .obj (r.examples.map fun (k, names) => (k, .strings names)))] ++
    Trait.lists.map (fun (t, name) => (name, Json.strings (r.filesWith t))) ++
    [("complexity_tiers",
        .obj (match r.tiers with
          | none => []
          | some t =>
            [("simple", .strings t.simple), ("medium", .strings t.medium),
              ("complex", .strings t.complex)])),
      ("most_complex_files", .strings r.mostComplex),
      ("recommended_features", .strings r.recommended),
      ("file_details", .arr (r.details.map Analysis.record)),
      ("success_rate", .tenths r.successRate)]

end Report

end Orchestration
