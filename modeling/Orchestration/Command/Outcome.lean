import Orchestration.Analysis.Summary
import Orchestration.Command.Basic
import Orchestration.Diagnostics
import Orchestration.Files.Output
import Orchestration.Model.Record
import Orchestration.Override
import Orchestration.Scan
import Orchestration.Text.Control

/-!
# Orchestration.Command.Outcome

What the program does.

* `Outcome` — the lines it prints, how it ends, and the files it leaves.
* `Command.outcome` — the outcome of a command.
* `Outcome.ofArguments` — the outcome of a command line.
-/

namespace Orchestration

open Files (Entry Path Store)

/-- How the program ends. -/
inductive Ending where
  | finished
  /-- The command line is not understood. -/
  | misused
  | stopped (t : Trouble)
  deriving DecidableEq

/-- The number that the program ends with. -/
def Ending.code : Ending → Nat
  | .finished => 0
  | .misused => 2
  | .stopped _ => 1

/-- What the program does. -/
structure Outcome where
  printed : List String
  ending : Ending
  store : Store

/-- Everything that is printed; each line has its end. What would only change the look of a terminal
is left out. -/
def Outcome.text (o : Outcome) : String :=
  String.join (o.printed.map fun line => Text.dropControls line ++ "\n")

/-- The name and number of the program. -/
def versionLine : String := "main, version 1.0.0"

/-- The end of a step that met trouble: a failure is reported, other trouble stops the program, and
so does a report that cannot be encoded. -/
def Outcome.ofTrouble (store : Store) : Trouble → Outcome
  | .failure f =>
    match f.wording.whole? with
    | none => ⟨[], .stopped .unprintable, store⟩
    | some message => ⟨["[ERROR] " ++ message], .finished, store⟩
  | t => ⟨[], .stopped t, store⟩

def Outcome.after (o : Outcome) (lines : List String) : Outcome :=
  { o with printed := lines ++ o.printed }

/-- Saves a text, then prints one line. -/
def Outcome.save (store : Store) (p : Path) (text line : String) : Outcome :=
  match store.write p (Text.Utf8.encode text.toList) with
  | .error t => ⟨[], .stopped t, store⟩
  | .ok store => ⟨[line], .finished, store⟩

namespace Command

/-- What a typed path must lead to. -/
inductive Need where
  | file
  | directory
  | anything
  | nothing
  deriving DecidableEq

/-- The typed paths of a command, in the order in which they are checked. -/
def needs : Command → List (String × Need)
  | .parse file output => [(output, .nothing), (file, .file)]
  | .analyze file settings _ => settings.toList.map (·, .anything) ++ [(file, .file)]
  | .scan directory output _ settings =>
    settings.toList.map (·, .anything) ++ [(output, .nothing), (directory, .directory)]
  | .diagnose file => [(file, .file)]

/-- Whether something that stands at a path is what is needed. -/
def Need.admits : Need → Entry → Bool
  | .file, .directory => false
  | .directory, .file _ => false
  | _, _ => true

/-- Whether a typed path leads to what is needed. What is there must be readable in any case. -/
def meets (s : Store) (text : String) (need : Need) : Bool :=
  match s.typed? text with
  | none => need == .nothing
  | some x => x.isReadable && need.admits x.entry

/-- How the program ends because of a typed path. No path can hold the character zero. -/
def hindrance? (s : Store) (path : String × Need) : Option Ending :=
  if path.1.toList.contains '\x00' then some (.stopped .zeroInPath)
  else if meets s path.1 path.2 then none
  else some .misused

/-- The outcome of showing or saving a model. -/
def parseOutcome (s : Store) (file output : String) : Outcome :=
  match Source.model s (Path.ofText file) with
  | .error t => .ofTrouble s t
  | .ok m =>
    let data := m.record.print
    if output = "" then ⟨[data], .finished, s⟩
    else
      let p := Path.ofText output
      .save s p data s!"[OK] Model for {m.fullName} saved to: {p.text}"

/-- The outcome of showing the findings for a file. -/
def analyzeOutcome (s : Store) (file : String) (settings : Option String) (structured : Bool) :
    Outcome :=
  match Settings.load s (settings.map Path.ofText) with
  | .error t => .ofTrouble s t
  | .ok settings =>
    match Analysis.ofFile settings s (Path.ofText file) with
    | .error t => .ofTrouble s t
    | .ok a => ⟨if structured then [a.record.print] else a.summary, .finished, s⟩

/-- The outcome of showing and saving a report. -/
def scanOutcome (s : Store) (directory output pattern : String) (settings : Option String) :
    Outcome :=
  match Settings.load s (settings.map Path.ofText) with
  | .error t => .ofTrouble s t
  | .ok settings =>
    let start := s!"Scanning {directory}..."
    match Orchestration.scan settings s (Path.ofText directory) (some pattern) none with
    | .error t => (Outcome.ofTrouble s t).after [start]
    | .ok r =>
      let lines := [start] ++ r.details.map (fun a => "  " ++ a.headline a.fileName) ++
        [r.text settings Report.usualTop]
      if output = "" then ⟨lines, .finished, s⟩
      else
        let p := Path.ofText output
        (Outcome.save s p r.record.print s!"\nDetailed report saved to: {p.text}").after lines

/-- The outcome of showing the hierarchy of shapes. -/
def diagnoseOutcome (s : Store) (file : String) : Outcome :=
  match Source.model s (Path.ofText file) with
  | .error t => .ofTrouble s t
  | .ok m => ⟨[Diagnostics.text m], .finished, s⟩

def outcome (s : Store) (c : Command) : Outcome :=
  match c.needs.findSome? (hindrance? s) with
  | some ending => ⟨[], ending, s⟩
  | none =>
    match c with
    | .parse file output => parseOutcome s file output
    | .analyze file settings structured => analyzeOutcome s file settings structured
    | .scan directory output pattern settings => scanOutcome s directory output pattern settings
    | .diagnose file => diagnoseOutcome s file

end Command

def Outcome.ofArguments (s : Store) (args : List String) : Outcome :=
  match Request.ofArguments? args with
  | none => ⟨[], .misused, s⟩
  | some .version => ⟨[versionLine], .finished, s⟩
  | some .help => ⟨[], .finished, s⟩
  | some (.command c) => c.outcome s

end Orchestration
