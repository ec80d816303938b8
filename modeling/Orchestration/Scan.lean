import Orchestration.Files.Glob
import Orchestration.Report
import Orchestration.Source

/-!
# Orchestration.Scan

The analysis of files and directories.

* `Analysis.ofFile`   — the findings for a file; a failure is part of them.
* `Analysis.isolated` — the findings for a file in a scan, however its analysis ended.
* `Report.read`       — takes files in, one after the other, up to a cancellation.
* `scanWith`, `scan`  — the report of a directory.
-/

namespace Orchestration

open Files (Path Store)

/-- The findings for a file. A failure is part of them; any other trouble is passed on. The size is
asked for first, and no path with the character zero has one. -/
def Analysis.ofFile (s : Settings) (store : Store) (p : Path) : Except Trouble Analysis :=
  if p.text.toList.contains '\x00' then .error .zeroInPath
  else
    match Source.model store p with
    | .ok m => .ok (Analysis.ofModel s m p.name (store.sizeOf p))
    | .error (.failure f) => .ok (Analysis.ofFailure f p.name (store.sizeOf p))
    | .error t => .error t

/-- What stopped the analysis of a file, as its record shows it: a name and a text. -/
structure Mishap where
  label : String
  message : String
  deriving DecidableEq

def Trouble.mishap (t : Trouble) : Mishap := ⟨t.label, t.message⟩

/-- The findings for a file whose analysis was stopped. -/
def Analysis.ofMishap (mishap : Mishap) (fileName : String) : Analysis :=
  { fileName, parseError := mishap.message, errorKind := mishap.label }

/-- The findings for a file in a scan. What stops the analysis of one file does not stop the
others. -/
def Analysis.isolated (fileName : String) : Except Mishap Analysis → Analysis
  | .ok a => a
  | .error mishap => .ofMishap mishap fileName

namespace Report

/-- Takes files in, one after the other. Before each of them it is asked whether the scan has been
cancelled; `asked` counts the questions. -/
def read (s : Settings) (analyze : Path → Except Mishap Analysis) (cancelled : Nat → Bool)
    (asked : Nat) (r : Report) : List Path → Report
  | [] => r
  | p :: rest =>
    if cancelled asked then { r with cancelled := true }
    else read s analyze cancelled (asked + 1) (r.add s (.isolated p.name (analyze p))) rest

/-- The report of files in their order, up to a cancellation. -/
def ofFiles (s : Settings) (analyze : Path → Except Mishap Analysis) (directory : String)
    (cancelled : Nat → Bool) (files : List Path) : Report :=
  (read s analyze cancelled 0 { directory } files).finalize s

end Report

/-- The report of the files in a directory that match a pattern, the usual one if none is given. -/
def scanWith (s : Settings) (analyze : Path → Except Mishap Analysis) (store : Store)
    (directory : Path) (pattern : Option String) (cancelled : Nat → Bool) :
    Except Trouble Report :=
  match Files.glob store directory (.orElse (pattern.getD "") s.sourcePattern) with
  | .error t => .error t
  | .ok files => .ok (Report.ofFiles s analyze directory.text cancelled files)

/-- A cancellation that is seen after `checks` questions, if at all. -/
def cancelledAfter (checks : Option Nat) (asked : Nat) : Bool := checks.any fun n => n ≤ asked

/-- The report of a directory whose files are read from a store. -/
def scan (s : Settings) (store : Store) (directory : Path) (pattern : Option String)
    (checks : Option Nat) : Except Trouble Report :=
  scanWith s (fun p => (Analysis.ofFile s store p).mapError Trouble.mishap) store directory pattern
    (cancelledAfter checks)

end Orchestration
