import Orchestration.Failure
import Orchestration.Files.Store
import Orchestration.Settings
import Orchestration.Yaml.Document

/-!
# Orchestration.Override

Settings that a file replaces.

* `Settings.override` — the usual settings with the entries of a value.
* `Settings.ofSupply` — the settings that a text holds.
* `Settings.load`     — the settings of a file.
-/

namespace Orchestration

open Files (Path Store)
open Yaml (Value)

namespace Settings

def overridable : List Text.Wide :=
  ["supported_shapes", "partially_supported_shapes", "unsupported_example_limit",
    "source_pattern", "pattern_thresholds"]

/-- A list of texts. An empty list of pairs is one. -/
def names? : Value → Option (List Text.Wide)
  | .list items => items.mapM fun v =>
    match v with
    | .str s => some s
    | _ => none
  | .pairs [] => some []
  | _ => none

/-- A number that is not negative; a truth value is none. -/
def count? : Value → Option Nat
  | .int (.ofNat n) => some n
  | _ => none

def text? : Value → Option Text.Wide
  | .str s => if s = "" then none else some s
  | _ => none

def keyText? : Value → Option Text.Wide
  | .str s => some s
  | _ => none

def unknown (key : Value) (problem : Text.Wide → SettingsProblem) : SettingsProblem :=
  match key.display? with
  | some shown => problem shown
  | none => .keyTooLong

def setThreshold (p : Pattern) (t : Thresholds) (entry : Value × Value) :
    Except SettingsProblem Thresholds :=
  match (keyText? entry.1).bind p.measure? with
  | none => .error (unknown entry.1 fun shown => .unknownThreshold shown p.label)
  | some x =>
    match count? entry.2 with
    | none => .error (.thresholdNotCount p.label x.label)
    | some n => .ok (t.set p x n)

def setPattern (t : Thresholds) (entry : Value × Value) : Except SettingsProblem Thresholds :=
  match (keyText? entry.1).bind Pattern.ofLabel? with
  | none => .error (unknown entry.1 .unknownPattern)
  | some p =>
    match entry.2 with
    | .mapping entries => entries.foldlM (setThreshold p) t
    | _ => .error (.thresholdsNoMapping p.label)

def setEntry (s : Settings) (entry : Text.Wide × Value) : Except SettingsProblem Settings :=
  let (key, v) := entry
  if key = "supported_shapes" then
    match names? v with
    | some names => .ok { s with supported := names }
    | none => .error (.notTypeNames key)
  else if key = "partially_supported_shapes" then
    match names? v with
    | some names => .ok { s with limited := names }
    | none => .error (.notTypeNames key)
  else if key = "unsupported_example_limit" then
    match count? v with
    | some n => .ok { s with exampleLimit := n }
    | none => .error (.notCount key)
  else if key = "source_pattern" then
    match text? v with
    | some pattern => .ok { s with sourcePattern := pattern }
    | none => .error (.notText key)
  else
    match v with
    | .mapping entries =>
      (entries.foldlM setPattern s.thresholds).map fun t => { s with thresholds := t }
    | _ => .error .patternsNoMapping

def isOverridable (key : Value) : Bool := (keyText? key).any overridable.contains

/-- What stops a request whose settings have a problem. A key that cannot be worded has no message
either. -/
def refusal (path : String) : SettingsProblem → Trouble
  | .keyTooLong => .settings .outOfRange
  | p => .failure ⟨.settings p, path⟩

/-- The usual settings with the entries of a value. Unknown keys are refused before anything else;
then the entries are checked in order. -/
def override (path : String) (v : Value) : Except Trouble Settings :=
  if v.isNothing then .ok .usual
  else
    match v with
    | .mapping entries =>
      let unknown := (entries.map Prod.fst).filter fun k => !isOverridable k
      match unknown.mapM keyText? with
      | none => .error .keyNoText
      | some [] =>
        let known := entries.filterMap fun (k, v) => (keyText? k).map (·, v)
        (known.foldlM setEntry .usual).mapError (refusal path)
      | some keys => .error (refusal path (.unknownKeys (sortedOnce keys)))
    | _ => .error (refusal path .noMapping)

/-- How deep settings are: patterns are two levels below the whole, their thresholds three. -/
def depth : Nat := 3

def ofSupply (path : String) (t : Yaml.Supply) : Except Trouble Settings :=
  match Yaml.read depth t with
  | .error .malformed => .error (refusal path .malformed)
  | .error f => .error (.settings f)
  | .ok v => override path v

/-- The settings of a file; without one the usual settings. -/
def load (store : Store) : Option Path → Except Trouble Settings
  | none => .ok .usual
  | some p =>
    match store.bytes? p with
    | none => .error (refusal p.text .unreadable)
    | some bytes => ofSupply p.text (.ofBytes bytes)

end Settings

end Orchestration
