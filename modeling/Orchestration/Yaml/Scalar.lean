import Orchestration.Text.Base64
import Orchestration.Text.Lower
import Orchestration.Yaml.Tag
import Orchestration.Yaml.Value

/-!
# Orchestration.Yaml.Scalar

What the text of a scalar stands for under a tag. A tag may be written before any text, so the text
need not have the form that goes with it.

* `bool`, `int`, `real`, `binary`, `date` — one reader for each tag whose texts are not kept.
-/

namespace Orchestration.Yaml.Scalar

open Text

def bool (text : String) : Except Fault Value :=
  let word := lower text
  if ["yes", "true", "on"].contains word then .ok (.bool true)
  else if ["no", "false", "off"].contains word then .ok (.bool false)
  else .error .noTruth

/-- The text of a number without underscores, and its sign; there must be something. -/
def numberParts (text : String) : Except Fault (Bool × List Char) :=
  match text.toList.filter (· ≠ '_') with
  | [] => .error .noNumber
  | s => .ok (Numeral.cutSign s)

def inBase (base : Nat) (s : List Char) : Except Fault Int :=
  match Numeral.int? base s with
  | some n => .ok n
  | none => .error .outOfRange

/-- A whole number without its first sign. -/
def whole : List Char → Except Fault Int
  | [] => .error .noNumber
  | ['0'] => .ok 0
  | '0' :: 'b' :: s => inBase 2 s
  | '0' :: 'x' :: s => inBase 16 s
  | '0' :: s => inBase 8 ('0' :: s)
  | s =>
    if s.contains ':' then do
      let places ← (Tag.cutColons [] s).mapM (inBase 10)
      .ok (places.foldl (fun n p => n * 60 + p) 0)
    else inBase 10 s

def int (text : String) : Except Fault Value := do
  let (negative, s) ← numberParts text
  let n ← whole s
  .ok (.int (if negative then -n else n))

/-- A number with or without a point. -/
def decimal (s : List Char) : Except Fault Binary64 :=
  match Numeral.real? s with
  | some x => .ok x
  | none => .error .outOfRange

/-- The sum of places of base sixty, the last one first. -/
def sixties (base : Nat) (sum : Binary64) : List Binary64 → Except Fault Binary64
  | [] => .ok sum
  | p :: places =>
    match Binary64.ofRatio false base 1 with
    | .infinite _ => .error .tooLarge
    | b => sixties (base * 60) (sum.add (p.mul b)) places

def unsigned (s : List Char) : Except Fault Binary64 :=
  if String.ofList s = ".inf" then .ok (.infinite false)
  else if String.ofList s = ".nan" then .ok .nan
  else if s.contains ':' then do
    let places ← (Tag.cutColons [] s).mapM decimal
    sixties 1 (.finite false 0) places.reverse
  else decimal s

def real (text : String) : Except Fault Value := do
  let (negative, s) ← numberParts (lower text)
  let x ← unsigned s
  .ok (.real (if negative then x.neg else x))

def binary (text : String) : Except Fault Value :=
  if text.toList.all fun c => decide (c.toNat < 0x80) then
    match Base64.decode? text.toList with
    | some data => .ok (.bytes data)
    | none => .error .malformed
  else .error .malformed

def date (text : String) : Except Fault Value :=
  match Moment.ofText? (Tag.dropLineEnd text.toList) with
  | some m => m.text.map .date
  | none => .error .noDate

end Orchestration.Yaml.Scalar
