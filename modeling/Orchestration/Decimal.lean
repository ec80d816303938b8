import Orchestration.Rate

/-!
# Orchestration.Decimal

The shortest decimal form of a binary floating-point number.

* `Binary`   — a positive number `mantissa · 2 ^ (exponent - 1074)` with at most 53 binary digits.
* `nearest?` — the number nearest to a quotient; none when that is too large.
* `digits`   — the fewest decimal digits that are nearer to a number than to any other.
* `text`     — the written form, positional for exponents from -4 to 15.
-/

namespace Orchestration.Decimal

/-- The positive number `mantissa · 2 ^ (exponent - 1074)`. -/
structure Binary where
  mantissa : Nat
  exponent : Nat
  deriving DecidableEq

/-- The number nearest to `num / den`, a tie going to the even mantissa; zero when it is nearest. -/
def nearest? (num den : Nat) : Option Binary :=
  let scaled := num * Nat.pow 2 1074
  let excess := Nat.log2 (scaled / den) - 52
  let m := Rate.roundDiv scaled (den * Nat.pow 2 excess)
  let b : Binary := if m = Nat.pow 2 53 then ⟨Nat.pow 2 52, excess + 1⟩ else ⟨m, excess⟩
  if 2045 < b.exponent then none else some b

/-- Decimal digits and the power of ten that they are multiplied by. -/
structure Scaled where
  digits : Nat
  power : Int
  deriving DecidableEq

/-- Whether a decimal is read back as the number. -/
def readsBack (b : Binary) (s : Scaled) : Bool :=
  match s.power with
  | .ofNat p => nearest? (s.digits * Nat.pow 10 p) 1 == some b
  | .negSucc p => nearest? s.digits (Nat.pow 10 (p + 1)) == some b

/-- The decimal with a given power of ten that is nearest to a number. -/
def onGrid (b : Binary) (power : Int) : Scaled :=
  let num := b.mantissa * Nat.pow 2 b.exponent
  match power with
  | .ofNat p => ⟨Rate.roundDiv num (Nat.pow 2 1074 * Nat.pow 10 p), power⟩
  | .negSucc p => ⟨Rate.roundDiv (num * Nat.pow 10 (p + 1)) (Nat.pow 2 1074), power⟩

/-- The decimal with the highest power of ten, from `power` downwards, that is read back. -/
def firstGrid (b : Binary) : Nat → Int → Scaled
  | 0, power => onGrid b power
  | fuel + 1, power =>
    let s := onGrid b power
    if s.digits ≠ 0 ∧ readsBack b s then s else firstGrid b fuel (power - 1)

/-- The shortest decimal that is read back as the number. -/
def shortest (b : Binary) : Scaled := firstGrid b 700 310

/-- Drops zeros at the end of the digits. -/
def trim : Nat → Scaled → Scaled
  | 0, s => s
  | fuel + 1, s =>
    if s.digits ≠ 0 ∧ s.digits % 10 = 0 then trim fuel ⟨s.digits / 10, s.power + 1⟩ else s

def twoDigits (n : Nat) : String := if n < 10 then "0" ++ toString n else toString n

/-- The written form of a decimal: positional where the leading digit's power of ten lies between
-4 and 15, else with an exponent. -/
def Scaled.text (s : Scaled) : String :=
  let ds := (toString s.digits).toList
  let lead := s.power + ds.length - 1
  if s.digits = 0 then "0.0"
  else if lead < -4 ∨ 15 < lead then
    let fraction := ds.drop 1
    String.ofList (ds.take 1) ++
      (if fraction.isEmpty then "" else "." ++ String.ofList fraction) ++
      (if lead < 0 then "e-" else "e+") ++ twoDigits lead.natAbs
  else if lead < 0 then
    "0." ++ String.ofList (List.replicate (lead.natAbs - 1) '0' ++ ds)
  else
    let whole := lead.toNat + 1
    let padded := ds ++ List.replicate (whole - ds.length) '0'
    let fraction := padded.drop whole
    String.ofList (padded.take whole) ++ "." ++
      (if fraction.isEmpty then "0" else String.ofList fraction)

/-- The written form of the number nearest to `num / den`. -/
def text (num den : Nat) : String :=
  match nearest? num den with
  | none => "inf"
  | some b => if b.mantissa = 0 then "0.0" else (trim 400 (shortest b)).text

end Orchestration.Decimal
