import Orchestration.Decimal

/-!
# Orchestration.Binary64

Binary floating-point numbers of 64 bits, with sign, infinities and no-number.

* `Binary64.ofRatio`  — the number nearest to a quotient.
* `Binary64.ofScaled` — the number nearest to `digits · 10 ^ power`.
* `add`, `mul`        — the exact result, rounded once.
* `text`              — the shortest decimal that is read back.
-/

namespace Orchestration

/-- A number; a finite one is `units · 2 ^ -1074`. -/
inductive Binary64 where
  | nan
  | infinite (negative : Bool)
  | finite (negative : Bool) (units : Nat)
  deriving DecidableEq

namespace Binary64

def unit : Nat := Nat.pow 2 1074

/-- The number nearest to `num / den`. -/
def ofRatio (negative : Bool) (num den : Nat) : Binary64 :=
  match Decimal.nearest? num den with
  | none => .infinite negative
  | some b => .finite negative (b.mantissa * Nat.pow 2 b.exponent)

/-- The number nearest to `digits · 10 ^ power`. Powers that are far out of range are not computed:
the first digit tells that the number is infinite or zero. -/
def ofScaled (negative : Bool) (digits : Nat) (power : Int) : Binary64 :=
  let lead : Int := (toString digits).length + power
  if digits = 0 then .finite negative 0
  else if 400 < lead then .infinite negative
  else if lead < -400 then .finite negative 0
  else
    match power with
    | .ofNat p => ofRatio negative (digits * Nat.pow 10 p) 1
    | .negSucc p => ofRatio negative digits (Nat.pow 10 (p + 1))

def neg : Binary64 → Binary64
  | .nan => .nan
  | .infinite s => .infinite !s
  | .finite s n => .finite (!s) n

/-- The sum. Zeros of different signs, and numbers that cancel, give the zero without sign. -/
def add : Binary64 → Binary64 → Binary64
  | .nan, _ => .nan
  | _, .nan => .nan
  | .infinite s, .infinite t => if s = t then .infinite s else .nan
  | .infinite s, .finite _ _ => .infinite s
  | .finite _ _, .infinite t => .infinite t
  | .finite s m, .finite t n =>
    if s = t then ofRatio s (m + n) unit
    else if m = n then .finite false 0
    else if n < m then ofRatio s (m - n) unit
    else ofRatio t (n - m) unit

def mul : Binary64 → Binary64 → Binary64
  | .nan, _ => .nan
  | _, .nan => .nan
  | .infinite s, .infinite t => .infinite (s != t)
  | .infinite s, .finite t n => if n = 0 then .nan else .infinite (s != t)
  | .finite s m, .infinite t => if m = 0 then .nan else .infinite (s != t)
  | .finite s m, .finite t n => ofRatio (s != t) (m * n) (unit * unit)

/-- Whether a number is zero, with either sign. -/
def isZero : Binary64 → Bool
  | .finite _ n => n == 0
  | _ => false

/-- The shortest decimal that is read back as the number. -/
def text : Binary64 → String
  | .nan => "nan"
  | .infinite s => if s then "-inf" else "inf"
  | .finite s n => (if s then "-" else "") ++ Decimal.text n unit

end Binary64

end Orchestration
