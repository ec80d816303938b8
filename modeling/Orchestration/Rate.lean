/-!
# Orchestration.Rate

Percentages with one decimal.

* `roundDiv` — a quotient rounded to the nearest integer, a tie to the even one.
* `tenths`   — a percentage as a binary fraction of 53 digits, then in tenths.
-/

namespace Orchestration.Rate

/-- `num / den` rounded to the nearest integer; of two nearest ones the even one. -/
def roundDiv (num den : Nat) : Nat :=
  let q := num / den
  let r := num % den
  if den < 2 * r ∨ (2 * r = den ∧ q % 2 = 1) then q + 1 else q

/-- How many binary places a quotient needs to have 53 digits. -/
def places (num den : Nat) : Nat :=
  let start := 53 + Nat.log2 den
  start + 52 - Nat.log2 (num * Nat.pow 2 start / den)

/-- The percentage `part` of `whole`, in tenths; of nothing it is zero. -/
def tenths (part whole : Nat) : Nat :=
  if part = 0 ∨ whole = 0 then 0
  else
    let k := places (part * 100) whole
    roundDiv (roundDiv (part * 100 * Nat.pow 2 k) whole * 10) (Nat.pow 2 k)

end Orchestration.Rate
