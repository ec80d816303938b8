import Orchestration.Binary64
import Orchestration.Text.Blank
import Orchestration.Text.Digit

/-!
# Orchestration.Text.Numeral

Numbers as texts write them. White space around a number does not count, and digits of every script
do.

* `int?`  — a whole number in a base; in base ten it has at most `longest` digits.
* `real?` — a number with a point, an exponent, both or neither; or one of the words for infinity
  and no-number.
-/

namespace Orchestration.Text.Numeral

/-- How many decimal digits a whole number may have. -/
def longest : Nat := 4300

/-- The text with ASCII digits and blanks. A text that is ASCII already stays as it is. -/
def simplify (s : List Char) : List Char :=
  if s.all (·.toNat < 0x80) then s
  else
    s.map fun c =>
      if c.toNat < 0x7F then c
      else if isBlank c then ' '
      else
        match digit? c with
        | some d => Char.ofNat (48 + d)
        | none => '?'

def isSpace (c : Char) : Bool := c == ' ' || decide (9 ≤ c.toNat ∧ c.toNat ≤ 13)

/-- The text without white space around it. -/
def trim (s : List Char) : List Char :=
  ((s.dropWhile isSpace).reverse.dropWhile isSpace).reverse

/-- The sign of a number and the rest. -/
def cutSign : List Char → Bool × List Char
  | '-' :: rest => (true, rest)
  | '+' :: rest => (false, rest)
  | s => (false, s)

/-- The value of a digit or letter of a number. -/
def value? (c : Char) : Option Nat :=
  if c.isDigit then some (c.toNat - 48)
  else if c.isLower then some (c.toNat - 87)
  else if c.isUpper then some (c.toNat - 55)
  else none

def number (base : Nat) (s : List Char) : Nat :=
  s.foldl (fun n c => n * base + (value? c).getD 0) 0

/-- Whether characters are digits of a base. -/
def areDigits (base : Nat) (s : List Char) : Bool :=
  s.all fun c => (value? c).any fun d => decide (d < base)

/-- Drops the mark that a number of a base may begin with. -/
def dropMark (base : Nat) : List Char → List Char
  | '0' :: c :: rest =>
    let marks := if base = 2 then ['b', 'B'] else if base = 8 then ['o', 'O']
      else if base = 16 then ['x', 'X'] else []
    if marks.contains c then rest else '0' :: c :: rest
  | s => s

def signed (negative : Bool) (n : Nat) : Int := if negative then -(n : Int) else n

def int? (base : Nat) (s : List Char) : Option Int :=
  let (negative, s) := cutSign (trim (simplify s))
  let digits := dropMark base s
  if digits.isEmpty || !areDigits base digits || (base == 10 && decide (longest < digits.length))
  then none
  else some (signed negative (number base digits))

/-- Reads an exponent; without one it is zero. -/
def exponent? : List Char → Option Int
  | [] => some 0
  | e :: s =>
    let (negative, digits) := cutSign s
    if (e = 'e' ∨ e = 'E') ∧ !digits.isEmpty ∧ digits.all Char.isDigit then
      some (signed negative (number 10 digits))
    else none

def unsigned? (negative : Bool) (s : List Char) : Option Binary64 :=
  let whole := s.takeWhile Char.isDigit
  let (fraction, rest) := match s.dropWhile Char.isDigit with
    | '.' :: rest => (rest.takeWhile Char.isDigit, rest.dropWhile Char.isDigit)
    | rest => ([], rest)
  if whole.isEmpty && fraction.isEmpty then none
  else
    (exponent? rest).map fun e =>
      Binary64.ofScaled negative (number 10 (whole ++ fraction)) (e - fraction.length)

/-- Reads a number with or without a point. -/
def real? (s : List Char) : Option Binary64 :=
  let (negative, s) := cutSign (trim (simplify s))
  let word := String.ofList (s.map Char.toLower)
  if word = "inf" ∨ word = "infinity" then some (.infinite negative)
  else if word = "nan" then some .nan
  else unsigned? negative s

end Orchestration.Text.Numeral
