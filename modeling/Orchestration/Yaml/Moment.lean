import Orchestration.Text.Layout
import Orchestration.Text.Numeral
import Orchestration.Yaml.Fault

/-!
# Orchestration.Yaml.Moment

Dates, with or without a time of day.

* `Moment.ofText?` — reads the parts of a date; whether they exist does not matter.
* `Moment.text`    — the written form of a date that exists.
-/

namespace Orchestration.Yaml

/-- A time of day: the digits of the fraction of a second, and the offset from universal time in
minutes. -/
structure Clock where
  hour : Nat
  minute : Nat
  second : Nat
  fraction : List Char
  offset : Option Int
  deriving DecidableEq

/-- The parts of a date. -/
structure Moment where
  year : Nat
  month : Nat
  day : Nat
  clock : Option Clock
  deriving DecidableEq

namespace Moment

/-- Reads digits, between `least` and `most` of them. -/
def takeDigits (least most : Nat) (s : List Char) : Option (Nat × List Char) :=
  let ds := (s.takeWhile Char.isDigit).take most
  if ds.length < least then none else some (Text.Numeral.number 10 ds, s.drop ds.length)

def after? (c : Char) : List Char → Option (List Char)
  | x :: rest => if x = c then some rest else none
  | [] => none

/-- A blank between the parts of a date. -/
def isGap (c : Char) : Bool := c == ' ' || c == '\t'

def offset? (s : List Char) : Option (Option Int) :=
  match s.dropWhile isGap with
  | [] => if s.isEmpty then some none else none
  | ['Z'] => some (some 0)
  | sign :: rest =>
    if sign = '+' ∨ sign = '-' then do
      let (hours, rest) ← takeDigits 1 2 rest
      let minutes ← match rest with
        | [] => some 0
        | ':' :: rest => do
          let (m, rest) ← takeDigits 2 2 rest
          if rest.isEmpty then some m else none
        | _ => none
      some (some (Text.Numeral.signed (sign = '-') (hours * 60 + minutes)))
    else none

def clock? (s : List Char) : Option Clock := do
  let (hour, rest) ← takeDigits 1 2 s
  let rest ← after? ':' rest
  let (minute, rest) ← takeDigits 2 2 rest
  let rest ← after? ':' rest
  let (second, rest) ← takeDigits 2 2 rest
  let (fraction, rest) := match rest with
    | '.' :: rest => (rest.takeWhile Char.isDigit, rest.dropWhile Char.isDigit)
    | rest => ([], rest)
  let offset ← offset? rest
  some ⟨hour, minute, second, fraction, offset⟩

/-- The rest after the mark or the blanks before a time of day. -/
def beforeClock? : List Char → Option (List Char)
  | c :: rest =>
    if c = 'T' ∨ c = 't' then some rest
    else if isGap c then some (rest.dropWhile isGap)
    else none
  | [] => none

def ofText? (s : List Char) : Option Moment := do
  let (year, rest) ← takeDigits 4 4 s
  let rest ← after? '-' rest
  let (month, rest) ← takeDigits 1 2 rest
  let rest ← after? '-' rest
  let (day, rest) ← takeDigits 1 2 rest
  if rest.isEmpty then some ⟨year, month, day, none⟩
  else
    let clock ← clock? (← beforeClock? rest)
    some ⟨year, month, day, some clock⟩

def daysIn (year month : Nat) : Nat :=
  if month = 2 then
    if (year % 4 = 0 ∧ year % 100 ≠ 0) ∨ year % 400 = 0 then 29 else 28
  else if month = 4 ∨ month = 6 ∨ month = 9 ∨ month = 11 then 30
  else 31

def isDay (year month day : Nat) : Bool :=
  decide (1 ≤ year) && decide (1 ≤ month) && decide (month ≤ 12) && decide (1 ≤ day) &&
    decide (day ≤ daysIn year month)

/-- Whether a time of day exists; an offset is shorter than a day. -/
def isTime (c : Clock) : Bool :=
  decide (c.hour < 24) && decide (c.minute < 60) && decide (c.second < 60) &&
    c.offset.all fun n => decide (n.natAbs < 1440)

def zeros (width n : Nat) : String :=
  Text.fill (width - (toString n).length) '0' ++ toString n

def offsetText : Option Int → String
  | none => ""
  | some n =>
    (if n < 0 then "-" else "+") ++ zeros 2 (n.natAbs / 60) ++ ":" ++ zeros 2 (n.natAbs % 60)

/-- The written form of a fraction of a second, of which six digits count. -/
def fractionText (digits : List Char) : String :=
  let six := digits.take 6
  let n := Text.Numeral.number 10 (six ++ List.replicate (6 - six.length) '0')
  if n = 0 then "" else "." ++ zeros 6 n

/-- The written form of a time of day. -/
def clockText (c : Clock) : String :=
  zeros 2 c.hour ++ ":" ++ zeros 2 c.minute ++ ":" ++ zeros 2 c.second ++
    fractionText c.fraction ++ offsetText c.offset

/-- The written form of a date that exists. -/
def text (m : Moment) : Except Fault String :=
  if isDay m.year m.month m.day && m.clock.all isTime then
    .ok (zeros 4 m.year ++ "-" ++ zeros 2 m.month ++ "-" ++ zeros 2 m.day ++
      match m.clock with
      | none => ""
      | some c => " " ++ clockText c)
  else .error .outOfRange

end Moment

end Orchestration.Yaml
