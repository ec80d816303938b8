import Orchestration.Yaml.Fault

/-!
# Orchestration.Yaml.Cursor

Places in a text.

* `Cursor`    — what is left of the text, with line and column.
* `need`      — the fault that is met when more characters are looked at than can be had.
* `run`       — the longest run of characters with a property.
* `lineBreak` — a line end as it counts in a scalar.
-/

namespace Orchestration.Yaml

/-- A place in a text of some size. `beyond` is the fault that lies behind the text, if there is
one. -/
structure Cursor where
  rest : List Char
  index : Nat
  line : Nat
  column : Nat
  size : Nat
  beyond : Option Fault

def isBreak (c : Char) : Bool := c == '\n' || c == '\x85' || c == '\u2028' || c == '\u2029'

/-- What stands for the end of the text. -/
def endMark : Char := '\x00'

/-- A character that ends a line, or the end of the text. -/
def endsLine (c : Char) : Bool := c == endMark || isBreak c

/-- A character that ends a field of a line. -/
def endsField (c : Char) : Bool := c == ' ' || endsLine c

def endsWord (c : Char) : Bool := c == '\t' || endsField c

namespace Cursor

def start (text : List Char) (beyond : Option Fault) : Cursor := ⟨text, 0, 0, 0, text.length, beyond⟩

def ahead (c : Cursor) (n : Nat) : Char := (c.rest.drop n).headD endMark

def peek (c : Cursor) : Char := c.rest.headD endMark

/-- Fuel for a loop that takes a character with each step: one more than the characters left. -/
def fuel (c : Cursor) : Nat := c.size - c.index + 1

/-- Looks at the next `n` characters. When not all of them can be had, the fault behind the text is
met; at the end of a whole text there is nothing to meet. -/
def need (c : Cursor) (n : Nat) : Except Fault Unit :=
  match c.beyond with
  | none => .ok ()
  | some f => if (c.rest.take n).length < n then .error f else .ok ()

/-- What is wrong where a rule is broken. At the end of a text that is not whole it is the fault
behind the text. -/
def broken (c : Cursor) : Fault := if c.rest.isEmpty then c.beyond.getD .malformed else .malformed

def advance (c : Cursor) : Cursor :=
  match c.rest with
  | [] => c
  | x :: rest =>
    if isBreak x then { c with rest, index := c.index + 1, line := c.line + 1, column := 0 }
    else
      { c with rest, index := c.index + 1, column := if x = '\uFEFF' then c.column else c.column + 1 }

def skip : Nat → Cursor → Cursor
  | 0, c => c
  | n + 1, c => skip n c.advance

/-- The longest run of characters with a property, and the place after it. -/
def run (c : Cursor) (p : Char → Bool) : List Char × Cursor :=
  let taken := c.rest.takeWhile p
  (taken, c.skip taken.length)

def skipBlanks (c : Cursor) : Cursor := (c.run (· == ' ')).2

/-- The place after a comment, if one begins here. -/
def skipComment (c : Cursor) : Cursor := if c.peek = '#' then (c.run fun x => !isBreak x).2 else c

/-- A line end as it counts in a scalar, and the place after it; nothing when there is none. -/
def lineBreak (c : Cursor) : List Char × Cursor :=
  match c.rest with
  | [] => ([], c)
  | x :: _ =>
    if x = '\n' ∨ x = '\x85' then (['\n'], c.advance)
    else if isBreak x then ([x], c.advance)
    else ([], c)

/-- The rest of a line that holds blanks and a comment only, and its end. -/
def ignoredLine (c : Cursor) : Except Fault Cursor :=
  let c := c.skipBlanks.skipComment
  if endsLine c.peek then .ok c.lineBreak.2 else .error c.broken

/-- Whether a mark of three characters between documents stands here. -/
def atMark (c : Cursor) (x : Char) : Bool :=
  c.ahead 0 == x && c.ahead 1 == x && c.ahead 2 == x && endsWord (c.ahead 3)

/-- Looks at what may be a mark of three characters. If it is, the character behind it counts. -/
def needMark (c : Cursor) : Except Fault Unit := do
  c.need 3
  if c.rest.take 3 = ['-', '-', '-'] ∨ c.rest.take 3 = ['.', '.', '.'] then c.need 4 else .ok ()

/-- Whether a mark between documents stands here. -/
def atSeparator (c : Cursor) : Except Fault Bool := do
  c.needMark
  .ok (c.atMark '-' || c.atMark '.')

end Cursor

end Orchestration.Yaml
