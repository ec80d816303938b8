import Orchestration.Text.Wide
import Orchestration.Yaml.Cursor

/-!
# Orchestration.Yaml.Token

The tokens of a document, and the state between two of them.

* `Token` — marks, scalars, and the starts and ends of blocks that indentation tells.
* `Scan`  — the open indentations, the flow depth, and the places where a key may have begun without
  a mark. A `:` turns such a place into the start of a key.
-/

namespace Orchestration.Yaml

/-- What a line that begins with `%` says. -/
inductive Directive where
  /-- The major version of the format. -/
  | version (major : Nat)
  /-- What the tags of a handle begin with. -/
  | handle (name lead : String)
  | other
  deriving DecidableEq

/-- A token. -/
inductive Token where
  | textEnd
  | directive (d : Directive)
  | documentStart
  | documentEnd
  | blockSequence
  | blockMapping
  | blockEnd
  | flowSequence
  | flowSequenceEnd
  | flowMapping
  | flowMappingEnd
  | blockEntry
  | flowEntry
  | key
  | value
  | alias (name : String)
  | anchor (name : String)
  | tag (handle : Option String) (suffix : String)
  | scalar (text : Text.Wide) (plain : Bool)
  deriving DecidableEq

/-- A place where a key may have begun: the number of its first token, and whether a `:` must
follow. -/
structure Candidate where
  number : Nat
  required : Bool
  index : Nat
  line : Nat
  column : Nat

/-- The state between two tokens: the tokens so far, the last one first, and their number. -/
structure Scan where
  cursor : Cursor
  tokens : List Token
  count : Nat
  flow : Nat
  indent : Int
  indents : List Int
  keyAllowed : Bool
  candidates : List (Nat × Candidate)

namespace Scan

def start (c : Cursor) : Scan := ⟨c, [], 0, 0, -1, [], true, []⟩

def emit (s : Scan) (t : Token) : Scan :=
  { s with tokens := t :: s.tokens, count := s.count + 1 }

/-- Puts a token in front of the token of a number. -/
def insert (s : Scan) (number : Nat) (t : Token) : Scan :=
  let later := s.count - number
  { s with
    tokens := s.tokens.take later ++ t :: s.tokens.drop later
    count := s.count + 1 }

/-- Forgets the candidate of the current flow depth; one that is required may not be forgotten. -/
def dropCandidate (s : Scan) : Except Fault Scan :=
  match s.candidates.lookup s.flow with
  | none => .ok s
  | some k =>
    if k.required then .error .malformed
    else .ok { s with candidates := s.candidates.filter fun (level, _) => level ≠ s.flow }

/-- Marks the next token as a possible beginning of a key. -/
def saveCandidate (s : Scan) : Except Fault Scan :=
  if s.keyAllowed then do
    let s ← s.dropCandidate
    let required := s.flow == 0 && s.indent == s.cursor.column
    let k : Candidate := ⟨s.count, required, s.cursor.index, s.cursor.line, s.cursor.column⟩
    .ok { s with candidates := (s.flow, k) :: s.candidates }
  else .ok s

/-- Whether a key can no longer have begun at a candidate: keys stay on one line and are short. -/
def isStale (s : Scan) (k : Candidate) : Bool :=
  k.line != s.cursor.line || decide (1024 < s.cursor.index - k.index)

/-- The candidates at which a key can have begun. -/
def fresh (s : Scan) : List (Nat × Candidate) := s.candidates.filter fun (_, k) => !s.isStale k

def dropStale (s : Scan) : Except Fault Scan :=
  if s.candidates.any fun (_, k) => s.isStale k && k.required then .error .malformed
  else .ok { s with candidates := s.fresh }

/-- The tokens that are settled: no token can be put in front of them any more. -/
def settled (s : Scan) : List Token :=
  (s.tokens.drop (s.count - (s.fresh.map fun (_, k) => k.number).foldl min s.count)).reverse

/-- Closes the blocks that are indented more than a column. -/
def unwind (s : Scan) (column : Int) : Scan :=
  if s.flow ≠ 0 then s
  else
    let closed := (s.indent :: s.indents).takeWhile fun i => decide (column < i)
    let left := (s.indent :: s.indents).dropWhile fun i => decide (column < i)
    { s with
      tokens := List.replicate closed.length .blockEnd ++ s.tokens
      count := s.count + closed.length
      indent := left.headD (-1)
      indents := left.drop 1 }

/-- Opens a block at a column that is indented more than the innermost one. -/
def deepen (s : Scan) (column : Nat) : Option Scan :=
  if s.indent < column then some { s with indents := s.indent :: s.indents, indent := column }
  else none

/-- Goes on to the next token: past blanks, comments and line ends. Outside flow collections a new
line may begin a key. -/
def skipSpace : Nat → Scan → Scan
  | 0, s => s
  | fuel + 1, s =>
    match s.cursor.skipBlanks.skipComment.lineBreak with
    | ([], c) => { s with cursor := c }
    | (_ :: _, c) =>
      skipSpace fuel { s with cursor := c, keyAllowed := s.keyAllowed || s.flow == 0 }

def pass (s : Scan) (n : Nat) : Scan := { s with cursor := s.cursor.skip n }

def finishBlocks (s : Scan) : Except Fault Scan :=
  (s.unwind (-1)).dropCandidate.map fun s => { s with keyAllowed := false }

def finish (s : Scan) : Except Fault Scan := s.finishBlocks.map (·.emit .textEnd)

def separator (s : Scan) (t : Token) : Except Fault Scan :=
  s.finishBlocks.map fun s => (s.pass 3).emit t

def flowStart (s : Scan) (t : Token) : Except Fault Scan := do
  let s ← s.saveCandidate
  .ok ({ s with flow := s.flow + 1, keyAllowed := true }.pass 1 |>.emit t)

def flowEnd (s : Scan) (t : Token) : Except Fault Scan := do
  let s ← s.dropCandidate
  if s.flow = 0 then .error (s.pass 1).cursor.broken
  else .ok ({ s with flow := s.flow - 1, keyAllowed := false }.pass 1 |>.emit t)

def flowEntry (s : Scan) : Except Fault Scan := do
  let s ← { s with keyAllowed := true }.dropCandidate
  .ok (s.pass 1 |>.emit .flowEntry)

/-- Opens a block where outside flow collections a mark stands deeper than before. -/
def openBlock (s : Scan) (t : Token) : Except Fault Scan :=
  if s.flow ≠ 0 then .ok s
  else if !s.keyAllowed then .error .malformed
  else
    match s.deepen s.cursor.column with
    | some s => .ok (s.emit t)
    | none => .ok s

def blockEntry (s : Scan) : Except Fault Scan := do
  let s ← s.openBlock .blockSequence
  let s ← { s with keyAllowed := true }.dropCandidate
  .ok (s.pass 1 |>.emit .blockEntry)

def key (s : Scan) : Except Fault Scan := do
  let s ← s.openBlock .blockMapping
  let s ← { s with keyAllowed := s.flow == 0 }.dropCandidate
  .ok (s.pass 1 |>.emit .key)

/-- The colon of a value. The candidate of this flow depth, if there is one, was the beginning of
its key. -/
def value (s : Scan) : Except Fault Scan := do
  match s.candidates.lookup s.flow with
  | some k =>
    let s := { s with candidates := s.candidates.filter fun (level, _) => level ≠ s.flow }
    let s := s.insert k.number .key
    let s := if s.flow = 0 then
        match s.deepen k.column with
        | some s => s.insert k.number .blockMapping
        | none => s
      else s
    .ok ({ s with keyAllowed := false }.pass 1 |>.emit .value)
  | none =>
    let s ← s.openBlock .blockMapping
    let s ← { s with keyAllowed := s.flow == 0 }.dropCandidate
    .ok (s.pass 1 |>.emit .value)

end Scan

end Orchestration.Yaml
