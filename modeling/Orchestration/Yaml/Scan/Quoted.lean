import Orchestration.Text.Wide
import Orchestration.Yaml.Scan.Mark

/-!
# Orchestration.Yaml.Scan.Quoted

Scalars in quotation marks. Between single marks a mark is written twice; between double ones a
backslash begins an escape, which may write one half of a surrogate pair.
-/

namespace Orchestration.Yaml

/-- The characters that a backslash stands for. -/
def escapes : List (Char × Char) :=
  [('0', '\x00'), ('a', '\x07'), ('b', '\x08'), ('t', '\t'), ('\t', '\t'), ('n', '\n'),
    ('v', '\x0b'), ('f', '\x0c'), ('r', '\r'), ('e', '\x1b'), (' ', ' '), ('\x22', '\x22'),
    ('\x5c', '\x5c'), ('/', '/'), ('N', '\x85'), ('_', '\xa0'), ('L', '\u2028'), ('P', '\u2029')]

/-- The numbers of digits after the letters that announce a code point. -/
def codeLengths : List (Char × Nat) := [('x', 2), ('u', 4), ('U', 8)]

def codePoint (n : Nat) : Except Fault Text.Point :=
  if 0x7FFFFFFF < n then .error .tooLarge
  else if 0x10FFFF < n then .error .outOfRange
  else if Text.isHalfNumber n then .ok (Text.half n)
  else .ok (Char.ofNat n)

namespace Cursor

/-- The empty lines inside a quoted scalar. -/
def quotedBreaks : Nat → Cursor → Except Fault (List Char × Cursor)
  | 0, _ => .error .malformed
  | fuel + 1, c => do
    if ← c.atSeparator then .error .malformed
    else
      match (c.run fun x => x == ' ' || x == '\t').2.lineBreak with
      | ([], c) => .ok ([], c)
      | (b, c) => (quotedBreaks fuel c).map fun (breaks, c) => (b ++ breaks, c)

/-- White space inside a quoted scalar. A line end becomes a blank, or the empty lines after it. -/
def quotedSpace (c : Cursor) : Except Fault (List Char × Cursor) := do
  let (blanks, c) := c.run fun x => x == ' ' || x == '\t'
  if c.peek = endMark then .error c.broken
  else
    match c.lineBreak with
    | ([], c) => .ok (blanks, c)
    | (b, c) => do
      let (breaks, c) ← quotedBreaks c.fuel c
      let lead := if b = ['\n'] then if breaks.isEmpty then [' '] else [] else b
      .ok (lead ++ breaks, c)

def escaped (c : Cursor) : Except Fault (List Text.Point × Cursor) := do
  match escapes.lookup c.peek, codeLengths.lookup c.peek with
  | some x, _ => .ok ([x], c.advance)
  | none, some n =>
    let digits := c.advance.rest.take n
    match digits.mapM hexValue? with
    | some values =>
      if values.length < n then .error (c.skip (n + 1)).broken
      else do
        let x ← codePoint (values.foldl (fun v d => v * 16 + d) 0)
        .ok ([x], c.skip (n + 1))
    | none => .error .malformed
  | none, none =>
    match c.lineBreak with
    | ([], _) => .error c.broken
    | (_, c) => (quotedBreaks c.fuel c).map fun (breaks, c) => (breaks.map .char, c)

/-- The text up to the closing quotation mark. `parts` holds what has been read, the last part
first. -/
def quotedText (quote : Char) :
    Nat → Cursor → List (List Text.Point) → Except Fault (List Text.Point × Cursor)
  | 0, _, _ => .error .malformed
  | fuel + 1, c, parts =>
    let (run, c) := c.run fun x => !(endsWord x || x == '\x22' || x == '\x27' || x == '\x5c')
    let parts := run.map .char :: parts
    let x := c.peek
    if x = quote then
      if quote = '\x27' && c.ahead 1 == '\x27' then
        quotedText quote fuel (c.skip 2) (['\x27'] :: parts)
      else .ok (parts.reverse.flatten, c.advance)
    else if endsWord x then do
      let (space, c) ← c.quotedSpace
      quotedText quote fuel c (space.map .char :: parts)
    else if x = '\x5c' && quote = '\x22' then do
      let (more, c) ← c.advance.escaped
      quotedText quote fuel c (more :: parts)
    else quotedText quote fuel c.advance ([x] :: parts)

end Cursor

def Scan.quoted (s : Scan) (quote : Char) : Except Fault Scan := do
  let s ← s.saveCandidate
  let (text, c) ← s.cursor.advance.quotedText quote s.cursor.fuel []
  .ok ({ s with cursor := c, keyAllowed := false }.emit (.scalar (.ofPoints text) false))

end Orchestration.Yaml
