import Orchestration.Yaml.Token

/-!
# Orchestration.Yaml.Scan.Plain

Scalars without quotation marks. They may go on over several lines.
-/

namespace Orchestration.Yaml

/-- How many characters of a plain scalar stand here without a break. -/
def plainLength (inFlow : Bool) : List Char → Nat
  | [] => 0
  | x :: rest =>
    let next := rest.headD endMark
    if endsWord x || (x == ':' && (endsWord next || (inFlow && ",[]{}".toList.contains next))) ||
        (inFlow && ",?[]{}".toList.contains x)
    then 0
    else plainLength inFlow rest + 1

namespace Cursor

/-- Line ends and blanks after the first line end inside a plain scalar; `none` when a mark between
documents follows. -/
def plainBreaks : Nat → Cursor → Except Fault (Option (List Char) × Cursor)
  | 0, c => .ok (some [], c)
  | fuel + 1, c => do
    if c.peek = ' ' then plainBreaks fuel c.advance
    else
      match c.lineBreak with
      | ([], c) => .ok (some [], c)
      | (b, c) =>
        if ← c.atSeparator then .ok (none, c)
        else
          let (breaks, c) ← plainBreaks fuel c
          .ok (breaks.map (b ++ ·), c)

/-- White space inside a plain scalar, and whether it holds a line end. It is empty when the scalar
ends here. -/
def plainSpace (c : Cursor) : Except Fault (List Char × Bool × Cursor) := do
  let (blanks, c) := c.run (· == ' ')
  match c.lineBreak with
  | ([], c) => .ok (blanks, false, c)
  | (b, c) =>
    if ← c.atSeparator then .ok ([], true, c)
    else
      match ← plainBreaks c.fuel c with
      | (none, c) => .ok ([], true, c)
      | (some breaks, c) =>
        let lead := if b = ['\n'] then if breaks.isEmpty then [' '] else [] else b
        .ok (lead ++ breaks, true, c)

/-- The text of a plain scalar, and whether a line end was the last thing read. `parts` holds the
text so far, the last part first. -/
def plainText (inFlow : Bool) (indent : Int) :
    Nat → Cursor → Bool → List (List Char) → List Char → Except Fault (List Char × Bool × Cursor)
  | 0, c, broken, parts, _ => .ok (parts.reverse.flatten, broken, c)
  | fuel + 1, c, broken, parts, space => do
    let n := if c.peek = '#' then 0 else plainLength inFlow c.rest
    if n = 0 then .ok (parts.reverse.flatten, broken, c)
    else
      let parts := c.rest.take n :: space :: parts
      let c := c.skip n
      c.need (if c.peek = ':' then 2 else 1)
      let (space, broken, c) ← plainSpace c
      if space.isEmpty || c.peek = '#' || (!inFlow && decide ((c.column : Int) < indent)) then
        .ok (parts.reverse.flatten, broken, c)
      else plainText inFlow indent fuel c broken parts space

end Cursor

namespace Scan

def plain (s : Scan) : Except Fault Scan := do
  let s ← s.saveCandidate
  let (text, broken, c) ←
    s.cursor.plainText (s.flow != 0) (s.indent + 1) s.cursor.fuel false [] []
  .ok ({ s with cursor := c, keyAllowed := broken }.emit (.scalar (String.ofList text) true))

def startsPlain (s : Scan) : Bool :=
  let x := s.cursor.peek
  let next := s.cursor.ahead 1
  !(endsWord x || "-?:,[]{}#&*!|>\x27\x22%@\x60".toList.contains x) ||
    (!endsWord next && (x == '-' || (s.flow == 0 && (x == '?' || x == ':'))))

end Scan

end Orchestration.Yaml
