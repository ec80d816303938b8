import Orchestration.Yaml.Token

/-!
# Orchestration.Yaml.Scan.Block

Scalars whose lines stand in an indented block, kept as they are after `|`, folded after `>`.
-/

namespace Orchestration.Yaml

/-- How the line ends after a block scalar are treated. -/
inductive Chomp where
  | clip
  | strip
  | keep
  deriving DecidableEq

namespace Cursor

/-- Reads the indicators of a block scalar, in either order. -/
def indicators (c : Cursor) : Except Fault (Chomp × Option Nat × Cursor) :=
  let chomp := fun (c : Cursor) =>
    if c.peek = '+' then (Chomp.keep, c.advance)
    else if c.peek = '-' then (Chomp.strip, c.advance)
    else (Chomp.clip, c)
  let digit := fun (c : Cursor) =>
    if c.peek.isDigit then (some (c.peek.toNat - 48), c.advance) else (none, c)
  let (first, c) := chomp c
  let (width, c) := digit c
  let (last, c) := if first = .clip && width.isSome then chomp c else (first, c)
  if width = some 0 then .error .malformed
  else if endsField c.peek then .ok (last, width, c)
  else .error c.broken

/-- The empty lines before a block scalar's text, and its deepest indentation. -/
def leadingBreaks : Nat → Cursor → Nat → List Char × Nat × Cursor
  | 0, c, deepest => ([], deepest, c)
  | fuel + 1, c, deepest =>
    if c.peek = ' ' then
      let c := c.advance
      leadingBreaks fuel c (max deepest c.column)
    else if isBreak c.peek then
      let (b, c) := c.lineBreak
      let (breaks, deepest, c) := leadingBreaks fuel c deepest
      (b ++ breaks, deepest, c)
    else ([], deepest, c)

/-- The place after at most the indentation of a line. -/
def toIndent (indent : Nat) (c : Cursor) : Cursor :=
  let blanks := (c.rest.takeWhile (· == ' ')).length
  c.skip (min blanks (indent - c.column))

def innerBreaks (indent : Nat) : Nat → Cursor → List Char × Cursor
  | 0, c => ([], c)
  | fuel + 1, c =>
    let c := toIndent indent c
    if isBreak c.peek then
      let (b, c) := c.lineBreak
      let (breaks, c) := innerBreaks indent fuel c
      (b ++ breaks, c)
    else ([], c)

/-- The lines of a block scalar from a line of text on: the text, the last line end, the empty lines
after it. `parts` holds the text so far, the last part first. -/
def blockLines (folded : Bool) (indent : Nat) : Nat → Cursor → List (List Char) → List Char →
    List Char → List Char × List Char × List Char × Cursor
  | 0, c, parts, lineEnd, breaks => (parts.reverse.flatten, lineEnd, breaks, c)
  | fuel + 1, c, parts, lineEnd, breaks =>
    if c.column = indent && c.peek ≠ endMark then
      let indented := c.peek == ' ' || c.peek == '\t'
      let (line, c) := c.run fun x => !isBreak x
      let parts := line :: breaks :: parts
      let (lineEnd, c) := c.lineBreak
      let (breaks, c) := innerBreaks indent c.fuel c
      if c.column = indent && c.peek ≠ endMark then
        let join :=
          if folded && lineEnd == ['\n'] && !indented && c.peek ≠ ' ' && c.peek ≠ '\t' then
            if breaks.isEmpty then [' '] else []
          else lineEnd
        blockLines folded indent fuel c (join :: parts) lineEnd breaks
      else (parts.reverse.flatten, lineEnd, breaks, c)
    else (parts.reverse.flatten, lineEnd, breaks, c)

end Cursor

def Scan.block (s : Scan) (folded : Bool) : Except Fault Scan := do
  let s ← { s with keyAllowed := true }.dropCandidate
  let (chomp, width, c) ← s.cursor.advance.indicators
  let c ← c.ignoredLine
  let least := max 1 (s.indent + 1).toNat
  let fuel := c.fuel
  let (breaks, indent, c) :=
    match width with
    | none =>
      let (breaks, deepest, c) := c.leadingBreaks fuel 0
      (breaks, max least deepest, c)
    | some n =>
      let indent := least + n - 1
      let (breaks, c) := c.innerBreaks indent fuel
      (breaks, indent, c)
  let (text, lineEnd, breaks, c) := c.blockLines folded indent fuel [] [] breaks
  let text := text ++ (if chomp = .strip then [] else lineEnd) ++
    (if chomp = .keep then breaks else [])
  .ok ({ s with cursor := c }.emit (.scalar (String.ofList text) false))

end Orchestration.Yaml
