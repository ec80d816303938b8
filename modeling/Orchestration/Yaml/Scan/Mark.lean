import Orchestration.Text.Numeral
import Orchestration.Text.Utf8
import Orchestration.Yaml.Token

/-!
# Orchestration.Yaml.Scan.Mark

Names that mark a part of a document: anchors, aliases and tags; and directives, which say what the
tags of a handle begin with.
-/

namespace Orchestration.Yaml

open Text (Utf8.decode?)

def isNameChar (c : Char) : Bool := c.isAlphanum || c == '-' || c == '_'

/-- Characters of tags that stand for themselves. -/
def isTagChar (c : Char) : Bool := c.isAlphanum || "-;/?:@&=+$,_.!~*()[]\x27".toList.contains c

def hexValue? (c : Char) : Option Nat :=
  if c.isDigit then some (c.toNat - 48)
  else if 'a' ≤ c ∧ c ≤ 'f' then some (c.toNat - 87)
  else if 'A' ≤ c ∧ c ≤ 'F' then some (c.toNat - 55)
  else none

namespace Cursor

/-- The bytes that escapes with percent signs write. `missing` is the fault of an escape that the
text ends in. -/
def escapedBytes (missing : Fault) : List Char → Except Fault (List UInt8)
  | '%' :: a :: b :: rest =>
    match hexValue? a, hexValue? b with
    | some x, some y => (escapedBytes missing rest).map (UInt8.ofNat (16 * x + y) :: ·)
    | _, _ => .error .malformed
  | ['%', a] => .error (if (hexValue? a).isSome then missing else .malformed)
  | ['%'] => .error missing
  | _ => .ok []

/-- The text of the part of a tag that follows the handle. It may not be empty. -/
def tagText : Nat → Cursor → List Char → Except Fault (String × Cursor)
  | 0, _, _ => .error .malformed
  | fuel + 1, c, done => do
    let (taken, c) := c.run isTagChar
    let done := done ++ taken
    if c.peek = '%' then
      let bytes ← escapedBytes (c.beyond.getD .malformed) c.rest
      let c := c.skip (3 * bytes.length)
      match Utf8.decode? bytes with
      | some more => tagText fuel c (done ++ more)
      | none => .error c.broken
    else if done.isEmpty then .error c.broken
    else .ok (String.ofList done, c)

/-- The part of a tag that follows the handle. -/
def tagSuffix (c : Cursor) : Except Fault (String × Cursor) := tagText c.fuel c []

/-- A handle: `!`, when a blank follows, or a name between two exclamation marks. -/
def tagHandle (c : Cursor) : Except Fault (String × Cursor) :=
  if c.peek ≠ '!' then .error c.broken
  else if c.ahead 1 = ' ' then .ok ("!", c.advance)
  else
    let (name, c) := c.advance.run isNameChar
    if c.peek = '!' then .ok ("!" ++ String.ofList name ++ "!", c.advance) else .error c.broken

/-- A tag: its handle, if it has one, and the rest. -/
def tagParts (c : Cursor) : Except Fault (Option String × String × Cursor) := do
  c.need 2
  if c.ahead 1 = '<' then
    let (suffix, c) ← (c.skip 2).tagSuffix
    if c.peek = '>' then .ok (none, suffix, c.advance) else .error c.broken
  else if endsWord (c.ahead 1) then .ok (none, "!", c.advance)
  else
    let word := c.advance.rest.takeWhile fun x => !endsField x
    let named := word.contains '!'
    c.need (if named then 2 else word.length + 2)
    let (handle, c) ← if named then c.tagHandle else .ok ("!", c.advance)
    let (suffix, c) ← c.tagSuffix
    .ok (some handle, suffix, c)

def versionPart (c : Cursor) : Except Fault (Nat × Cursor) := do
  let (digits, c) := c.run Char.isDigit
  c.need 1
  if digits.isEmpty then .error .malformed
  else if Text.Numeral.longest < digits.length then .error .outOfRange
  else .ok (Text.Numeral.number 10 digits, c)

def version (c : Cursor) : Except Fault (Directive × Cursor) := do
  let (major, c) ← c.skipBlanks.versionPart
  if c.peek ≠ '.' then .error c.broken
  else
    let (_, c) ← c.advance.versionPart
    if endsField c.peek then .ok (.version major, c) else .error c.broken

/-- A handle and what its tags begin with. -/
def handle (c : Cursor) : Except Fault (Directive × Cursor) := do
  let (name, c) ← c.skipBlanks.tagHandle
  if c.peek ≠ ' ' then .error c.broken
  else
    let (lead, c) ← c.skipBlanks.tagSuffix
    if endsField c.peek then .ok (.handle name lead, c) else .error c.broken

/-- What a directive says, after its percent sign. -/
def directive (c : Cursor) : Except Fault (Directive × Cursor) :=
  let (name, c) := c.run isNameChar
  if name.isEmpty || !endsField c.peek then .error c.broken
  else if String.ofList name = "YAML" then c.version
  else if String.ofList name = "TAG" then c.handle
  else .ok (.other, (c.run fun x => !isBreak x).2)

end Cursor

namespace Scan

/-- The name of an alias or anchor after its mark. -/
def named (s : Scan) (t : String → Token) : Except Fault Scan := do
  let s ← s.saveCandidate
  let (name, c) := s.cursor.advance.run isNameChar
  if name.isEmpty || !(endsWord c.peek || "?:,]\x7d%@\x60".toList.contains c.peek) then
    .error c.broken
  else .ok ({ s with cursor := c, keyAllowed := false }.emit (t (String.ofList name)))

def tag (s : Scan) : Except Fault Scan := do
  let s ← s.saveCandidate
  let (handle, suffix, c) ← s.cursor.tagParts
  if endsField c.peek then
    .ok ({ s with cursor := c, keyAllowed := false }.emit (.tag handle suffix))
  else .error c.broken

def directive (s : Scan) : Except Fault Scan := do
  let s ← s.finishBlocks
  let (d, c) ← s.cursor.advance.directive
  let c ← c.ignoredLine
  .ok ({ s with cursor := c }.emit (.directive d))

end Scan

end Orchestration.Yaml
