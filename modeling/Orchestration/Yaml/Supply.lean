import Orchestration.Text.Layout
import Orchestration.Text.Utf8
import Orchestration.Yaml.Fault

/-!
# Orchestration.Yaml.Supply

How the text of a document is delivered.

A text is read in blocks while it is scanned, and each block is checked as a whole. So a fault far
behind does not hide one that comes earlier: everything before the block of the fault can be read.

* `Supply`         — the text that can be read, and what lies beyond it.
* `Supply.ofText`  — the supply of a text.
* `Supply.ofBytes` — the supply of a file.
-/

namespace Orchestration.Yaml

/-- A text that can be read, and the fault beyond it; without one it is the whole text. -/
structure Supply where
  text : List Char
  fault : Option Fault
  deriving DecidableEq

def isPrintable (c : Char) : Bool :=
  let n := c.toNat
  n == 0x9 || n == 0xA || n == 0xD || (0x20 ≤ n && n ≤ 0x7E) || n == 0x85 ||
    (0xA0 ≤ n && n ≤ 0xD7FF) || (0xE000 ≤ n && n ≤ 0xFFFD) || 0x10000 ≤ n

namespace Supply

/-- The length of a block in characters. Two blocks are read at the beginning. -/
def blockLength : Nat := 4096

/-- How many of `n` characters can be read when a fault follows them. -/
def whole (n : Nat) : Nat :=
  if n < 2 * blockLength then 0 else n / blockLength * blockLength

/-- The supply of a text whose line ends are line feeds. -/
def ofLines (text : List Char) : Supply :=
  let sound := text.takeWhile isPrintable
  if sound.length = text.length then ⟨text, none⟩
  else ⟨text.take (whole sound.length), some .malformed⟩

def ofText (text : List Char) : Supply := ofLines (Text.unifyLineEnds text)

/-- The least number of bytes that are decoded together. -/
def chunkLength : Nat := 8192

/-- The number of bytes before the first one that is ill-formed. Bytes of a character that is not
complete count. -/
def soundBytes (pending : Option Text.Utf8.Pending) : List UInt8 → Nat
  | [] => 0
  | b :: rest =>
    let e := Text.Utf8.step pending b.toNat
    if e.out.all Option.isSome then soundBytes e.pending rest + 1 else 0

/-- The characters at the beginning of bytes; a carriage return at the end may belong to a line end
that is not complete. -/
def decoded (bytes : List UInt8) : List Char :=
  let text := ((Text.Utf8.scan none bytes).takeWhile Option.isSome).filterMap id
  Text.unifyLineEnds (if text.getLast? = some '\r' then text.dropLast else text)

/-- How far bytes have been decoded: blocks that are complete, bytes, characters, and the size of the
last chunk in bytes and in characters. -/
structure Progress where
  blocks : Nat
  bytes : Nat
  chars : Nat
  lastBytes : Nat
  lastChars : Nat

/-- The blocks that can be read from bytes of which `sound` are well-formed. A block takes chunks
until it is complete. A chunk is larger when the last one had several bytes to a character. -/
def blocks (file : List UInt8) (sound : Nat) : Nat → Progress → Nat
  | 0, p => p.blocks
  | fuel + 1, p =>
    let wanted := blockLength * (p.blocks + 1) - p.chars
    if wanted = 0 then blocks file sound fuel { p with blocks := p.blocks + 1 }
    else
      let next := min file.length (p.bytes + max chunkLength (p.lastBytes * wanted / p.lastChars))
      if next = p.bytes || sound < next then p.blocks
      else
        let chars := (decoded (file.take next)).length
        blocks file sound fuel ⟨p.blocks, next, chars, next - p.bytes, chars - p.chars⟩

def ofBytes (bytes : List UInt8) : Supply :=
  match Text.Utf8.decode? bytes with
  | some text => ofText text
  | none =>
    let sound := soundBytes none bytes
    let n := blocks bytes sound (bytes.length + 1) ⟨0, 0, 0, 0, 0⟩
    let s := ofLines ((decoded (bytes.take sound)).take (whole (n * blockLength)))
    match s.fault with
    | some _ => s
    | none => { s with fault := some .undecodable }

end Supply

end Orchestration.Yaml
