/-!
# Orchestration.Text.Base64

Bytes as sixty-four characters.

* `decode?` — the bytes of a text. Characters of no meaning are skipped; the groups of four end with
  the text or with padding.
-/

namespace Orchestration.Text.Base64

/-- The value of a character, if it has one. -/
def value? (c : Char) : Option Nat :=
  if c.isUpper then some (c.toNat - 65)
  else if c.isLower then some (c.toNat - 71)
  else if c.isDigit then some (c.toNat + 4)
  else if c = '+' then some 62
  else if c = '/' then some 63
  else none

/-- Reads on. `place` characters of a group have been read, which leave the bits `left`, and `pads`
signs of padding after them. -/
def read (place left pads : Nat) : List Char → Option (List UInt8)
  | [] => if place = 0 then some [] else none
  | c :: rest =>
    if c = '=' then
      if 2 ≤ place then
        if 4 ≤ place + pads + 1 then some [] else read place left (pads + 1) rest
      else read place left pads rest
    else
      match value? c with
      | none => read place left pads rest
      | some v =>
        match place with
        | 0 => read 1 v 0 rest
        | 1 => (read 2 (v % 16) 0 rest).map (UInt8.ofNat (left * 4 + v / 16) :: ·)
        | 2 => (read 3 (v % 4) 0 rest).map (UInt8.ofNat (left * 16 + v / 4) :: ·)
        | _ => (read 0 0 0 rest).map (UInt8.ofNat (left * 64 + v) :: ·)

def decode? (s : List Char) : Option (List UInt8) := read 0 0 0 s

end Orchestration.Text.Base64
