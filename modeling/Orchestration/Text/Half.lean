/-!
# Orchestration.Text.Half

Halves of surrogate pairs.

An escape may write one half of a pair by itself. A half has a number, but it is no character.

* `Point`         — a character or a half.
* `half`, `half?` — the half with a number, and the number of a half.
* `Point.shown`   — the character that stands for a place where only characters can stand.
-/

namespace Orchestration.Text

/-- Whether a number is that of a half. -/
def isHalfNumber (n : Nat) : Bool := decide (0xD800 ≤ n) && decide (n ≤ 0xDFFF)

/-- A place in a text: a character, or a half, which is told by its last eleven bits. -/
inductive Point where
  | char (c : Char)
  | half (bits : Fin 0x800)
  deriving DecidableEq

instance : Coe Char Point := ⟨.char⟩

/-- The half with a number. -/
def half (n : Nat) : Point := .half (Fin.ofNat 0x800 n)

/-- The number of a half. -/
def half? : Point → Option Nat
  | .char _ => none
  | .half bits => some (0xD800 + bits)

namespace Point

/-- The character that shows a place. The replacement character shows a half. -/
def shown : Point → Char
  | .char c => c
  | .half _ => '\uFFFD'

instance : CoeOut Point Char := ⟨shown⟩

/-- The number of a half or of a character. -/
def number (p : Point) : Nat := (half? p).getD p.shown.toNat

end Point

end Orchestration.Text
