/-!
# Orchestration.Text.Utf8

UTF-8, read one byte at a time.

* `Pending`  — a character of which some bytes have been read.
* `step`     — what one byte completes, and what stays pending.
* `decode`   — the whole text; each maximal ill-formed run of bytes becomes one `U+FFFD`.
* `decode?`  — the whole text, refused when any byte is ill-formed.
* `encode`   — the bytes of a text.
-/

namespace Orchestration.Text.Utf8

/-- A character of which the first bytes have been read: `owed + 1` bytes are missing, the next one
lies between `low` and `high`, and `bits` are the bits read so far. -/
structure Pending where
  owed : Nat
  low : Nat
  high : Nat
  bits : Nat

/-- What stands in the place of an ill-formed run. -/
def replacement : Char := '\uFFFD'

/-- What a byte does: it completes characters (`none` marks an ill-formed run) and may leave one
pending. -/
structure Effect where
  out : List (Option Char)
  pending : Option Pending

/-- The effect of a byte that begins a character. The ranges keep overlong forms, surrogates and
code points beyond `U+10FFFF` out. -/
def lead (b : Nat) : Effect :=
  if b < 0x80 then ⟨[some (Char.ofNat b)], none⟩
  else if 0xC2 ≤ b ∧ b ≤ 0xDF then ⟨[], some ⟨0, 0x80, 0xBF, b - 0xC0⟩⟩
  else if 0xE0 ≤ b ∧ b ≤ 0xEF then
    ⟨[], some ⟨1, if b = 0xE0 then 0xA0 else 0x80, if b = 0xED then 0x9F else 0xBF, b - 0xE0⟩⟩
  else if 0xF0 ≤ b ∧ b ≤ 0xF4 then
    ⟨[], some ⟨2, if b = 0xF0 then 0x90 else 0x80, if b = 0xF4 then 0x8F else 0xBF, b - 0xF0⟩⟩
  else ⟨[none], none⟩

/-- The effect of the next byte. A byte that cannot continue the pending character ends an
ill-formed run and begins a character of its own. -/
def step (pending : Option Pending) (b : Nat) : Effect :=
  match pending with
  | none => lead b
  | some p =>
    if p.low ≤ b ∧ b ≤ p.high then
      let bits := p.bits * 64 + (b - 0x80)
      match p.owed with
      | 0 => ⟨[some (Char.ofNat bits)], none⟩
      | owed + 1 => ⟨[], some ⟨owed, 0x80, 0xBF, bits⟩⟩
    else
      let next := lead b
      ⟨none :: next.out, next.pending⟩

/-- The characters and ill-formed runs of the bytes, in order. -/
def scan (pending : Option Pending) : List UInt8 → List (Option Char)
  | [] => if pending.isSome then [none] else []
  | b :: rest =>
    let e := step pending b.toNat
    e.out ++ scan e.pending rest

/-- The text of the bytes, ill-formed runs replaced. -/
def decode (bytes : List UInt8) : List Char :=
  (scan none bytes).map fun c => c.getD replacement

def decode? (bytes : List UInt8) : Option (List Char) := (scan none bytes).mapM id

def encode (text : List Char) : List UInt8 := text.flatMap String.utf8EncodeChar

end Orchestration.Text.Utf8
