import Orchestration.Text.Utf8

/-!
# Orchestration.Proofs.Text.Utf8

UTF-8 is read back exactly.

* `scan_lead`, `scan_next`, `scan_last` — a byte that begins, continues or completes a character.
* `lead_ascii`, `lead_two`, `lead_three`, `lead_four` — how many bytes the first one announces.
* `scan_char` — the bytes of a character are read as this character, whatever follows them.
* `scan_encode`, `decode_encode` — nothing in the bytes of a text is ill-formed, and they are read as
  this text.
-/

namespace Orchestration.Text.Utf8

section

variable {b bits low high : Nat} (rest : List UInt8)

/-- A byte that completes nothing. -/
theorem scan_lead {p : Pending} (hb : b < 256) (h : lead b = ⟨[], some p⟩) :
    scan none (UInt8.ofNat b :: rest) = scan (some p) rest := by
  simp only [scan, step, UInt8.toNat_ofNat_of_lt' hb, h, List.nil_append]

theorem scan_next {owed : Nat} (hb : b < 256) (hlow : low ≤ b) (hhigh : b ≤ high) :
    scan (some ⟨owed + 1, low, high, bits⟩) (UInt8.ofNat b :: rest) =
      scan (some ⟨owed, 0x80, 0xBF, bits * 64 + (b - 0x80)⟩) rest := by
  simp only [scan, step, UInt8.toNat_ofNat_of_lt' hb, hlow, hhigh, and_self, if_true,
    List.nil_append]

theorem scan_last (hb : b < 256) (hlow : low ≤ b) (hhigh : b ≤ high) :
    scan (some ⟨0, low, high, bits⟩) (UInt8.ofNat b :: rest) =
      some (Char.ofNat (bits * 64 + (b - 0x80))) :: scan none rest := by
  simp only [scan, step, UInt8.toNat_ofNat_of_lt' hb, hlow, hhigh, and_self, if_true,
    List.singleton_append]

end

theorem lead_ascii {b : Nat} (h : b ≤ 0x7F) : lead b = ⟨[some (Char.ofNat b)], none⟩ := by
  rw [lead, if_pos (by omega)]

theorem lead_two {b : Nat} (hlow : 0xC2 ≤ b) (hhigh : b ≤ 0xDF) :
    lead b = ⟨[], some ⟨0, 0x80, 0xBF, b - 0xC0⟩⟩ := by
  rw [lead, if_neg (by omega), if_pos ⟨hlow, hhigh⟩]

theorem lead_three {b : Nat} (hlow : 0xE0 ≤ b) (hhigh : b ≤ 0xEF) :
    lead b = ⟨[], some ⟨1, if b = 0xE0 then 0xA0 else 0x80, if b = 0xED then 0x9F else 0xBF,
      b - 0xE0⟩⟩ := by
  rw [lead, if_neg (by omega), if_neg (by omega), if_pos ⟨hlow, hhigh⟩]

theorem lead_four {b : Nat} (hlow : 0xF0 ≤ b) (hhigh : b ≤ 0xF4) :
    lead b = ⟨[], some ⟨2, if b = 0xF0 then 0x90 else 0x80, if b = 0xF4 then 0x8F else 0xBF,
      b - 0xF0⟩⟩ := by
  rw [lead, if_neg (by omega), if_neg (by omega), if_neg (by omega), if_pos ⟨hlow, hhigh⟩]

theorem scan_char (c : Char) (rest : List UInt8) :
    scan none (String.utf8EncodeChar c ++ rest) = some c :: scan none rest := by
  have hvalid : c.val.toNat.isValidChar := c.valid
  have hc : Char.ofNat c.val.toNat = c := Char.ofNat_toNat c
  simp only [Nat.isValidChar] at hvalid
  rw [String.utf8EncodeChar]
  generalize c.val.toNat = n at hvalid hc
  split
  · next h =>
    have hn : n < 256 := by omega
    simp [scan, step, UInt8.toNat_ofNat_of_lt' hn, lead_ascii h, hc]
  · split
    · next h₁ h₂ =>
      have hbits : (n / 64 % 0x20 + 0xC0 - 0xC0) * 64 + (n % 0x40 + 0x80 - 0x80) = n := by omega
      rw [List.cons_append, List.singleton_append,
        scan_lead _ (by omega) (lead_two (by omega) (by omega)),
        scan_last _ (by omega) (by omega) (by omega), hbits, hc]
    -- overlong forms, surrogates and numbers beyond the last character have a second byte that is
    -- out of bounds
    · split
      · next h₁ h₂ h₃ =>
        have hlow : (if n / 4096 % 0x10 + 0xE0 = 0xE0 then 0xA0 else 0x80) ≤
            n / 64 % 0x40 + 0x80 := by
          split <;> omega
        have hhigh : n / 64 % 0x40 + 0x80 ≤
            if n / 4096 % 0x10 + 0xE0 = 0xED then 0x9F else 0xBF := by
          split <;> omega
        have hbits : ((n / 4096 % 0x10 + 0xE0 - 0xE0) * 64 + (n / 64 % 0x40 + 0x80 - 0x80)) * 64 +
            (n % 0x40 + 0x80 - 0x80) = n := by omega
        simp only [List.cons_append, List.nil_append]
        rw [scan_lead _ (by omega) (lead_three (by omega) (by omega)),
          scan_next _ (by omega) hlow hhigh, scan_last _ (by omega) (by omega) (by omega), hbits, hc]
      · next h₁ h₂ h₃ =>
        have hlow : (if n / 262144 % 0x08 + 0xF0 = 0xF0 then 0x90 else 0x80) ≤
            n / 4096 % 0x40 + 0x80 := by
          split <;> omega
        have hhigh : n / 4096 % 0x40 + 0x80 ≤
            if n / 262144 % 0x08 + 0xF0 = 0xF4 then 0x8F else 0xBF := by
          split <;> omega
        have hbits : (((n / 262144 % 0x08 + 0xF0 - 0xF0) * 64 +
            (n / 4096 % 0x40 + 0x80 - 0x80)) * 64 + (n / 64 % 0x40 + 0x80 - 0x80)) * 64 +
            (n % 0x40 + 0x80 - 0x80) = n := by omega
        simp only [List.cons_append, List.nil_append]
        rw [scan_lead _ (by omega) (lead_four (by omega) (by omega)),
          scan_next _ (by omega) hlow hhigh, scan_next _ (by omega) (by omega) (by omega),
          scan_last _ (by omega) (by omega) (by omega), hbits, hc]

theorem scan_encode (text : List Char) : scan none (encode text) = text.map some := by
  induction text with
  | nil => rfl
  | cons c text ih =>
    rw [encode, List.flatMap_cons, scan_char, List.map_cons, ← ih]
    rfl

/-- A text is read from its bytes. -/
theorem decode_encode (text : List Char) : decode (encode text) = text := by
  rw [decode, scan_encode, List.map_map]
  exact List.map_id text

end Orchestration.Text.Utf8
