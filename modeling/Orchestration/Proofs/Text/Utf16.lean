import Orchestration.Text.Encoding

/-!
# Orchestration.Proofs.Text.Utf16

UTF-16 is read back exactly.

* `Utf16.decode_eq_ok_iff` — bytes that are read as a text are the bytes of that text, and no
  others.
* `Misencoded` — bytes that announce UTF-16 and are not those of any text.
* `misencoded_iff` — these are the bytes that are refused.
-/

namespace Orchestration.Text

namespace Utf16

/-! ## Code units -/

theorem ByteOrder.bytes_unit (order : ByteOrder) (a b : UInt8) :
    order.bytes (order.unit a b) = [a, b] := by
  have ha := a.toNat_lt
  have hb := b.toNat_lt
  cases order with
  | little =>
    have hlow : (a.toNat + b.toNat * 256) % 256 = a.toNat := by omega
    have hhigh : (a.toNat + b.toNat * 256) / 256 = b.toNat := by omega
    simp [unit, bytes, hlow, hhigh]
  | big =>
    have hlow : (a.toNat * 256 + b.toNat) % 256 = b.toNat := by omega
    have hhigh : (a.toNat * 256 + b.toNat) / 256 = a.toNat := by omega
    simp [unit, bytes, hlow, hhigh]

theorem ByteOrder.exists_bytes (order : ByteOrder) {u : Nat} (hu : u < 0x10000) :
    ∃ a b, order.bytes u = [a, b] ∧ order.unit a b = u := by
  have hlow : (UInt8.ofNat (u % 256)).toNat = u % 256 := by
    rw [UInt8.toNat_ofNat']
    omega
  have hhigh : (UInt8.ofNat (u / 256)).toNat = u / 256 := by
    rw [UInt8.toNat_ofNat']
    omega
  cases order with
  | little =>
    refine ⟨_, _, rfl, ?_⟩
    rw [unit, hlow, hhigh]
    omega
  | big =>
    refine ⟨_, _, rfl, ?_⟩
    rw [unit, hlow, hhigh]
    omega

theorem ByteOrder.unit_lt (order : ByteOrder) (a b : UInt8) : order.unit a b < 0x10000 := by
  have ha := a.toNat_lt
  have hb := b.toNat_lt
  cases order with
  | little | big =>
    rw [unit]
    omega

theorem isHigh_eq_true_iff {u : Nat} : isHigh u = true ↔ 0xD800 ≤ u ∧ u ≤ 0xDBFF := by
  simp [isHigh]

theorem isLow_eq_true_iff {u : Nat} : isLow u = true ↔ 0xDC00 ≤ u ∧ u ≤ 0xDFFF := by
  simp [isLow]

/-! ## Characters -/

theorem toNat_ofNat {n : Nat} (h : n.isValidChar) : (Char.ofNat n).toNat = n := by
  unfold Char.ofNat
  rw [dif_pos h]
  rfl

theorem unitsOf_ofNat {u : Nat} (hu : u < 0x10000) (hhigh : isHigh u = false)
    (hlow : isLow u = false) : unitsOf (Char.ofNat u) = [u] := by
  have hvalid : u.isValidChar := by
    rw [← Bool.not_eq_true, isHigh_eq_true_iff] at hhigh
    rw [← Bool.not_eq_true, isLow_eq_true_iff] at hlow
    simp only [Nat.isValidChar]
    omega
  simp only [unitsOf, toNat_ofNat hvalid, if_pos hu]

theorem unitsOf_pair {u v : Nat} (hu : isHigh u = true) (hv : isLow v = true) :
    unitsOf (pair u v) = [u, v] := by
  rw [isHigh_eq_true_iff] at hu
  rw [isLow_eq_true_iff] at hv
  have hvalid : (0x10000 + (u - 0xD800) * 0x400 + (v - 0xDC00)).isValidChar := by
    simp only [Nat.isValidChar]
    omega
  have hbig : ¬0x10000 + (u - 0xD800) * 0x400 + (v - 0xDC00) < 0x10000 := by omega
  simp only [unitsOf, pair, toNat_ofNat hvalid, if_neg hbig, List.cons.injEq, and_true]
  omega

/-! ## Reading -/

theorem encode_cons (order : ByteOrder) (c : Char) (text : List Char) :
    encode order (c :: text) = (unitsOf c).flatMap order.bytes ++ encode order text := by
  simp [encode]

theorem exists_of_map {α β : Type} {f : α → β} {r : Except Fault α} {y : β}
    (h : r.map f = .ok y) : ∃ x, r = .ok x ∧ f x = y := by
  cases r with
  | error fault => cases h
  | ok x => exact ⟨x, rfl, Except.ok.inj h⟩

theorem encode_of_decode (order : ByteOrder) (position : Nat) (bytes : List UInt8) :
    ∀ text, decode order position bytes = .ok text → encode order text = bytes := by
  fun_induction decode order position bytes with
  | case1 =>
    rintro text ⟨⟩
    rfl
  | case5 position a b u hu c d rest v hv ih =>
    intro text h
    obtain ⟨text', hrest, rfl⟩ := exists_of_map h
    rw [encode_cons, unitsOf_pair hu hv, ih text' hrest]
    simp [u, v, order.bytes_unit]
  | case8 position a b rest u hhigh hlow ih =>
    intro text h
    obtain ⟨text', hrest, rfl⟩ := exists_of_map h
    rw [encode_cons, unitsOf_ofNat (order.unit_lt a b) (Bool.eq_false_iff.mpr hhigh)
      (Bool.eq_false_iff.mpr hlow), ih text' hrest]
    simp [order.bytes_unit]
  | _ =>
    intro text h
    cases h

theorem decode_unit {order : ByteOrder} {a b : UInt8} (position : Nat)
    (hhigh : isHigh (order.unit a b) = false) (hlow : isLow (order.unit a b) = false)
    (rest : List UInt8) : decode order position (a :: b :: rest) =
      (decode order (position + 2) rest).map (Char.ofNat (order.unit a b) :: ·) := by
  rw [decode.eq_def]
  simp [hhigh, hlow]

theorem decode_pair {order : ByteOrder} {a b c d : UInt8} (position : Nat)
    (hhigh : isHigh (order.unit a b) = true) (hlow : isLow (order.unit c d) = true)
    (rest : List UInt8) : decode order position (a :: b :: c :: d :: rest) =
      (decode order (position + 4) rest).map (pair (order.unit a b) (order.unit c d) :: ·) := by
  rw [decode.eq_def]
  simp [hhigh, hlow]

theorem pair_units {n : Nat} (h : 0x10000 ≤ n) :
    pair (0xD800 + (n - 0x10000) / 0x400) (0xDC00 + (n - 0x10000) % 0x400) = Char.ofNat n := by
  have hn : 0x10000 + (0xD800 + (n - 0x10000) / 0x400 - 0xD800) * 0x400 +
      (0xDC00 + (n - 0x10000) % 0x400 - 0xDC00) = n := by omega
  rw [pair, hn]

/-- A character is read from its code units. The position matters for faults only. -/
theorem decode_units (order : ByteOrder) (position : Nat) (c : Char) (rest : List UInt8) :
    ∃ next, decode order position ((unitsOf c).flatMap order.bytes ++ rest) =
      (decode order next rest).map (c :: ·) := by
  have hvalid : c.toNat.isValidChar := c.valid
  simp only [Nat.isValidChar] at hvalid
  by_cases hsmall : c.toNat < 0x10000
  · obtain ⟨a, b, hbytes, hunit⟩ := order.exists_bytes hsmall
    have hhigh : isHigh (order.unit a b) = false := by
      rw [hunit, ← Bool.not_eq_true, isHigh_eq_true_iff]
      omega
    have hlow : isLow (order.unit a b) = false := by
      rw [hunit, ← Bool.not_eq_true, isLow_eq_true_iff]
      omega
    refine ⟨position + 2, ?_⟩
    simp [unitsOf, hsmall, hbytes, decode_unit position hhigh hlow, hunit]
  · obtain ⟨a, b, hbytes, hunit⟩ := order.exists_bytes
      (u := 0xD800 + (c.toNat - 0x10000) / 0x400) (by omega)
    obtain ⟨a', b', hbytes', hunit'⟩ := order.exists_bytes
      (u := 0xDC00 + (c.toNat - 0x10000) % 0x400) (by omega)
    have hhigh : isHigh (order.unit a b) = true := by
      rw [hunit, isHigh_eq_true_iff]
      omega
    have hlow : isLow (order.unit a' b') = true := by
      rw [hunit', isLow_eq_true_iff]
      omega
    have hpair := pair_units (Nat.le_of_not_lt hsmall)
    rw [Char.ofNat_toNat] at hpair
    refine ⟨position + 4, ?_⟩
    simp [unitsOf, hsmall, hbytes, hbytes', decode_pair position hhigh hlow, hunit, hunit', hpair]

theorem decode_encode (order : ByteOrder) (position : Nat) (text : List Char) :
    decode order position (encode order text) = .ok text := by
  induction text generalizing position with
  | nil => rfl
  | cons c text ih =>
    obtain ⟨next, hc⟩ := decode_units order position c (encode order text)
    rw [encode_cons, hc, ih]
    rfl

theorem decode_eq_ok_iff {order : ByteOrder} {position : Nat} {bytes : List UInt8}
    {text : List Char} : decode order position bytes = .ok text ↔ encode order text = bytes :=
  ⟨encode_of_decode order position bytes text, fun h => h ▸ decode_encode order position text⟩

end Utf16

/-! ## Files that announce UTF-16 -/

/-- Bytes that begin with the mark of UTF-16 in some byte order and are not those of any text. -/
def Misencoded (bytes : List UInt8) : Prop :=
  ∃ order, (Encoding.utf16 order).encode [] <+: bytes ∧
    ∀ text, (Encoding.utf16 order).encode text ≠ bytes

theorem decode_of_mark (order : Utf16.ByteOrder) (rest : List UInt8) :
    decode ((Encoding.utf16 order).encode [] ++ rest) = Utf16.decode order 2 rest := by
  cases order <;> rfl

theorem encode_eq_mark (order : Utf16.ByteOrder) (text : List Char) :
    (Encoding.utf16 order).encode text =
      (Encoding.utf16 order).encode [] ++ Utf16.encode order text := by
  cases order <;> rfl

/-- What is refused announces UTF-16. -/
theorem mark_of_decode {bytes : List UInt8} {fault : Utf16.Fault}
    (h : decode bytes = .error fault) :
    ∃ order rest, bytes = (Encoding.utf16 order).encode [] ++ rest := by
  unfold decode at h
  split at h
  · next rest => exact ⟨.little, rest, rfl⟩
  · next rest => exact ⟨.big, rest, rfl⟩
  · cases h
  · cases h

theorem misencoded_iff {bytes : List UInt8} :
    Misencoded bytes ↔ ∃ fault, decode bytes = .error fault := by
  constructor
  · rintro ⟨order, ⟨rest, rfl⟩, hno⟩
    rw [decode_of_mark]
    cases hd : Utf16.decode order 2 rest with
    | error fault => exact ⟨fault, rfl⟩
    | ok text =>
      refine absurd ?_ (hno text)
      rw [encode_eq_mark, Utf16.decode_eq_ok_iff.mp hd]
  · rintro ⟨fault, h⟩
    obtain ⟨order, rest, rfl⟩ := mark_of_decode h
    refine ⟨order, ⟨rest, rfl⟩, fun text htext => ?_⟩
    rw [encode_eq_mark] at htext
    have hrest := List.append_cancel_left htext
    rw [decode_of_mark, Utf16.decode_eq_ok_iff.mpr hrest] at h
    cases h

end Orchestration.Text
