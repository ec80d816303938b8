import Orchestration.Proofs.Text.Utf16
import Orchestration.Proofs.Text.Utf8
import Orchestration.Source

/-!
# Orchestration.Proofs.Source

Source files are read back exactly.

* `Encoding.Fits` — the texts whose bytes are told apart from those of another encoding.
* `Text.decode_encode` — these are read from their bytes, in every encoding.
* `Source.read_encoded` — the same for files, and so the model does not depend on the encoding. Only
  a file that announces UTF-16 can fail to be read.
-/

namespace Orchestration

namespace Text

/-! ## Encodings -/

/-- The character that marks the encoding when it comes first. -/
def mark : Char := '\uFEFF'

/-- Whether a file may hold a text in an encoding. Without a mark the text must not begin with
one. -/
def Encoding.Fits : Encoding → List Char → Prop
  | .utf8, text => text.head? ≠ some mark
  | .utf8Marked, _ => True
  | .utf16 _, _ => True

theorem Utf8.encode_cons (c : Char) (text : List Char) :
    Utf8.encode (c :: text) = String.utf8EncodeChar c ++ Utf8.encode text :=
  List.flatMap_cons ..

/-- A mark before UTF-8 is the same as a text that begins with one. -/
theorem encode_mark (text : List Char) :
    Encoding.utf8.encode (mark :: text) = Encoding.utf8Marked.encode text :=
  Utf8.encode_cons mark text

theorem decode_unmarked {text : List Char} (h : text.head? ≠ some mark) :
    decode (Encoding.utf8.encode text) = .ok text := by
  have hscan := Utf8.scan_encode text
  -- no text begins with a run that is ill-formed, and this one does not begin with a mark
  have hsound : ∀ rest, text.map some ≠ none :: rest := by
    cases text <;> simp
  have hunmarked : ∀ rest, text.map some ≠ some mark :: rest := by
    cases text with
    | nil => simp
    | cons c text => simpa using h
  show decode (Utf8.encode text) = _
  unfold decode
  split
  · next rest hbytes =>
    rw [hbytes] at hscan
    exact absurd hscan.symm (hsound _)
  · next rest hbytes =>
    rw [hbytes] at hscan
    exact absurd hscan.symm (hsound _)
  · next rest hbytes =>
    rw [hbytes] at hscan
    exact absurd (hscan.symm.trans (Utf8.scan_char mark rest)) (hunmarked _)
  · rw [Utf8.decode_encode]

theorem decode_encode {e : Encoding} {text : List Char} (h : e.Fits text) :
    decode (e.encode text) = .ok text := by
  cases e with
  | utf8 => exact decode_unmarked h
  | utf8Marked => exact congrArg Except.ok (Utf8.decode_encode text)
  | utf16 order => rw [encode_eq_mark, decode_of_mark, Utf16.decode_encode]

end Text

/-! ## Files -/

namespace Source

open Files (Path Store)
open Text (Encoding mark)

theorem read_of_decode {store : Store} {p : Path} {bytes : List UInt8} {text : List Char}
    (hbytes : store.bytes? p = some bytes) (h : Text.decode bytes = .ok text) :
    read store p = .ok text := by
  simp only [read, Store.bytes?_eq_some_iff.mp hbytes, h]

theorem model_congr {store store' : Store} {p p' : Path} (hread : read store p = read store' p')
    (hname : p.name = p'.name) : model store p = model store' p' := by
  rw [model, model, hread, hname]

/-- A file that holds a text in any of the encodings is read as this text: one mark is taken away,
and what stands behind it is kept, be it another mark. So a file has the same model in each of them.
Bytes that do not announce UTF-16 are always read. -/
theorem read_encoded :
    (∀ (e : Encoding) (text : List Char), e.Fits text → ∀ store p,
      store.bytes? p = some (e.encode text) → read store p = .ok text) ∧
    (∀ (e e' : Encoding) (text : List Char), e.Fits text → e'.Fits text → ∀ store store' p p',
      store.bytes? p = some (e.encode text) → store'.bytes? p' = some (e'.encode text) →
        p.name = p'.name → model store p = model store' p') ∧
    (∀ text, Encoding.utf8.encode (mark :: text) = Encoding.utf8Marked.encode text) ∧
    ∀ store p bytes, store.bytes? p = some bytes →
      (∀ order, ¬(Encoding.utf16 order).encode [] <+: bytes) → ∃ text, read store p = .ok text := by
  have hread : ∀ (e : Encoding) (text : List Char), e.Fits text → ∀ store p,
      store.bytes? p = some (e.encode text) → read store p = .ok text := by
    intro e text hfits store p hbytes
    exact read_of_decode hbytes (Text.decode_encode hfits)
  refine ⟨hread, ?_, Text.encode_mark, ?_⟩
  · intro e e' text hfits hfits' store store' p p' hbytes hbytes' hname
    refine model_congr ?_ hname
    rw [hread e text hfits store p hbytes, hread e' text hfits' store' p' hbytes']
  · intro store p bytes hbytes hmark
    cases hdecode : Text.decode bytes with
    | ok text => exact ⟨text, read_of_decode hbytes hdecode⟩
    | error fault =>
      obtain ⟨order, rest, rfl⟩ := Text.mark_of_decode hdecode
      exact absurd (List.prefix_append _ rest) (hmark order)

/-- A store with one file. -/
def fileOf (bytes : List UInt8) : Store := ⟨[], [(["a.odx"], .file bytes)]⟩

/-- A second mark, a character that takes two code units and four bytes, and one that takes two
bytes. -/
theorem read_encoded_marked :
    read (fileOf [0xFF, 0xFE, 0xFF, 0xFE, 0x3D, 0xD8, 0x00, 0xDE, 0xE4, 0x00]) ⟨false, ["a.odx"]⟩ =
        .ok [mark, '😀', 'ä'] ∧
      read (fileOf [0xEF, 0xBB, 0xBF, 0xEF, 0xBB, 0xBF, 0xF0, 0x9F, 0x98, 0x80, 0xC3, 0xA4])
        ⟨false, ["a.odx"]⟩ = .ok [mark, '😀', 'ä'] ∧
      model (fileOf [0xF0, 0x9F, 0x98, 0x80, 0xC3, 0xA4]) ⟨false, ["a.odx"]⟩ =
        model (fileOf [0xFE, 0xFF, 0xD8, 0x3D, 0xDE, 0x00, 0x00, 0xE4]) ⟨false, ["a.odx"]⟩ ∧
      ∃ text, read (fileOf [0x41, 0xFF, 0xFE]) ⟨false, ["a.odx"]⟩ = .ok text := by
  obtain ⟨hread, hmodel, -, hother⟩ := read_encoded
  refine ⟨hread (.utf16 .little) _ trivial _ _ ?_, hread .utf8Marked _ trivial _ _ ?_,
    hmodel .utf8 (.utf16 .big) ['😀', 'ä'] ?_ trivial _ _ _ _ ?_ ?_ rfl, hother _ _ _ rfl ?_⟩
  · decide
  · decide
  · show _ ≠ some mark
    decide
  · decide
  · decide
  · intro order
    cases order <;> decide

end Source

end Orchestration
