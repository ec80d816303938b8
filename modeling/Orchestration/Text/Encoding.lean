import Orchestration.Text.Utf8
import Orchestration.Text.Utf16

/-!
# Orchestration.Text.Encoding

The encoding of a file is told by its first bytes.

* `FF FE` and `FE FF` announce UTF-16, which must be well-formed.
* Everything else is UTF-8; a leading `EF BB BF` is dropped, and ill-formed runs are replaced.
-/

namespace Orchestration.Text

/-- The text of a file, or the fault of one that announces UTF-16 and is not well-formed. -/
def decode : List UInt8 → Except Utf16.Fault (List Char)
  | 0xFF :: 0xFE :: rest => Utf16.decode .little 2 rest
  | 0xFE :: 0xFF :: rest => Utf16.decode .big 2 rest
  | 0xEF :: 0xBB :: 0xBF :: rest => .ok (Utf8.decode rest)
  | bytes => .ok (Utf8.decode bytes)

/-- The encodings a file may use. -/
inductive Encoding where
  | utf8
  | utf8Marked
  | utf16 (order : Utf16.ByteOrder)

/-- The bytes of a text, after the mark of the encoding. -/
def Encoding.encode : Encoding → List Char → List UInt8
  | .utf8, text => Utf8.encode text
  | .utf8Marked, text => [0xEF, 0xBB, 0xBF] ++ Utf8.encode text
  | .utf16 .little, text => [0xFF, 0xFE] ++ Utf16.encode .little text
  | .utf16 .big, text => [0xFE, 0xFF] ++ Utf16.encode .big text

end Orchestration.Text
