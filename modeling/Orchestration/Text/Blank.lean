/-!
# Orchestration.Text.Blank

White space, and the texts that hold nothing else.
-/

namespace Orchestration.Text

/-- White space: the separators of Unicode, the line controls and the four information
separators. -/
def isBlank (c : Char) : Bool :=
  let n := c.toNat
  (9 ≤ n && n ≤ 13) || (28 ≤ n && n ≤ 32) || n == 0x85 || n == 0xA0 || n == 0x1680 ||
    (0x2000 ≤ n && n ≤ 0x200A) || n == 0x2028 || n == 0x2029 || n == 0x202F || n == 0x205F ||
    n == 0x3000

/-- A text without any visible character; the empty text is one. -/
def blank (s : String) : Bool := s.toList.all isBlank

end Orchestration.Text
