import Orchestration.Text.CaseTable

/-!
# Orchestration.Text.Lower

Lower case over all of Unicode.

* An ASCII letter and a letter with a simple image become that image.
* `İ` becomes two characters, `i` and a combining dot.
* `Σ` becomes `ς` at the end of a word and `σ` elsewhere.
-/

namespace Orchestration.Text

/-- The lower-case form of one character, outside any word. -/
def lowerChar (c : Char) : List Char :=
  if c.toNat < 0x80 then [c.toLower]
  else if c = 'İ' then ['i', '\u0307']
  else
    match lowerRuns.findSome? (·.image? c.toNat) with
    | some n => [Char.ofNat n]
    | none => [c]

/-- Whether the first character that is not skipped has case. -/
def startsCased (cs : List Char) : Bool :=
  match cs.dropWhile fun c => inRanges ignorableRanges c.toNat with
  | [] => false
  | c :: _ => inRanges casedRanges c.toNat

/-- Lower-cases a text of which `before` has been read, nearest character first. A `Σ` ends a word
when a cased character comes before it and none after it. -/
def lowerFrom (before : List Char) : List Char → List Char
  | [] => []
  | c :: rest =>
    let image :=
      if c = 'Σ' then [if startsCased before && !startsCased rest then 'ς' else 'σ']
      else lowerChar c
    image ++ lowerFrom (c :: before) rest

def lower (s : String) : String := String.ofList (lowerFrom [] s.toList)

end Orchestration.Text
