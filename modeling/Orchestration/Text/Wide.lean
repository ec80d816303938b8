import Orchestration.Text.Half
import Orchestration.Text.Lower

/-!
# Orchestration.Text.Wide

Texts in which halves of surrogate pairs may stand by themselves.

* `Wide`                         — such a text; a string is one without halves.
* `Wide.ofPoints`, `Wide.points` — the text of places, and the places of a text.
* `Wide.whole?`, `Wide.shown`    — the string that a text is, and the one that shows it.
* `Wide.append`, `Wide.lower`    — what strings can do too; `Wide.le` orders texts by their places.
-/

namespace Orchestration.Text

/-- A text of characters, or what stands before the first half, that half, and what follows it. -/
inductive Wide where
  | whole (s : String)
  | torn (before : String) (bits : Fin 0x800) (after : Wide)
  deriving DecidableEq

namespace Wide

instance : Coe String Wide := ⟨whole⟩

/-! ## Places -/

/-- The text of places after characters that have been read, the last one first. -/
def ofPointsFrom (before : List Char) : List Point → Wide
  | [] => .whole (String.ofList before.reverse)
  | .char c :: rest => ofPointsFrom (c :: before) rest
  | .half bits :: rest => .torn (String.ofList before.reverse) bits (ofPointsFrom [] rest)

def ofPoints (ps : List Point) : Wide := ofPointsFrom [] ps

def points : Wide → List Point
  | .whole s => s.toList.map .char
  | .torn before bits after => before.toList.map .char ++ .half bits :: after.points

/-! ## Characters -/

def whole? : Wide → Option String
  | .whole s => some s
  | .torn _ _ _ => none

/-- The text of characters that shows a text. -/
def shown : Wide → String
  | .whole s => s
  | .torn before bits after =>
    before ++ String.singleton (Point.half bits) ++ after.shown

@[simp] theorem whole?_whole (s : String) : (whole s).whole? = some s := rfl

@[simp] theorem shown_whole (s : String) : (whole s).shown = s := rfl

/-! ## Operations -/

def append : Wide → Wide → Wide
  | .whole s, .whole t => .whole (s ++ t)
  | .whole s, .torn before bits after => .torn (s ++ before) bits after
  | .torn before bits after, t => .torn before bits (after.append t)

instance : Append Wide := ⟨append⟩

@[simp] theorem whole_append_whole (s t : String) : whole s ++ whole t = whole (s ++ t) := rfl

/-- The texts in order with a separator between them. -/
def joined (separator : String) : List Wide → Wide
  | [] => ""
  | [s] => s
  | s :: rest => s ++ separator ++ joined separator rest

def orElse (s other : Wide) : Wide := if s = "" then other else s

/-- Lower case. A half has none and belongs to no word, so what stands before it and what follows it
are texts of their own. -/
def lower : Wide → Wide
  | .whole s => .whole (Text.lower s)
  | .torn before bits after => .torn (Text.lower before) bits after.lower

/-- Whether a text does not come after another in the order of the numbers of their places. -/
def le (s t : Wide) : Bool :=
  !(t.points.map Point.number).lex (s.points.map Point.number) Nat.blt

end Wide

end Orchestration.Text
