/-!
# Orchestration.Text.Control

Control sequences of terminals: an escape character, an opening bracket, parameters, intermediate
characters, and a final character.

* `afterControl?` — the rest after a sequence.
* `dropControls`  — a text without them.
-/

namespace Orchestration.Text

/-- A character between two others, ends included. -/
def isBetween (low high : Char) (c : Char) : Bool := low ≤ c && c ≤ high

/-- The rest after the sequence that a text begins with. -/
def afterControl? : List Char → Option (List Char)
  | '\x1b' :: '[' :: s =>
    match (s.dropWhile (isBetween '0' '?')).dropWhile (isBetween ' ' '/') with
    | c :: rest => if isBetween '@' '~' c then some rest else none
    | [] => none
  | _ => none

/-- A text without control sequences. Each step drops a character at least, so the length is fuel
enough. -/
def dropControlsFrom : Nat → List Char → List Char
  | 0, s => s
  | fuel + 1, s =>
    match afterControl? s, s with
    | some rest, _ => dropControlsFrom fuel rest
    | none, [] => []
    | none, c :: rest => c :: dropControlsFrom fuel rest

def dropControls (s : String) : String :=
  String.ofList (dropControlsFrom s.toList.length s.toList)

end Orchestration.Text
