/-!
# Orchestration.Text.Layout

Lines and columns; widths count characters.
-/

namespace Orchestration.Text

def fill (count : Nat) (c : Char) : String := String.ofList (List.replicate count c)

/-- Filled with blanks on the right up to `width`. -/
def padRight (width : Nat) (s : String) : String := s ++ fill (width - s.length) ' '

/-- Filled with blanks on the left up to `width`. -/
def padLeft (width : Nat) (s : String) : String := fill (width - s.length) ' ' ++ s

def first (count : Nat) (s : String) : String := String.ofList (s.toList.take count)

/-- `s`, or `other` when it is empty. -/
def orElse (s other : String) : String := if s = "" then other else s

/-- The texts in order, separated by line feeds. -/
def ofLines (lines : List String) : String := "\n".intercalate lines

/-- Cuts at every line feed; a text without one is a single line. -/
def linesFrom (current : List Char) : List Char → List String
  | [] => [String.ofList current.reverse]
  | '\n' :: rest => String.ofList current.reverse :: linesFrom [] rest
  | c :: rest => linesFrom (c :: current) rest

/-- Every line end becomes a line feed. -/
def unifyLineEnds : List Char → List Char
  | [] => []
  | '\r' :: '\n' :: rest => '\n' :: unifyLineEnds rest
  | '\r' :: rest => '\n' :: unifyLineEnds rest
  | c :: rest => c :: unifyLineEnds rest

def lines (s : String) : List String := linesFrom [] s.toList

/-- The lines of a printed text. A carriage return before a line feed belongs to the line end. -/
def printedLines (s : String) : List String :=
  let all := lines s
  (all.dropLast.map fun l =>
    if l.toList.getLast? = some '\r' then String.ofList l.toList.dropLast else l) ++
    all.getLast?.toList

end Orchestration.Text
