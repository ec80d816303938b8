import Orchestration.Text.Layout

/-!
# Orchestration.Files.Path

Paths as lists of components.
-/

namespace Orchestration.Files

/-- A path; empty components and `.` have been dropped, `..` is kept. -/
structure Path where
  absolute : Bool
  parts : List String
  deriving DecidableEq

def splitSlashes (current : List Char) : List Char → List String
  | [] => [String.ofList current.reverse]
  | '/' :: rest => String.ofList current.reverse :: splitSlashes [] rest
  | c :: rest => splitSlashes (c :: current) rest

namespace Path

def ofText (s : String) : Path where
  absolute := s.toList.head? = some '/'
  parts := (splitSlashes [] s.toList).filter fun p => p ≠ "" ∧ p ≠ "."

def text (p : Path) : String :=
  let joined := "/".intercalate p.parts
  if p.absolute then "/" ++ joined else Text.orElse joined "."

/-- The last component, empty when there is none. -/
def name (p : Path) : String := p.parts.getLast?.getD ""

/-- The path of something below this one. -/
def below (p : Path) (parts : List String) : Path := { p with parts := p.parts ++ parts }

def parent (p : Path) : Path := { p with parts := p.parts.dropLast }

end Path

/-- Component by component in alphabetical order; a path comes before everything below it. -/
def partsLe : List String → List String → Bool
  | [], _ => true
  | _ :: _, [] => false
  | a :: as, b :: bs => if a = b then partsLe as bs else decide (a < b)

end Orchestration.Files
