import Orchestration.Failure
import Orchestration.Files.Store
import Orchestration.Text.Wide

/-!
# Orchestration.Files.Glob

Patterns for paths.

* In a component `*` stands for any characters, `?` for one, and a set in brackets for one of its
  members; `[!…]` stands for one of the others.
* The component `**` stands for any number of directories.
* `glob` — the files below a directory that match a pattern, in order of their components.
-/

namespace Orchestration.Files

open Text (Point Wide)

/-- A member of a set: the characters whose numbers lie between two, ends included. -/
structure Span where
  low : Point
  high : Point

/-- One place of a component pattern. -/
inductive Piece where
  | any
  | one
  | point (p : Point)
  | set (negated : Bool) (spans : List Span)

/-- The spans of a set; a hyphen between two places makes one of them. -/
def spans : List Point → List Span
  | a :: .char '-' :: b :: rest => ⟨a, b⟩ :: spans rest
  | a :: rest => ⟨a, a⟩ :: spans rest
  | [] => []

/-- The members of a set and the rest after its bracket. A bracket that comes first is a member. -/
def cutSet (s : List Point) : Option (List Point × List Point) :=
  let (start, rest) := match s with
    | .char ']' :: rest => ([Point.char ']'], rest)
    | rest => ([], rest)
  if rest.contains ']' then
    some (start ++ rest.takeWhile (· ≠ Point.char ']'),
      (rest.dropWhile (· ≠ Point.char ']')).drop 1)
  else none

/-- Reads a set after its opening bracket. -/
def readSet : List Point → Option (Piece × List Point)
  | .char '!' :: s => (cutSet s).map fun (members, rest) => (.set true (spans members), rest)
  | s => (cutSet s).map fun (members, rest) => (.set false (spans members), rest)

/-- Reads a component pattern; a bracket without its partner is an ordinary character. Each piece
takes a place, so the length of the text is fuel enough. -/
def pieces : Nat → List Point → List Piece
  | 0, _ => []
  | fuel + 1, s =>
    match s with
    | [] => []
    | .char '*' :: rest => .any :: pieces fuel rest
    | .char '?' :: rest => .one :: pieces fuel rest
    | .char '[' :: rest =>
      match readSet rest with
      | some (p, rest) => p :: pieces fuel rest
      | none => .point '[' :: pieces fuel rest
    | p :: rest => .point p :: pieces fuel rest

/-- Whether a piece stands for a character. -/
def Piece.admits (p : Piece) (c : Char) : Bool :=
  match p with
  | .any => true
  | .one => true
  | .point x => x == c
  | .set negated members =>
    (members.any fun m => m.low.number ≤ c.toNat && c.toNat ≤ m.high.number) != negated

mutual

/-- Whether the pieces stand for a whole name. -/
def fits : List Piece → List Char → Bool
  | [], name => name.isEmpty
  | .any :: ps, name => fitsLater ps name
  | p :: ps, name =>
    match name with
    | [] => false
    | c :: rest => p.admits c && fits ps rest

/-- Whether the pieces stand for some end of a name. -/
def fitsLater (ps : List Piece) : List Char → Bool
  | [] => fits ps []
  | c :: rest => fits ps (c :: rest) || fitsLater ps rest

end

/-- A component of a pattern. -/
inductive Component where
  | directories
  | parent
  | pieces (ps : List Piece)
  | name (s : String)
  /-- A name with a half in it, which nothing has. -/
  | nothing
  /-- A slash at the end. -/
  | last

def Component.ofPoints? (s : List Point) : Option Component :=
  if s = [.char '*', .char '*'] then some .directories
  else if s = [.char '.', .char '.'] then some .parent
  else if (s.zip (s.drop 1)).contains ('*', '*') then none
  else if s.contains '*' || s.contains '?' || s.contains '[' then
    some (.pieces (Files.pieces (s.length + 1) s))
  else
    match (Wide.ofPoints s).whole? with
    | some n => some (.name n)
    | none => some .nothing

def readPattern (s : Wide) : Except Trouble (List Component) :=
  let ps := s.points
  if ps.head? = some (.char '/') then .error .absolutePattern
  else
    let ends := ps.getLast? == some (.char '/')
    let parts := (ps.splitOn (.char '/')).filter fun part => part ≠ [] ∧ part ≠ [.char '.']
    match parts.mapM Component.ofPoints? with
    | none => .error .mixedPattern
    | some [] => .error (if ends then .slashPattern else .emptyPattern)
    | some cs => .ok (if ends then cs ++ [.last] else cs)

/-- What a search finds where the system gives no answer. A missing right hides what is there; any
other reason ends the search. -/
def foundAt (d : Denial) : Except Trouble (List (List String × List String)) :=
  if d.isForbidden then .ok [] else .error (.denied d.label)

/-- The places that components lead to from a place, each with the components of its name. Every
component but the last leads to directories only. -/
def select (s : Store) : List Component → List String → List String →
    Except Trouble (List (List String × List String))
  | [], shown, place => .ok [(shown, place)]
  | .last :: _, shown, place => .ok [(shown, place)]
  | .nothing :: _, _, _ => .ok []
  | .parent :: cs, shown, place =>
    match s.next place ".." with
    | .error d => foundAt d
    | .ok next => select s cs (shown ++ [".."]) next
  | .directories :: cs, shown, place => do
    let below := (s.directories place).filter fun p => !s.hides place p
    let _ ← (below.filterMap s.guard?).mapM foundAt
    let found ← below.mapM fun p => select s cs (shown ++ p.drop place.length) p
    return found.flatten.eraseDups
  | .name n :: cs, shown, place =>
    match s.next place n with
    | .error d => foundAt d
    | .ok next =>
      if (if cs.isEmpty then (s.at? next).isSome else s.isDirectory next) then
        select s cs (shown ++ [n]) next
      else .ok []
  | .pieces ps :: cs, shown, place =>
    match s.guard? place with
    | some d => foundAt d
    | none => do
      let fitting := (s.names place).filter fun n =>
        fits ps n.toList && (cs.isEmpty || s.isDirectory (place ++ [n]))
      let found ← fitting.mapM fun n => select s cs (shown ++ [n]) (place ++ [n])
      return found.flatten

/-- The paths below a directory that components lead to. -/
def search (s : Store) (directory : Path) (cs : List Component) : Except Trouble (List Path) :=
  match s.locate directory with
  | .error d => .error (.denied d.label)
  | .ok none => .ok []
  | .ok (some place) =>
    if s.isDirectory place then
      (select s cs [] place).map fun found => found.map fun (shown, _) => directory.below shown
    else .ok []

/-- Whether a file stands at a path. -/
def holdsFile (s : Store) (p : Path) : Except Trouble Bool :=
  match s.examine p with
  | .error d => .error (.denied d.label)
  | .ok (some ⟨.file _, _⟩) => .ok true
  | .ok _ => .ok false

/-- The files below a directory that match a pattern, in the order in which they are found. -/
def findFiles (s : Store) (directory : Path) (pattern : Wide) : Except Trouble (List Path) := do
  let cs ← readPattern pattern
  let found ← search s directory cs
  found.filterM (holdsFile s)

/-- The files below a directory that match a pattern. -/
def glob (s : Store) (directory : Path) (pattern : Wide) : Except Trouble (List Path) :=
  (findFiles s directory pattern).map fun files =>
    files.mergeSort fun p q => partsLe p.parts q.parts

end Orchestration.Files
