import Orchestration.Files.Path

/-!
# Orchestration.Files.Store

A file system as a value.

* `Standing`      — a file or a directory, and what the system answers instead of showing it.
* `Store`         — what stands where; directories that hold something need no entry of their own.
* `Store.examine` — what stands at a path, if the system lets itself be asked.
* `Store.typed?`  — what stands at a path as it was typed, where a slash at the end asks for a
  directory.
* `Store.put`     — a store in which something stands at a place.
-/

namespace Orchestration.Files

/-- A file or a directory. -/
inductive Entry where
  | file (bytes : List UInt8)
  | directory

/-- The space that an entry takes, in bytes. -/
def Entry.size : Entry → Nat
  | .file bytes => bytes.length
  | .directory => 4096

/-- An error that the system answers with: its class, and its wording for a path. -/
structure Denial where
  label : String
  wording : String → String

namespace Denial

/-- The answer to someone who has no right. -/
def forbidden : Denial :=
  ⟨"PermissionError", fun path => s!"[Errno 13] Permission denied: '{path}'"⟩

def isForbidden (d : Denial) : Bool := d.label == forbidden.label

/-- The answer to a name that no directory can hold, or to a path that is too long as a whole. -/
def tooLong : Denial := ⟨"OSError", fun path => s!"[Errno 36] File name too long: '{path}'"⟩

end Denial

/-- What stands at a place. A guard is what the system answers when it is asked for the bytes of the
file or for anything below the directory. -/
structure Standing where
  entry : Entry
  guard : Option Denial := none

namespace Standing

def file (bytes : List UInt8) : Standing := { entry := .file bytes }

def directory : Standing := { entry := .directory }

/-- Whether there is a right to read. -/
def isReadable (x : Standing) : Bool := !x.guard.any Denial.isForbidden

end Standing

/-- What stands where, by components from the root; `origin` is where relative paths start. -/
structure Store where
  origin : List String
  entries : List (List String × Standing)

/-- The most bytes that a name can have. -/
def longestName : Nat := 255

/-- The most bytes that a path can have. -/
def longestPath : Nat := 4095

namespace Store

def at? (s : Store) (place : List String) : Option Standing :=
  match s.entries.lookup place with
  | some x => some x
  | none =>
    if place.isPrefixOf s.origin || s.entries.any fun (p, _) => place.isPrefixOf p then
      some .directory
    else none

/-- Whether a directory stands at a place. -/
def isDirectory (s : Store) (place : List String) : Bool :=
  match s.at? place with
  | some ⟨.directory, _⟩ => true
  | _ => false

/-- What the system answers when it is asked for anything below a place. -/
def guard? (s : Store) (place : List String) : Option Denial := (s.at? place).bind Standing.guard

/-- The place of a name in a directory. -/
def next (s : Store) (place : List String) (part : String) : Except Denial (List String) :=
  match s.guard? place with
  | some d => .error d
  | none =>
    if part = ".." then .ok place.dropLast
    else if longestName < part.utf8ByteSize then .error .tooLong
    else .ok (place ++ [part])

/-- The place that components lead to. Only a directory has something below it or above it. -/
def follow (s : Store) (place : List String) :
    List String → Except Denial (Option (List String))
  | [] => .ok (some place)
  | part :: rest =>
    if s.isDirectory place then
      match s.next place part with
      | .error d => .error d
      | .ok place => s.follow place rest
    else .ok none

def start (s : Store) (p : Path) : List String := if p.absolute then [] else s.origin

/-- The place that a path leads to. -/
def locate (s : Store) (p : Path) : Except Denial (Option (List String)) :=
  if longestPath < p.text.utf8ByteSize then .error .tooLong
  else s.follow (s.start p) p.parts

/-- What stands at a path. -/
def examine (s : Store) (p : Path) : Except Denial (Option Standing) :=
  match s.locate p with
  | .error d => .error d
  | .ok place => .ok (place.bind s.at?)

/-- What stands at a typed path. A path that ends in a slash or in `/.` leads to a directory. -/
def typed? (s : Store) (text : String) : Option Standing :=
  match (splitSlashes [] text.toList).getLast? with
  | none => none
  | some last =>
    if text = "" || decide (longestPath < text.utf8ByteSize) then none
    else
      match s.examine (Path.ofText text) with
      | .error _ => none
      | .ok none => none
      | .ok (some x) =>
        match x.entry with
        | .file _ => if last = "" ∨ last = "." then none else some x
        | .directory => some x

/-- The bytes of the file at a path, if it can be read. -/
def bytes? (s : Store) (p : Path) : Option (List UInt8) :=
  match s.examine p with
  | .ok (some ⟨.file bytes, none⟩) => some bytes
  | _ => none

theorem bytes?_eq_some_iff {s : Store} {p : Path} {bytes : List UInt8} :
    s.bytes? p = some bytes ↔ s.examine p = .ok (some ⟨.file bytes, none⟩) := by
  unfold bytes?
  split
  · next bytes' h => simp [h]
  · next h => exact ⟨nofun, fun hx => absurd hx (h bytes)⟩

/-- The space that a path's entry takes; what is not there or not shown takes none. -/
def sizeOf (s : Store) (p : Path) : Nat :=
  match s.examine p with
  | .ok (some x) => x.entry.size
  | _ => 0

/-- A store in which a file or a directory stands at a place. -/
def put (s : Store) (place : List String) (x : Standing) : Store :=
  { s with entries := (place, x) :: s.entries.filter fun (p, _) => p ≠ place }

/-- The places of all directories at or below a place. -/
def directories (s : Store) (place : List String) : List (List String) :=
  let all := s.entries.flatMap fun (p, x) =>
    let above := (List.range p.length).map p.take
    match x.entry with
    | .directory => above ++ [p]
    | .file _ => above
  (place :: all.filter fun p => place.isPrefixOf p).eraseDups

/-- Whether a directory between two places has a guard. -/
def hides (s : Store) (place below : List String) : Bool :=
  (List.range below.length).any fun n =>
    place.isPrefixOf (below.take n) && (s.guard? (below.take n)).isSome

def names (s : Store) (place : List String) : List String :=
  (s.entries.filterMap fun (p, _) =>
    if place.isPrefixOf p then (p.drop place.length).head? else none).eraseDups

end Store

end Orchestration.Files
