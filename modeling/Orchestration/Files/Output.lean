import Orchestration.Failure
import Orchestration.Files.Store

/-!
# Orchestration.Files.Output

Files that a program writes.

* `Store.write` — a store with one more file, and the directories above it.
-/

namespace Orchestration.Files.Store

/-- Goes down from a directory, making the directories that are missing. The result is where the
components lead, and the store with those directories. -/
def descend (s : Store) (place : List String) : List String → Except Trouble (List String × Store)
  | [] => .ok (place, s)
  | part :: rest =>
    match s.next place part with
    | .error d => .error (.denied d.label)
    | .ok next =>
      match s.at? next with
      | some ⟨.directory, _⟩ => s.descend next rest
      | some ⟨.file _, _⟩ => .error (if rest.isEmpty then .outputInFile else .outputBelowFile)
      | none => (s.put next .directory).descend next rest

/-- Writes a file. The directories above it are made when they are missing; a file that is there
already is replaced, unless the system guards it. -/
def write (s : Store) (p : Path) (bytes : List UInt8) : Except Trouble Store :=
  match s.descend (s.start p) p.parent.parts with
  | .error t => .error t
  | .ok (place, s) =>
    if p.name = "" ∨ p.name = ".." then .error .outputIsDirectory
    else
      match s.next place p.name with
      | .error d => .error (.denied d.label)
      | .ok target =>
        if s.isDirectory target then .error .outputIsDirectory
        else
          match s.guard? target with
          | some d => .error (.denied d.label)
          | none => .ok (s.put target (.file bytes))

end Orchestration.Files.Store
