import Orchestration.Command.Outcome

/-!
# Orchestration.Main

The program. What a command needs is read into a store, the outcome is computed, and then printed
and saved.
-/

namespace Orchestration.Main

open Files (Path Store)

/-- The place that typed components lead to. -/
def placeOf (place : List String) : List String → List String
  | [] => place
  | part :: rest => placeOf (if part = ".." then place.dropLast else place ++ [part]) rest

/-- What the system answered instead of showing something. -/
def denialOf : IO.Error → Files.Denial
  | .permissionDenied .. => .forbidden
  | e => ⟨"OSError", fun _ => toString e⟩

/-- A store with a file of the file system, or with everything below a directory. What cannot be
read is there with a guard; of such a file only the size is known. -/
partial def load (s : Store) (place : List String) (path : String) : IO Store := do
  let real ← IO.FS.realPath path
  let known ← real.metadata
  if known.type == .dir then
    match ← real.readDir.toBaseIO with
    | .error e => return s.put place ⟨.directory, some (denialOf e)⟩
    | .ok inside =>
      let mut s := s.put place .directory
      for e in inside do
        s ← load s (place ++ [e.fileName]) e.path.toString
      return s
  else
    match ← (IO.FS.readBinFile path).toBaseIO with
    | .error e =>
      let unknown := List.replicate known.byteSize.toNat (0 : UInt8)
      return s.put place ⟨.file unknown, some (denialOf e)⟩
    | .ok bytes => return s.put place (.file bytes.toList)

/-- A store with what a typed path leads to, if anything. -/
def loadTyped (s : Store) (text : String) : IO Store := do
  let p := Path.ofText text
  try load s (placeOf (s.start p) p.parts) text catch _ => return s

/-- Saves what an outcome left under a typed path. -/
def save (o : Outcome) (text : String) : IO Unit := do
  let p := Path.ofText text
  match o.store.bytes? p with
  | none => return
  | some bytes =>
    IO.FS.createDirAll p.parent.text
    IO.FS.writeBinFile p.text bytes.toByteArray

end Orchestration.Main

open Orchestration in
/-- Runs the program on the words of its command line. -/
def main (args : List String) : IO UInt32 := do
  let here := Files.Path.ofText (← IO.currentDir).toString
  let start : Files.Store := ⟨here.parts, []⟩
  let command := match Request.ofArguments? args with
    | some (.command c) => some c
    | _ => none
  let reads := (command.map Command.reads).getD []
  let store ← reads.foldlM Main.loadTyped start
  let outcome := Outcome.ofArguments store args
  IO.print outcome.text
  match outcome.ending with
  | .finished =>
    for path in (command.bind Command.writes?).toList do
      Main.save outcome path
  | .misused => IO.eprintln "The command line is not understood."
  | .stopped t => IO.eprintln s!"{t.label} {t.message}"
  return outcome.ending.code.toUInt32
