import Orchestration.Files.Store
import Orchestration.Model.Assembly
import Orchestration.Text.Encoding

/-!
# Orchestration.Source

Source files.

* `Source.read`  — the text of a file.
* `Source.model` — the model of a file.
-/

namespace Orchestration.Source

open Files (Path Store)

/-- The text of a file. That something else stands at the path, or that the bytes are refused, is a
failure; that the system does not even tell what stands there is none. -/
def read (s : Store) (p : Path) : Except Trouble (List Char) :=
  match s.examine p with
  | .error d => .error (.denied d.label)
  | .ok (some ⟨.file bytes, none⟩) =>
    match Text.decode bytes with
    | .error fault => .error (.undecodable fault)
    | .ok text => .ok text
  | .ok (some ⟨.file _, some d⟩) =>
    .error (.failure ⟨.fileUnreadable p.text (d.wording p.text), p.name⟩)
  | .ok _ => .error (.failure ⟨.fileMissing p.text, p.name⟩)

/-- The model of a file; its source is the name of the file. -/
def model (s : Store) (p : Path) : Except Trouble Model :=
  match read s p with
  | .error t => .error t
  | .ok text => Trouble.ofExcept (Model.assembleText Model.noRefusals text p.name).result

end Orchestration.Source
