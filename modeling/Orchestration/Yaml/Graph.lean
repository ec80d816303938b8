import Orchestration.Text.Wide
import Orchestration.Yaml.Fault
import Orchestration.Yaml.Tag

/-!
# Orchestration.Yaml.Graph

The parts of a document. An alias leads to the part of its anchor, so parts may be shared, and a
part may lead back to itself.

* `Graph`         — the parts by number.
* `Graph.text`    — the text that a part stands for as a scalar.
* `Graph.flatten` — a mapping after its merges.
-/

namespace Orchestration.Yaml

/-- What is written in a part; other parts are given by their numbers. -/
inductive Content where
  | text (s : Text.Wide)
  | list (items : List Nat)
  | mapping (pairs : List (Nat × Nat))
  deriving DecidableEq

/-- A part of a document. -/
structure Part where
  tag : Tag
  content : Content
  deriving DecidableEq

/-- The parts of a document by number. -/
abbrev Graph := Array Part

namespace Graph

def tag (g : Graph) (i : Nat) : Tag := (g[i]?.map Part.tag).getD .foreign

def content (g : Graph) (i : Nat) : Content := (g[i]?.map Part.content).getD (.text "")

/-- The pairs of a mapping; other parts have none. -/
def pairs (g : Graph) (i : Nat) : List (Nat × Nat) :=
  match g.content i with
  | .mapping ps => ps
  | _ => []

def fill (g : Graph) (i : Nat) (c : Content) : Graph := g.modify i fun p => { p with content := c }

/-- The text that a part stands for as a scalar. A mapping stands for what it holds under the key
`=`. A chain of such mappings that does not end is longer than the graph. -/
def text (g : Graph) : Nat → Nat → Except Fault Text.Wide
  | 0, _ => .error .endless
  | fuel + 1, i =>
    match g.content i with
    | .text s => .ok s
    | .list _ => .error .malformed
    | .mapping ps =>
      match ps.find? fun (k, _) => g.tag k = .equals with
      | some (_, v) => g.text fuel v
      | none => .error .malformed

/-- Makes a key that is an equals sign an ordinary one. -/
def plainKey (g : Graph) (i : Nat) : Graph :=
  if g.tag i = .equals then g.modify i fun p => { p with tag := .str } else g

/-- How many calls it can take to flatten mappings: each one drops a pair or goes to another
part. -/
def mergeDepth (g : Graph) : Nat :=
  2 * (((List.range g.size).map fun i => (g.pairs i).length).foldl (· + ·) 0 + g.size) + 2

mutual

/-- Takes the merges of a mapping out, first to last, and puts the merged pairs in front of its own;
`merged` holds those found so far. -/
def flattenFrom : Nat → Graph → Nat → List (Nat × Nat) → Except Fault Graph
  | 0, _, _, _ => .error .malformed
  | fuel + 1, g, i, merged =>
    let ps := g.pairs i
    match ps.findIdx? fun (k, _) => g.tag k = .merge with
    | none =>
      .ok ((ps.foldl (fun g p => g.plainKey p.1) g).fill i (.mapping (merged ++ ps)))
    | some n => do
      let v := (ps[n]?.map Prod.snd).getD 0
      let g := g.fill i (.mapping (ps.eraseIdx n))
      match g.content v with
      | .mapping _ => do
        let g ← flattenFrom fuel g v []
        flattenFrom fuel g i (merged ++ g.pairs v)
      | .list items => do
        let (lists, g) ← flattenAll fuel g items
        flattenFrom fuel g i (merged ++ lists.reverse.flatten)
      | .text _ => .error .malformed

/-- Flattens mappings in order, and gives the pairs of each. -/
def flattenAll : Nat → Graph → List Nat → Except Fault (List (List (Nat × Nat)) × Graph)
  | 0, _, _ => .error .malformed
  | _ + 1, g, [] => .ok ([], g)
  | fuel + 1, g, v :: rest =>
    match g.content v with
    | .mapping _ => do
      let g ← flattenFrom fuel g v []
      let own := g.pairs v
      let (lists, g) ← flattenAll fuel g rest
      .ok (own :: lists, g)
    | _ => .error .malformed

end

/-- A graph in which the merges of a mapping have been taken out. -/
def flatten (g : Graph) (i : Nat) : Except Fault Graph := g.flattenFrom g.mergeDepth i []

end Graph

end Orchestration.Yaml
