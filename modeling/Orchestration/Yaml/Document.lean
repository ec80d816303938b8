import Orchestration.Yaml.Reader
import Orchestration.Yaml.Scalar

/-!
# Orchestration.Yaml.Document

What a document holds.

* `Built`     — what a part stands for; the members of a collection are given by their numbers.
* `Builder`   — the parts that have been built. Collections are built level by level, so of several
  faults the one that is nearest to the root is met first.
* `Document.value` — the value of a document, as deep as it is asked for.
* `read`      — the value of a text with at most one document.
-/

namespace Orchestration.Yaml

/-- What a part stands for. -/
inductive Built where
  | scalar (v : Value)
  | list (items : List Nat)
  | pairs (entries : List (Nat × Nat))
  | set (members : List Nat)
  | mapping (entries : List (Nat × Nat))
  deriving Inhabited

/-- The parts, what they stand for as far as that is known, and the collections whose members have
not been built yet. -/
structure Builder where
  graph : Graph
  built : Array (Option Built)
  waiting : List Nat

/-- The parts of a document after everything has been built. -/
structure Document where
  built : Array (Option Built)
  root : Nat

namespace Builder

def at? (b : Builder) (i : Nat) : Option Built := b.built[i]?.join

def note (b : Builder) (i : Nat) (x : Built) : Builder :=
  { b with built := b.built.setIfInBounds i (some x) }

/-- Notes a collection whose members are built later. -/
def postpone (b : Builder) (i : Nat) (x : Built) : Builder :=
  { b.note i x with waiting := b.waiting ++ [i] }

/-- The text that a part stands for as a scalar. -/
def text (b : Builder) (i : Nat) : Except Fault Text.Wide := b.graph.text (b.graph.size + 1) i

/-- Notes the value that is read from the text of a part. -/
def scalar (b : Builder) (i : Nat) (read : Text.Wide → Except Fault Value) :
    Except Fault Builder := do
  let v ← read (← b.text i)
  .ok (b.note i (.scalar v))

/-- Notes the value that is read from the characters that show the text of a part. No reader takes
the one that shows a half, as none takes a half. -/
def literal (b : Builder) (i : Nat) (read : String → Except Fault Value) : Except Fault Builder :=
  b.scalar i fun text => read text.shown

/-- A date. It is written as a scalar, even though a mapping can stand for one elsewhere. -/
def date (b : Builder) (i : Nat) : Except Fault Builder := do
  let text ← b.text i
  match b.graph.content i with
  | .text _ => b.scalar i fun _ => Scalar.date text.shown
  | _ => .error .dateOfMapping

/-- Builds a part; of a collection only the outside. -/
def build (b : Builder) (i : Nat) : Except Fault Builder :=
  if (b.at? i).isSome then .ok b
  else
    match b.graph.tag i with
    | .null => b.scalar i fun _ => .ok .null
    | .bool => b.literal i Scalar.bool
    | .int => b.literal i Scalar.int
    | .real => b.literal i Scalar.real
    | .binary => b.literal i Scalar.binary
    | .date => b.date i
    | .str => b.scalar i fun s => .ok (.str s)
    | .seq => .ok (b.postpone i (.list []))
    | .orderedPairs => .ok (b.postpone i (.pairs []))
    | .pairs => .ok (b.postpone i (.pairs []))
    | .map => .ok (b.postpone i (.mapping []))
    | .set => .ok (b.postpone i (.set []))
    | .merge => .error .malformed
    | .equals => .error .malformed
    | .foreign => .error .malformed

/-- Whether a part may be a key. -/
def isKey (b : Builder) (i : Nat) : Bool :=
  match b.at? i with
  | some (.scalar _) => true
  | _ => false

def entry (b : Builder) (p : Nat × Nat) : Except Fault Builder := do
  let b ← b.build p.1
  if b.isKey p.1 then b.build p.2 else .error .malformed

/-- Builds the members of a mapping after its merges, and gives its pairs. -/
def entries (b : Builder) (i : Nat) : Except Fault (List (Nat × Nat) × Builder) := do
  match b.graph.content i with
  | .mapping _ =>
    let b := { b with graph := ← b.graph.flatten i }
    let ps := b.graph.pairs i
    .ok (ps, ← ps.foldlM entry b)
  | _ => .error .malformed

/-- Builds the only pair of a mapping. -/
def single (b : Builder) (i : Nat) : Except Fault ((Nat × Nat) × Builder) := do
  match b.graph.content i with
  | .mapping [p] => .ok (p, ← (← b.build p.1).build p.2)
  | _ => .error .malformed

/-- Builds mappings of one pair in order, and gives the pairs. -/
def singles (b : Builder) : List Nat → Except Fault (List (Nat × Nat) × Builder)
  | [] => .ok ([], b)
  | i :: rest => do
    let (p, b) ← b.single i
    let (ps, b) ← b.singles rest
    .ok (p :: ps, b)

def items (b : Builder) (i : Nat) : Except Fault (List Nat) :=
  match b.graph.content i with
  | .list is => .ok is
  | _ => .error .malformed

def complete (b : Builder) (i : Nat) : Except Fault Builder := do
  match b.at? i with
  | some (.list _) =>
    let is ← b.items i
    let b ← is.foldlM build b
    .ok (b.note i (.list is))
  | some (.pairs _) =>
    let (ps, b) ← b.singles (← b.items i)
    .ok (b.note i (.pairs ps))
  | some (.set _) =>
    let (ps, b) ← b.entries i
    .ok (b.note i (.set (ps.map Prod.fst)))
  | some (.mapping _) =>
    let (ps, b) ← b.entries i
    .ok (b.note i (.mapping ps))
  | _ => .ok b

/-- Builds everything that waits. Each part waits at most once, so their number is fuel enough. -/
def completeAll : Nat → Builder → Except Fault Builder
  | 0, b => .ok b
  | fuel + 1, b =>
    match b.waiting with
    | [] => .ok b
    | i :: rest => do completeAll fuel (← { b with waiting := rest }.complete i)

end Builder

namespace Document

/-- The document of the parts that begin at one of them. -/
def ofGraph (g : Graph) (root : Nat) : Except Fault Document := do
  let b ← Builder.build ⟨g, Array.replicate g.size none, []⟩ root
  let b ← b.completeAll (g.size + 1)
  .ok ⟨b.built, root⟩

/-- The value of a part. Collections at depth zero show nothing of what they hold. -/
def valueAt (d : Document) : Nat → Nat → Value
  | depth, i =>
    match d.built[i]?.join with
    | none => .null
    | some (.scalar v) => v
    | some (.list is) =>
      match depth with
      | 0 => .list []
      | depth + 1 => .list (is.map (d.valueAt depth))
    | some (.pairs ps) =>
      match depth with
      | 0 => .pairs []
      | depth + 1 => .pairs (ps.map fun (k, v) => (d.valueAt depth k, d.valueAt depth v))
    | some (.set is) =>
      match depth with
      | 0 => .set []
      | depth + 1 => .set (is.foldl (fun ms i => Value.join (d.valueAt depth i) ms) [])
    | some (.mapping ps) =>
      match depth with
      | 0 => .mapping []
      | depth + 1 =>
        .mapping (ps.foldl (fun es (k, v) =>
          Value.enter (d.valueAt depth k) (d.valueAt depth v) es) [])

/-- The value of a document, down to a depth. -/
def value (d : Document) (depth : Nat) : Value := d.valueAt depth d.root

end Document

/-- The value of a text, down to a depth; a text without a document holds nothing. -/
def read (depth : Nat) (t : Supply) : Except Fault Value := do
  match ← document? (.ofText t) with
  | none => .ok .null
  | some (g, root) => (Document.ofGraph g root).map (·.value depth)

end Orchestration.Yaml
