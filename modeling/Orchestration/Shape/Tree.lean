import Orchestration.Shape.Kind
import Orchestration.Shape.Payload

/-!
# Orchestration.Shape.Tree

Shapes in a store, addressed by their positions.

* `Node`        — header, payload, parent and children of one shape.
* `Tree`        — the nodes in order of creation, and the index of identifiers.
* `Tree.add`, `Tree.register`, `Tree.attach`, `Tree.adopt` — the four ways a tree changes.
* `Tree.walk`   — every handle below a list of roots: a node, its children, its regions.
* `Tree.ancestors` — the nodes around a node, innermost first.
-/

namespace Orchestration.Shape

/-- One shape of a tree. -/
structure Node where
  kind : Kind
  tag : String
  oid : String
  name : String
  sequence : Int
  context : String
  payload : Payload
  parent : Option Handle
  children : List Handle
  deriving DecidableEq

namespace Node

/-- Identifier or tag, context and sequence number. -/
def uniqueId (n : Node) : String :=
  (if n.oid = "" then n.tag else n.oid) ++ "@" ++ n.context ++ "#" ++ toString n.sequence

def isActivating (n : Node) : Bool :=
  n.kind == .receive &&
    match n.payload with
    | .receive _ activate _ _ => activate
    | _ => false

/-- Everything directly inside the node: its children, then its regions. -/
def inside (n : Node) : List Handle := n.children ++ n.payload.handles

end Node

/-- The nodes in order of creation; the handle of a node is its position. `index` holds the
identifiers in order of registration. -/
structure Tree where
  nodes : Array Node
  index : List (String × Handle)

namespace Tree

def empty : Tree := ⟨#[], []⟩

def size (t : Tree) : Nat := t.nodes.size

def node? (t : Tree) (h : Handle) : Option Node := t.nodes[h]?

/-- The nodes of the handles; handles beyond the end are left out. -/
def resolve (t : Tree) (hs : List Handle) : List Node := hs.filterMap t.node?

def lookup (t : Tree) (oid : String) : Option Handle := t.index.lookup oid

/-- Appends a node; its handle is the former size. -/
def add (t : Tree) (n : Node) : Tree := { t with nodes := t.nodes.push n }

/-- Whether the node of a handle can be registered: it has an identifier, and a new one. -/
def registers (t : Tree) (h : Handle) : Bool :=
  match t.node? h with
  | none => false
  | some n => n.oid != "" && (t.lookup n.oid).isNone

/-- Enters a node into the index. The first node of an identifier keeps its entry. -/
def register (t : Tree) (h : Handle) : Tree :=
  match t.node? h with
  | none => t
  | some n =>
    if n.oid ≠ "" ∧ t.lookup n.oid = none then { t with index := t.index ++ [(n.oid, h)] } else t

def update (t : Tree) (h : Handle) (f : Node → Node) : Tree :=
  { t with nodes := t.nodes.modify h f }

/-- Puts `child` at the end of the children of `parent`. -/
def attach (t : Tree) (child parent : Handle) : Tree :=
  (t.update child fun n => { n with parent := some parent }).update parent fun n =>
    { n with children := n.children ++ [child] }

/-- Makes `owner` the parent of nodes that stand in its regions. -/
def adopt (t : Tree) (hs : List Handle) (owner : Handle) : Tree :=
  hs.foldl (fun t h => t.update h fun n => { n with parent := some owner }) t

/-- The handles reached within `depth` levels: each root, what hangs under it, then what stands in
its regions. -/
def walkWithin (t : Tree) : Nat → List Handle → List Handle
  | 0, _ => []
  | depth + 1, hs =>
    hs.flatMap fun h =>
      h :: ((t.node? h).map fun n => t.walkWithin depth n.inside).getD []

/-- Every handle reached from the roots, in order. No path through a tree is longer than the tree
is large. -/
def walk (t : Tree) (roots : List Handle) : List Handle := t.walkWithin (t.size + 1) roots

def ancestorsWithin (t : Tree) : Nat → Handle → List Handle
  | 0, _ => []
  | steps + 1, h =>
    match (t.node? h).bind Node.parent with
    | none => []
    | some p => p :: t.ancestorsWithin steps p

/-- The nodes around a node, innermost first. -/
def ancestors (t : Tree) (h : Handle) : List Handle := t.ancestorsWithin t.size h

/-- The innermost node of a kind around a node. -/
def findAncestor (t : Tree) (h : Handle) (kind : Kind) : Option Handle :=
  (t.ancestors h).find? fun a => (t.node? a).any fun n => n.kind == kind

end Tree

end Orchestration.Shape
