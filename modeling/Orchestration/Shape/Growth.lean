import Orchestration.Shape.Outline

/-!
# Orchestration.Shape.Growth

Outlines take their place in a tree.

* `Context` — a scope of numbering: its path and the next sequence number.
* `Tree.grow` — adds shapes in a context, under a parent or at the top.

A shape is added before everything below it. Its children share its context; each of its regions
is numbered from zero in a context of its own.
-/

namespace Orchestration.Shape

/-- A scope of numbering. -/
structure Context where
  path : String
  next : Nat
  deriving DecidableEq

/-- The shapes added directly, the next sequence number, and the tree. -/
structure Grown where
  handles : List Handle
  next : Nat
  tree : Tree

/-- The node of a sketch, before its regions and children are known. -/
def Sketch.node (s : Sketch) (path : String) (sequence : Int) (parent : Option Handle) : Node :=
  ⟨s.kind, s.tag, s.oid, s.name, sequence, path, s.payload, parent, []⟩

/-- The part of a context's path that names the owner of a region. -/
def Sketch.regionKey (s : Sketch) (sequence : Nat) : String :=
  Text.orElse s.oid (Text.orElse s.name s.tag) ++ "#" ++ toString sequence

/-- The path of one of a shape's regions. -/
def Sketch.regionPath (s : Sketch) (path : String) (sequence : Nat) (slot : Slot) : String :=
  path ++ "/" ++ s.regionKey sequence ++ "." ++ slot.label

namespace Tree

/-- Appends the node of a sketch and registers it. -/
def sprout (t : Tree) (s : Sketch) (path : String) (sequence : Int) (parent : Option Handle) :
    Tree :=
  (t.add (s.node path sequence parent)).register t.size

/-- Puts handles at the end of a node's children. -/
def extend (t : Tree) (owner : Handle) (hs : List Handle) : Tree :=
  t.update owner fun n => { n with children := n.children ++ hs }

/-- Puts handles into one of a node's regions. -/
def furnish (t : Tree) (owner : Handle) (slot : Slot) (hs : List Handle) : Tree :=
  t.update owner fun n => { n with payload := n.payload.put slot hs }

mutual

/-- Adds a shape and everything below it; its handle is the former size. -/
def place (t : Tree) (path : String) (next : Nat) (parent : Option Handle) :
    Outline → Nat × Tree
  | ⟨s, regions, children⟩ =>
    let owner := t.size
    let t := placeRegions (t.sprout s path next parent) s path next owner regions
    let g := placeAll t path (next + 1) (some owner) children
    (g.next, g.tree.extend owner g.handles)

/-- Adds the regions of a shape, each in a context of its own. -/
def placeRegions (t : Tree) (s : Sketch) (path : String) (sequence : Nat) (owner : Handle) :
    List (Slot × List Outline) → Tree
  | [] => t
  | (slot, shapes) :: rest =>
    let g := placeAll t (s.regionPath path sequence slot) 0 (some owner) shapes
    placeRegions (g.tree.furnish owner slot g.handles) s path sequence owner rest

def placeAll (t : Tree) (path : String) (next : Nat) (parent : Option Handle) :
    List Outline → Grown
  | [] => ⟨[], next, t⟩
  | o :: rest =>
    let (next, grown) := t.place path next parent o
    let g := grown.placeAll path next parent rest
    ⟨t.size :: g.handles, g.next, g.tree⟩

end

/-- Adds shapes in a context, as the last children of `parent` if there is one. -/
def grow (t : Tree) (c : Context) (parent : Option Handle) (shapes : List Outline) : Grown :=
  let g := t.placeAll c.path c.next parent shapes
  match parent with
  | none => g
  | some p => { g with tree := g.tree.extend p g.handles }

end Tree

end Orchestration.Shape
