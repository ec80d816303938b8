import Orchestration.Shape.Growth

/-!
# Orchestration.Proofs.Shape.Layout

Where growing puts an outline, in closed form. The nodes of an outline stand one after the other
from a first handle on: the shape itself, its regions, its children.

* `Outline.laid` — those nodes with their handles, computed from the outline alone.
* `Tree.placeAll_eq` — growing appends exactly these nodes: every later change of an owner (its
  regions, its children) is already part of the node that `laid` shows.
-/

namespace Orchestration.Shape

namespace Outline

mutual

/-- How many shapes an outline describes, itself included. -/
def count : Outline → Nat
  | ⟨_, regions, children⟩ => 1 + (countRegions regions + countAll children)

/-- How many shapes stand in the regions. -/
def countRegions : List (Slot × List Outline) → Nat
  | [] => 0
  | (_, shapes) :: rest => countAll shapes + countRegions rest

/-- How many shapes the outlines describe. -/
def countAll : List Outline → Nat
  | [] => 0
  | o :: rest => o.count + countAll rest

end

mutual

/-- How many sequence numbers of its context an outline takes; regions take none. -/
def width : Outline → Nat
  | ⟨_, _, children⟩ => 1 + widthAll children

/-- How many sequence numbers the outlines take. -/
def widthAll : List Outline → Nat
  | [] => 0
  | o :: rest => o.width + widthAll rest

end

/-- The handles of shapes side by side, the first of which is `start`. -/
def handles (start : Handle) : List Outline → List Handle
  | [] => []
  | o :: rest => start :: handles (start + o.count) rest

/-- The handles that stand directly in regions, the first of which is `start`. -/
def regionHandles (start : Handle) : List (Slot × List Outline) → List (Slot × List Handle)
  | [] => []
  | (slot, shapes) :: rest =>
    (slot, handles start shapes) :: regionHandles (start + countAll shapes) rest

end Outline

/-- Puts the handles of several regions into a payload. -/
def Payload.furnish (p : Payload) (regions : List (Slot × List Handle)) : Payload :=
  regions.foldl (fun p r => p.put r.1 r.2) p

/-- The node of a sketch, its regions and children known. -/
def Sketch.owner (s : Sketch) (path : String) (sequence : Int) (parent : Option Handle)
    (regions : List (Slot × List Handle)) (children : List Handle) : Node :=
  { s.node path sequence parent with payload := s.payload.furnish regions, children := children }

namespace Outline

mutual

/-- The nodes of an outline with their handles, the first of which is `start`. -/
def laid (start : Handle) (path : String) (next : Nat) (parent : Option Handle) :
    Outline → List (Handle × Node)
  | ⟨s, regions, children⟩ =>
    let below := start + 1 + countRegions regions
    (start,
      s.owner path next parent (regionHandles (start + 1) regions) (handles below children)) ::
      (laidRegions (start + 1) s path next start regions ++
        laidAll below path (next + 1) (some start) children)

/-- The nodes in the regions of a shape. -/
def laidRegions (start : Handle) (s : Sketch) (path : String) (sequence : Nat) (owner : Handle) :
    List (Slot × List Outline) → List (Handle × Node)
  | [] => []
  | (slot, shapes) :: rest =>
    laidAll start (s.regionPath path sequence slot) 0 (some owner) shapes ++
      laidRegions (start + countAll shapes) s path sequence owner rest

/-- The nodes of outlines side by side. -/
def laidAll (start : Handle) (path : String) (next : Nat) (parent : Option Handle) :
    List Outline → List (Handle × Node)
  | [] => []
  | o :: rest =>
    laid start path next parent o ++
      laidAll (start + o.count) path (next + o.width) parent rest

end

/-! ## Handles are consecutive -/

mutual

theorem laid_handles (start : Handle) (path : String) (next : Nat) (parent : Option Handle) :
    (o : Outline) → (o.laid start path next parent).map Prod.fst = List.range' start o.count
  | ⟨s, regions, children⟩ => by
    have hr := laidRegions_handles (start + 1) s path next start regions
    have hc := laidAll_handles (start + 1 + countRegions regions) path (next + 1) (some start)
      children
    rw [laid, count, List.map_cons, List.map_append, hr, hc, List.range'_append_1, Nat.add_comm 1,
      List.range'_succ]

theorem laidRegions_handles (start : Handle) (s : Sketch) (path : String) (sequence : Nat)
    (owner : Handle) : (regions : List (Slot × List Outline)) →
      (laidRegions start s path sequence owner regions).map Prod.fst =
        List.range' start (countRegions regions)
  | [] => rfl
  | (slot, shapes) :: rest => by
    have hs := laidAll_handles start (s.regionPath path sequence slot) 0 (some owner) shapes
    have hr := laidRegions_handles (start + countAll shapes) s path sequence owner rest
    rw [laidRegions, countRegions, List.map_append, hs, hr, List.range'_append_1]

theorem laidAll_handles (start : Handle) (path : String) (next : Nat) (parent : Option Handle) :
    (os : List Outline) →
      (laidAll start path next parent os).map Prod.fst = List.range' start (countAll os)
  | [] => rfl
  | o :: rest => by
    have ho := laid_handles start path next parent o
    have hr := laidAll_handles (start + o.count) path (next + o.width) parent rest
    rw [laidAll, countAll, List.map_append, ho, hr, List.range'_append_1]

end

theorem laid_length (start : Handle) (path : String) (next : Nat) (parent : Option Handle)
    (o : Outline) : (o.laid start path next parent).length = o.count := by
  simpa using congrArg List.length (laid_handles start path next parent o)

theorem laidRegions_length (start : Handle) (s : Sketch) (path : String) (sequence : Nat)
    (owner : Handle) (regions : List (Slot × List Outline)) :
    (laidRegions start s path sequence owner regions).length = countRegions regions := by
  simpa using congrArg List.length (laidRegions_handles start s path sequence owner regions)

theorem laidAll_length (start : Handle) (path : String) (next : Nat) (parent : Option Handle)
    (os : List Outline) : (laidAll start path next parent os).length = countAll os := by
  simpa using congrArg List.length (laidAll_handles start path next parent os)

end Outline

/-! ## Growing appends the laid nodes -/

theorem modify_append_left {α : Type} (f : α → α) {i : Nat} (xs ys : List α) (h : i < xs.length) :
    (xs ++ ys).modify i f = xs.modify i f ++ ys := by
  rw [List.modify_eq_take_cons_drop (by simp; omega), List.modify_eq_take_cons_drop h,
    List.take_append_of_le_length (by omega), List.getElem_append_left h,
    List.drop_append_of_le_length (by omega)]
  simp

/-- The last element is the one that a change at the former length meets. -/
theorem modify_last {α : Type} (f : α → α) (xs : List α) (x : α) :
    (xs ++ [x]).modify xs.length f = xs ++ [f x] := by
  rw [List.modify_eq_take_cons_drop (by simp)]
  simp

theorem fst_of_getElem? {l : List (Handle × Node)} {start i : Nat} {x : Handle × Node}
    (hl : l.map Prod.fst = List.range' start l.length) (hx : l[i]? = some x) :
    x.1 = start + i := by
  have hlt : i < l.length := (List.getElem?_eq_some_iff.mp hx).1
  have hr := congrArg (·[i]?) hl
  rw [List.getElem?_map, hx, List.getElem?_range' hlt, Nat.one_mul] at hr
  exact Option.some.inj hr

namespace Tree

/-- The nodes in order of creation. -/
def list (t : Tree) : List Node := t.nodes.toList

@[simp] theorem length_list (t : Tree) : t.list.length = t.size := by simp [list, size]

theorem node?_eq_getElem? (t : Tree) (h : Handle) : t.node? h = t.list[h]? := by
  simp [node?, list]

@[simp] theorem list_add (t : Tree) (n : Node) : (t.add n).list = t.list ++ [n] := by
  simp [add, list]

@[simp] theorem list_register (t : Tree) (h : Handle) : (t.register h).list = t.list := by
  unfold register
  split
  · rfl
  · split <;> rfl

@[simp] theorem list_update (t : Tree) (h : Handle) (f : Node → Node) :
    (t.update h f).list = t.list.modify h f := by
  simp [update, list]

theorem node?_update (t : Tree) (h : Handle) (f : Node → Node) (h' : Handle) :
    (t.update h f).node? h' = if h = h' then (t.node? h').map f else t.node? h' := by
  simp only [node?_eq_getElem?, list_update, List.getElem?_modify]
  split <;> simp

@[simp] theorem list_sprout (t : Tree) (s : Sketch) (path : String) (sequence : Int)
    (parent : Option Handle) :
    (t.sprout s path sequence parent).list = t.list ++ [s.node path sequence parent] := by
  simp [sprout]

@[simp] theorem size_update (t : Tree) (h : Handle) (f : Node → Node) :
    (t.update h f).size = t.size := by
  simp [update, size]

@[simp] theorem size_furnish (t : Tree) (owner : Handle) (slot : Slot) (hs : List Handle) :
    (t.furnish owner slot hs).size = t.size := size_update ..

@[simp] theorem list_extend (t : Tree) (owner : Handle) (hs : List Handle) :
    (t.extend owner hs).list =
      t.list.modify owner fun n => { n with children := n.children ++ hs } := by
  simp [extend]

@[simp] theorem list_furnish (t : Tree) (owner : Handle) (slot : Slot) (hs : List Handle) :
    (t.furnish owner slot hs).list =
      t.list.modify owner fun n => { n with payload := n.payload.put slot hs } := by
  simp [furnish]

theorem size_eq_of_list {t t' : Tree} {added : List Node} (h : t'.list = t.list ++ added) :
    t'.size = t.size + added.length := by
  rw [← length_list, h, List.length_append, length_list]

open Outline

mutual

/-- One shape with everything below it. The owner is changed twice after it has been appended:
its regions are furnished, then its children are entered. -/
theorem place_eq (t : Tree) (path : String) (next : Nat) (parent : Option Handle) :
    (o : Outline) →
      (t.place path next parent o).1 = next + o.width ∧
      (t.place path next parent o).2.list =
        t.list ++ (o.laid t.size path next parent).map Prod.snd
  | ⟨s, regions, children⟩ => by
    let sprouted := t.sprout s path next parent
    have hsize : sprouted.size = t.size + 1 := size_eq_of_list (list_sprout t s path next parent)
    have howner : t.size < sprouted.size := by omega
    have hr := placeRegions_list sprouted s path next t.size howner regions
    rw [hsize, list_sprout, ← length_list t, modify_last, length_list] at hr
    let furnished := sprouted.placeRegions s path next t.size regions
    have hsize' : furnished.size = t.size + 1 + countRegions regions := by
      rw [size_eq_of_list (hr.trans (List.append_assoc ..))]
      simp [laidRegions_length, Nat.add_assoc, Nat.add_comm 1]
    obtain ⟨hh, hn, hl⟩ := placeAll_eq furnished path (next + 1) (some t.size) children
    rw [hsize'] at hh hl
    simp only [place, width, laid]
    refine ⟨by rw [hn, Nat.add_assoc], ?_⟩
    -- the owner is the last of the nodes before its regions
    rw [list_extend, hl, hr, hh, modify_append_left _ _ _ (by simp),
      modify_append_left _ _ _ (by simp), ← length_list t, modify_last]
    simp [Sketch.node, Sketch.owner]

theorem placeRegions_list (t : Tree) (s : Sketch) (path : String) (sequence : Nat)
    (owner : Nat) (howner : owner < t.size) : (regions : List (Slot × List Outline)) →
      (t.placeRegions s path sequence owner regions).list =
        t.list.modify owner (fun n =>
          { n with payload := n.payload.furnish (regionHandles t.size regions) }) ++
        (laidRegions t.size s path sequence owner regions).map Prod.snd
  | [] => by
    have hid : t.list.modify owner (fun n => n) = t.list := List.modify_id owner t.list
    simp [placeRegions, regionHandles, laidRegions, Payload.furnish, hid]
  | (slot, shapes) :: rest => by
    obtain ⟨hh, -, hl⟩ := placeAll_eq t (s.regionPath path sequence slot) 0 (some owner) shapes
    let grown := t.placeAll (s.regionPath path sequence slot) 0 (some owner) shapes
    let furnished := grown.tree.furnish owner slot grown.handles
    have hsize : furnished.size = t.size + countAll shapes := by
      rw [size_furnish, size_eq_of_list hl, List.length_map, laidAll_length]
    have hr := placeRegions_list furnished s path sequence owner (by omega) rest
    rw [hsize, list_furnish, hl, hh, modify_append_left _ _ _ (by simpa using howner),
      modify_append_left _ _ _ (by simpa using howner), List.modify_modify_eq] at hr
    simp only [placeRegions, laidRegions, List.map_append]
    rw [hr]
    simp [regionHandles, Payload.furnish, Function.comp_def]

theorem placeAll_eq (t : Tree) (path : String) (next : Nat) (parent : Option Handle) :
    (os : List Outline) →
      (t.placeAll path next parent os).handles = Outline.handles t.size os ∧
      (t.placeAll path next parent os).next = next + widthAll os ∧
      (t.placeAll path next parent os).tree.list =
        t.list ++ (laidAll t.size path next parent os).map Prod.snd
  | [] => by simp [placeAll, Outline.handles, widthAll, laidAll]
  | o :: rest => by
    obtain ⟨hn, hl⟩ := place_eq t path next parent o
    let grown := (t.place path next parent o).2
    have hsize : grown.size = t.size + o.count := by
      rw [size_eq_of_list hl, List.length_map, laid_length]
    obtain ⟨hh, hw, ht⟩ := placeAll_eq grown path (next + o.width) parent rest
    rw [hsize] at hh ht
    simp only [placeAll, hn, Outline.handles, widthAll, laidAll]
    refine ⟨by rw [hh], by rw [hw, Nat.add_assoc], ?_⟩
    rw [ht, hl, List.map_append, List.append_assoc]

end

end Tree

end Orchestration.Shape
