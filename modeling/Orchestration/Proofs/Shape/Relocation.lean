import Orchestration.Proofs.Shape.Index
import Orchestration.Proofs.Shape.Regions
import Orchestration.Proofs.Shape.Sequence

/-!
# Orchestration.Proofs.Shape.Relocation

Shapes grow on a tree as they grow on the empty one, only further up.

* `Payload.rename`, `Node.moved` — a node with other handles in its content, and with all of its
  handles moved up.
* `Outline.laidAll_moved` — where an outline is laid decides handles only.
* `Tree.Shadows` — what two trees have in common that grow side by side, one of them out of nothing:
  the index of the other holds the same entries, those of known identifiers left out.
* `Tree.grow_relocates` — what growing adds, what it leaves alone, what it enters into the index.
-/

namespace Orchestration.Shape

open Designer (Element)

/-! ## Renamed contents -/

namespace Payload

/-- A content with other handles in its regions. -/
def rename (f : Handle → Handle) : Payload → Payload
  | .construct messages inner => .construct messages (inner.map f)
  | .decide condition t e => .decide condition (t.map f) (e.map f)
  | .switch subject cases d =>
    .switch subject (cases.map fun c => (c.1, c.2.map f)) (d.map f)
  | .listen branches => .listen (branches.map (List.map f))
  | p => p

theorem rename_of_bare (f : Handle → Handle) {p : Payload} (hp : p.bare = p) : p.rename f = p := by
  rw [← hp]
  cases p <;> rfl

theorem putCase_rename (f : Handle → Handle) (key : String) (hs : List Handle)
    (cases : List (String × List Handle)) :
    (putCase key hs cases).map (fun c => (c.1, c.2.map f)) =
      putCase key (hs.map f) (cases.map fun c => (c.1, c.2.map f)) := by
  induction cases with
  | nil => rfl
  | cons c rest ih =>
    rw [putCase, List.map_cons, putCase]
    split
    · simp
    · simp [ih]

theorem put_rename (f : Handle → Handle) (slot : Slot) (hs : List Handle) (p : Payload) :
    (p.put slot hs).rename f = (p.rename f).put slot (hs.map f) := by
  cases p with
  | decide condition t e => cases slot <;> simp [put, rename]
  | switch subject cases d => cases slot <;> simp [put, rename, putCase_rename]
  | listen branches => cases slot <;> simp [put, rename]
  | construct messages inner => cases slot <;> simp [put, rename]
  | _ => rfl

theorem furnish_rename (f : Handle → Handle) (rs : List (Slot × List Handle)) (p : Payload) :
    (p.furnish rs).rename f = (p.rename f).furnish (mapRegions f rs) := by
  induction rs generalizing p with
  | nil => rfl
  | cons r rest ih =>
    rw [furnish_cons, ih, put_rename]
    rfl

theorem numberBranches_rename (f : Handle → Handle) (number : Nat)
    (branches : List (List Handle)) :
    numberBranches number (branches.map (List.map f)) =
      (numberBranches number branches).map fun s => (s.1, s.2.map f) := by
  induction branches generalizing number with
  | nil => rfl
  | cons b rest ih => rw [List.map_cons, numberBranches, ih, numberBranches, List.map_cons]

/-- The regions keep their labels. -/
theorem slots_rename (f : Handle → Handle) (p : Payload) :
    (p.rename f).slots = p.slots.map fun s => (s.1, s.2.map f) := by
  cases p with
  | switch subject cases d => simp [rename, slots, Function.comp_def]
  | listen branches => exact numberBranches_rename f 1 branches
  | _ => rfl

theorem handles_rename (f : Handle → Handle) (p : Payload) :
    (p.rename f).handles = p.handles.map f := by
  rw [handles, handles, slots_rename, List.flatMap_map, List.map_flatMap]

end Payload

/-- A node that stands `k` places further up. Without a parent it comes under the given one. -/
def Node.moved (k : Nat) (parent : Option Handle) (n : Node) : Node :=
  { n with
    payload := n.payload.rename (· + k)
    parent := (n.parent.map (· + k)).or parent
    children := n.children.map (· + k) }

theorem Node.moved_inside (k : Nat) (parent : Option Handle) (n : Node) :
    (n.moved k parent).inside = n.inside.map (· + k) := by
  rw [inside, inside, List.map_append, ← Payload.handles_rename]
  rfl

/-! ## Outlines laid further up -/

namespace Outline

theorem handles_moved (k start : Nat) (os : List Outline) :
    handles (start + k) os = (handles start os).map (· + k) := by
  induction os generalizing start with
  | nil => rfl
  | cons o rest ih => rw [handles, handles, List.map_cons, Nat.add_right_comm, ih]

theorem regionHandles_moved (k start : Nat) (regions : List (Slot × List Outline)) :
    regionHandles (start + k) regions = mapRegions (· + k) (regionHandles start regions) := by
  induction regions generalizing start with
  | nil => rfl
  | cons r rest ih =>
    rw [regionHandles, regionHandles, Nat.add_right_comm, ih, handles_moved]
    rfl

/-- Nodes with their handles, moved up. -/
def movedAll (k : Nat) (parent : Option Handle) (l : List (Handle × Node)) :
    List (Handle × Node) :=
  l.map fun x => (x.1 + k, x.2.moved k parent)

theorem owner_moved {s : Sketch} (hs : s.Fresh) (k start : Nat) (path : String)
    (sequence : Int) (p? parent : Option Handle) (regions : List (Slot × List Outline))
    (below : Nat) (children : List Outline) :
    s.owner path sequence ((p?.map (· + k)).or parent) (regionHandles (start + k) regions)
        (handles (below + k) children) =
      (s.owner path sequence p? (regionHandles start regions) (handles below children)).moved k
        parent := by
  have hpayload : (s.payload.furnish (regionHandles start regions)).rename (· + k) =
      s.payload.furnish (regionHandles (start + k) regions) := by
    rw [Payload.furnish_rename, Payload.rename_of_bare _ hs.bare, regionHandles_moved]
  rw [Sketch.owner, Sketch.owner, Node.moved, hpayload, handles_moved]
  rfl

mutual

/-- Where an outline is laid and under what decides its handles and the parent of its first node. -/
theorem laid_moved (k start : Nat) (path : String) (next : Nat) (p? parent : Option Handle) :
    (o : Outline) → o.Proper →
      o.laid (start + k) path next ((p?.map (· + k)).or parent) =
        movedAll k parent (o.laid start path next p?)
  | ⟨s, regions, children⟩ => by
    rintro ⟨hs, -, hregions, hchildren⟩
    have hr := laidRegions_moved k (start + 1) s path next start parent regions hregions
    have hc := laidAll_moved k (start + 1 + countRegions regions) path (next + 1) (some start)
      parent children hchildren
    have howner := owner_moved hs k (start + 1) path next p? parent regions
      (start + 1 + countRegions regions) children
    simp only [Option.map_some, Option.some_or] at hc
    rw [laid, laid, movedAll, List.map_cons, List.map_append]
    rw [← howner]
    rw [movedAll] at hr hc
    rw [← hr, ← hc]
    simp only [Nat.add_right_comm _ k]

theorem laidRegions_moved (k start : Nat) (s : Sketch) (path : String) (sequence : Nat)
    (owner : Nat) (parent : Option Handle) : (regions : List (Slot × List Outline)) →
      ProperRegions s.payload regions →
      laidRegions (start + k) s path sequence (owner + k) regions =
        movedAll k parent (laidRegions start s path sequence owner regions)
  | [], _ => rfl
  | (slot, shapes) :: rest, ⟨_, hshapes, hrest⟩ => by
    have hs := laidAll_moved k start (s.regionPath path sequence slot) 0 (some owner) parent shapes
      hshapes
    have hr := laidRegions_moved k (start + countAll shapes) s path sequence owner parent rest hrest
    simp only [Option.map_some, Option.some_or] at hs
    rw [laidRegions, laidRegions, hs, Nat.add_right_comm, hr, movedAll, movedAll, movedAll,
      List.map_append]

theorem laidAll_moved (k start : Nat) (path : String) (next : Nat) (p? parent : Option Handle) :
    (os : List Outline) → ProperAll os →
      laidAll (start + k) path next ((p?.map (· + k)).or parent) os =
        movedAll k parent (laidAll start path next p? os)
  | [], _ => rfl
  | o :: rest, ⟨ho, hrest⟩ => by
    have hfirst := laid_moved k start path next p? parent o ho
    have hr := laidAll_moved k (start + o.count) path (next + o.width) p? parent rest hrest
    rw [laidAll, laidAll, hfirst, Nat.add_right_comm, hr, movedAll, movedAll, movedAll,
      List.map_append]

end

end Outline

/-! ## Two trees that grow side by side -/

namespace Tree

/-- `g` has grown out of `t` as `e` has grown out of nothing, as far as the index tells: it holds
the entries of `e`, moved up, except those of identifiers that `t` knows. -/
structure Shadows (t e g : Tree) : Prop where
  size : g.size = e.size + t.size
  index : g.index = t.index ++
    (e.index.filter fun x => (t.lookup x.1).isNone).map fun x => (x.1, x.2 + t.size)

namespace Shadows

variable {t e g : Tree}

theorem lookup_eq_none_iff (hg : Shadows t e g) {oid : String} :
    g.lookup oid = none ↔ t.lookup oid = none ∧ e.lookup oid = none := by
  simp only [lookup_eq_none_iff_not_mem, hg.index, List.mem_append, List.mem_map,
    List.mem_filter, Option.isNone_iff_eq_none, Prod.exists, Prod.mk.injEq, not_or]
  constructor
  · intro hnone
    refine ⟨fun h => (hnone h).1, fun h hm => ?_⟩
    exact (hnone (h + t.size)).2 ⟨oid, h, ⟨hm, fun h' => (hnone h').1⟩, rfl, rfl⟩
  · rintro ⟨ht, he⟩ h
    refine ⟨ht h, ?_⟩
    rintro ⟨_, h', ⟨hm, -⟩, rfl, -⟩
    exact he h' hm

theorem update (hg : Shadows t e g) (h h' : Handle) (f f' : Node → Node) :
    Shadows t (e.update h f) (g.update h' f') :=
  ⟨by rw [size_update, size_update, hg.size], hg.index⟩

theorem sprout (hg : Shadows t e g) (s : Sketch) (path : String) (sequence : Int)
    (parent parent' : Option Handle) :
    Shadows t (e.sprout s path sequence parent) (g.sprout s path sequence parent') := by
  have hsize : ∀ (t : Tree) parent, (t.sprout s path sequence parent).size = t.size + 1 :=
    fun t parent => size_eq_of_list (t.list_sprout s path sequence parent)
  refine ⟨by rw [hsize, hsize, hg.size, Nat.add_right_comm], ?_⟩
  have hnone : g.lookup s.oid = none ↔ t.lookup s.oid = none ∧ e.lookup s.oid = none :=
    hg.lookup_eq_none_iff
  rw [index_sprout, index_sprout]
  by_cases hnew : s.oid ≠ "" ∧ e.lookup s.oid = none
  · rw [if_pos hnew]
    by_cases ht : t.lookup s.oid = none
    · rw [if_pos ⟨hnew.1, hnone.mpr ⟨ht, hnew.2⟩⟩, hg.index, hg.size]
      simp [ht]
    · rw [if_neg fun h => ht (hnone.mp h.2).1, hg.index]
      simp [ht]
  · rw [if_neg hnew, if_neg fun h => hnew ⟨h.1, (hnone.mp h.2).2⟩, hg.index]

mutual

theorem place (path : String) (next : Nat) (parent parent' : Option Handle) {e g : Tree}
    (hg : Shadows t e g) : (o : Outline) →
      Shadows t (e.place path next parent o).2 (g.place path next parent' o).2
  | ⟨s, regions, children⟩ => by
    have hregions := placeRegions s path next e.size g.size
      (hg.sprout s path next parent parent') regions
    exact (placeAll path (next + 1) (some e.size) (some g.size) hregions children).update _ _ _ _

theorem placeRegions (s : Sketch) (path : String) (sequence : Nat) (owner owner' : Handle)
    {e g : Tree} (hg : Shadows t e g) : (regions : List (Slot × List Outline)) →
      Shadows t (e.placeRegions s path sequence owner regions)
        (g.placeRegions s path sequence owner' regions)
  | [] => hg
  | (slot, shapes) :: rest => by
    have hshapes := placeAll (s.regionPath path sequence slot) 0 (some owner) (some owner') hg
      shapes
    exact placeRegions s path sequence owner owner' (hshapes.update _ _ _ _) rest

theorem placeAll (path : String) (next : Nat) (parent parent' : Option Handle) {e g : Tree}
    (hg : Shadows t e g) : (os : List Outline) →
      Shadows t (e.placeAll path next parent os).tree (g.placeAll path next parent' os).tree
  | [] => hg
  | o :: rest => by
    have hnext : (e.place path next parent o).1 = (g.place path next parent' o).1 := by
      rw [(place_eq e path next parent o).1, (place_eq g path next parent' o).1]
    have hfirst := place path next parent parent' hg o
    simp only [Tree.placeAll, hnext]
    exact placeAll path (g.place path next parent' o).1 parent parent' hfirst rest

end

theorem grow (hg : Shadows t e g) (c : Context) (parent parent' : Option Handle)
    (os : List Outline) : Shadows t (e.grow c parent os).tree (g.grow c parent' os).tree := by
  have hall := placeAll c.path c.next parent parent' hg os
  cases parent <;> cases parent' <;>
    exact ⟨by simpa [Tree.grow, extend] using hall.size, hall.index⟩

end Shadows

theorem shadows_empty (t : Tree) : Shadows t empty t :=
  ⟨by simp [empty, Tree.size], by simp [empty]⟩

/-! ## Growing anywhere -/

/-- The first node from a handle on that carries an identifier. -/
structure FirstFrom (t : Tree) (start : Handle) (oid : String) (h : Handle) : Prop where
  late : start ≤ h
  carries : t.oid? h = some oid
  least : ∀ h', start ≤ h' → t.oid? h' = some oid → h ≤ h'

section

variable (t : Tree) (c : Context) {parent : Option Handle} {os : List Outline}

theorem grow_empty_list : (empty.grow c none os).tree.list =
    (Outline.laidAll 0 c.path c.next none os).map Prod.snd :=
  (placeAll_eq empty c.path c.next none os).2.2

theorem grow_empty_range : (Outline.laidAll 0 c.path c.next none os).map Prod.fst =
    List.range (empty.grow c none os).tree.size := by
  have hsize : (empty.grow c none os).tree.size = Outline.countAll os := by
    rw [grow_size, empty, Tree.size, Array.size_empty, Nat.zero_add]
  rw [hsize, Outline.laidAll_handles, List.range_eq_range']

theorem grow_empty_linked (hos : Outline.ProperAll os) :
    (empty.grow c none os).tree.Linked (empty.grow c none os).handles := by
  rw [(grow_handles empty c none os).1]
  exact linked_of_stand (grow_empty_list c) (grow_empty_range c)
    (Outline.laidAll_stand 0 c.path c.next none os hos)

theorem grow_size_empty : (t.grow c parent os).tree.size =
    (empty.grow c none os).tree.size + t.size := by
  rw [grow_size, grow_size, empty, Tree.size, Tree.size, Array.size_empty, Nat.zero_add,
    Nat.add_comm]

/-- The new nodes are those that grow on the empty tree. -/
theorem grow_node?_moved (hparent : ∀ p, parent = some p → p < t.size)
    (hos : Outline.ProperAll os) (h : Nat) : (t.grow c parent os).tree.node? (h + t.size) =
      ((empty.grow c none os).tree.node? h).map (Node.moved t.size parent) := by
  cases hn : (empty.grow c none os).tree.node? h with
  | none =>
    have hsize : (t.grow c parent os).tree.size = _ := t.grow_size_empty c
    rw [node?_eq_getElem?, List.getElem?_eq_none_iff, length_list] at hn
    rw [Option.map_none, node?_eq_getElem?, List.getElem?_eq_none_iff, length_list, hsize]
    exact Nat.add_le_add_right hn t.size
  | some n =>
    have hm := (mem_iff_node? (grow_empty_list c) (grow_empty_range c) h n).mpr hn
    have hmoved := Outline.laidAll_moved t.size 0 c.path c.next none parent os hos
    rw [Option.map_none, Option.none_or, Nat.zero_add] at hmoved
    refine t.grow_held c hparent os (h + t.size, n.moved t.size parent) ?_
    rw [hmoved]
    exact List.mem_map.mpr ⟨(h, n), hm, rfl⟩

/-- What was there before is left alone, but for the children of the parent. -/
theorem grow_node?_of_lt {h : Handle} (hh : h < t.size) : (t.grow c parent os).tree.node? h =
    (t.node? h).map fun n =>
      if parent = some h then
        { n with children := n.children ++ (t.grow c parent os).handles }
      else n := by
  have hbefore : (t.placeAll c.path c.next parent os).tree.node? h = t.node? h := by
    rw [node?_eq_getElem?, (placeAll_eq t c.path c.next parent os).2.2,
      List.getElem?_append_left (by rwa [length_list]), ← node?_eq_getElem?]
  cases parent with
  | none => simpa [grow] using hbefore
  | some p =>
    by_cases hp : p = h
    · subst hp
      simp [grow, extend, node?_update, hbefore]
    · simp [grow, extend, node?_update, hbefore, hp]

/-- Of the identifiers that are new the first node is entered, and nothing else. -/
theorem grow_index (hparent : ∀ p, parent = some p → p < t.size) (hos : Outline.ProperAll os) :
    ∃ added, (t.grow c parent os).tree.index = t.index ++ added ∧ (added.map Prod.fst).Nodup ∧
      ∀ oid h, (oid, h) ∈ added ↔ oid ≠ "" ∧ t.lookup oid = none ∧
        (t.grow c parent os).tree.FirstFrom t.size oid h := by
  have halone : (empty.grow c none os).tree.Indexed :=
    indexed_empty.placeAll c.path c.next none os
  have hoid : ∀ h, (t.grow c parent os).tree.oid? (h + t.size) =
      (empty.grow c none os).tree.oid? h := by
    intro h
    rw [oid?, t.grow_node?_moved c hparent hos, Option.map_map]
    rfl
  refine ⟨_, ((shadows_empty t).grow c none parent os).index, ?_, fun oid h => ?_⟩
  · rw [List.map_map]
    exact (List.filter_sublist.map Prod.fst).nodup halone.keys
  · simp only [List.mem_map, List.mem_filter, Prod.exists, Prod.mk.injEq,
      Option.isNone_iff_eq_none, halone.entry]
    constructor
    · rintro ⟨_, h, ⟨⟨hne, hfirst⟩, hnew⟩, rfl, rfl⟩
      refine ⟨hne, hnew, Nat.le_add_left _ _, (hoid h).trans hfirst.carries, fun h' hh' ho => ?_⟩
      obtain ⟨i, rfl⟩ := Nat.exists_eq_add_of_le' hh'
      exact Nat.add_le_add_right (hfirst.least i ((hoid i).symm.trans ho)) t.size
    · rintro ⟨hne, hnew, hlate, hcarries, hleast⟩
      obtain ⟨i, rfl⟩ := Nat.exists_eq_add_of_le' hlate
      refine ⟨oid, i, ⟨⟨hne, (hoid i).symm.trans hcarries, fun h' ho => ?_⟩, hnew⟩, rfl, rfl⟩
      have hle := hleast (h' + t.size) (Nat.le_add_left _ _) ((hoid h').trans ho)
      exact Nat.le_of_add_le_add_right hle

end

/-- The shapes of a container grow on any tree as they grow on the empty one: their nodes are the
same, all handles moved up by the size of the tree, and those that had no parent are under the given
one. Of the nodes that were there only the parent changes, which gains the new handles as its last
children. The index keeps its entries and gains, for every identifier that it did not know, the
first new node that carries it. -/
theorem grow_relocates (t : Tree) (c : Context) {parent : Option Handle}
    (hparent : ∀ p, parent = some p → p < t.size) (container : Element) :
    let shapes := Outline.ofElements container.children
    let g := t.grow c parent shapes
    let alone := empty.grow c none shapes
    g.handles = alone.handles.map (· + t.size) ∧ g.next = alone.next ∧
      g.tree.size = alone.tree.size + t.size ∧
      (∀ h, g.tree.node? (h + t.size) =
        (alone.tree.node? h).map (Node.moved t.size parent)) ∧
      (∀ h n, alone.tree.node? h = some n → (n.parent = none ↔ h ∈ alone.handles)) ∧
      (∀ h < t.size, g.tree.node? h = (t.node? h).map fun n =>
        if parent = some h then { n with children := n.children ++ g.handles } else n) ∧
      ∃ added, g.tree.index = t.index ++ added ∧ (added.map Prod.fst).Nodup ∧
        ∀ oid h, (oid, h) ∈ added ↔
          oid ≠ "" ∧ t.lookup oid = none ∧ g.tree.FirstFrom t.size oid h := by
  intro shapes g alone
  have hproper : Outline.ProperAll shapes := Outline.ofElements_proper container.children
  obtain ⟨hhandles, hnext⟩ := t.grow_handles c parent shapes
  obtain ⟨hhandles', hnext'⟩ := empty.grow_handles c none shapes
  have hmoved := Outline.handles_moved t.size 0 shapes
  rw [Nat.zero_add] at hmoved
  refine ⟨?_, hnext.trans hnext'.symm, t.grow_size_empty c,
    t.grow_node?_moved c hparent hproper,
    fun h n hn => (grow_empty_linked c hproper).parent_eq_none_iff hn,
    fun h hh => t.grow_node?_of_lt c hh, t.grow_index c hparent hproper⟩
  rw [hhandles, hhandles', hmoved]
  rfl

/-- Below a scope: a receive whose identifier the scope has, and one whose identifier is new. -/
theorem grow_relocates_below_scope :
    let scope : Tree := empty.sprout ⟨.scope, "Scope", "a", "", .nothing⟩ "body" 0 none
    let receive (oid : String) : Element := ⟨some "Receive", some oid, [], []⟩
    let container : Element := ⟨some "Scope", none, [], [receive "a", receive "b"]⟩
    let g := scope.grow ⟨"body", 1⟩ (some 0) (Outline.ofElements container.children)
    (∀ p, some 0 = some p → p < scope.size) ∧ g.handles = [1, 2] ∧
      (g.tree.node? 0).map Node.children = some [1, 2] ∧
      g.tree.index = [("a", 0), ("b", 2)] := by
  intro scope receive container g
  have hparent : ∀ p, some 0 = some p → p < scope.size := by
    rintro p ⟨⟩
    decide
  obtain ⟨hhandles, -, -, -, -, hframe, -⟩ := scope.grow_relocates ⟨"body", 1⟩ hparent container
  have hg : g.handles = [1, 2] := by
    rw [hhandles]
    decide +kernel
  refine ⟨hparent, hg, ?_, ?_⟩
  · rw [hframe 0 (by decide), hg]
    decide +kernel
  · decide +kernel

end Tree

end Orchestration.Shape
