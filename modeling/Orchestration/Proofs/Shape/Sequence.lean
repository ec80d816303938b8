import Orchestration.Proofs.Shape.Links
import Orchestration.Proofs.Shape.Record

/-!
# Orchestration.Proofs.Shape.Sequence

Sequence numbers of shapes that have grown.

* `Tree.Preorder` — the nodes that handles lead to through children alone, a node before those
  under it.
* `Tree.Numbered` — these nodes stand in one context and are numbered without a gap.
* `Outline.flatAll` — outlines with all outlines below them, in the order in which they grow.
* `Tree.grow_numbered` — what grows in a context is numbered there from the context's next number
  on, and what stands in a region is numbered from zero in a context of its own.
-/

namespace Orchestration.Shape

open Designer (Element)

/-! ## Numbering -/

namespace Tree

/-- The nodes that handles lead to through children alone, in pre-order. -/
inductive Preorder (t : Tree) : List Handle → List Node → Prop where
  | nil : Preorder t [] []
  | cons {h : Handle} {hs : List Handle} {n : Node} {below others : List Node} :
      t.node? h = some n → Preorder t n.children below → Preorder t hs others →
      Preorder t (h :: hs) (n :: (below ++ others))

/-- The nodes below the handles are numbered in the context `path`: from `first` on, without a gap,
`next` being the number that comes then. -/
def Numbered (t : Tree) (path : String) (first next : Nat) (hs : List Handle) : Prop :=
  ∃ ns, t.Preorder hs ns ∧ next = first + ns.length ∧
    ns.map Node.sequence = (List.range' first ns.length).map Int.ofNat ∧ ∀ n ∈ ns, n.context = path

variable {t : Tree} {path : String} {first next : Nat}

/-- There is one such list of nodes. -/
theorem Preorder.unique {hs : List Handle} {ns ns' : List Node} (h : t.Preorder hs ns)
    (h' : t.Preorder hs ns') : ns = ns' := by
  induction h generalizing ns' with
  | nil => cases h'; rfl
  | cons hn _ _ ihBelow ihOthers =>
    cases h' with
    | cons hn' hBelow hOthers =>
      obtain rfl := Option.some.inj (hn.symm.trans hn')
      rw [ihBelow hBelow, ihOthers hOthers]

theorem Numbered.nil : t.Numbered path first first [] :=
  ⟨[], .nil, by simp⟩

/-- A node takes the first number, what is below it the following ones, and so on. -/
theorem Numbered.cons {h : Handle} {hs : List Handle} {n : Node} {mid : Nat}
    (hn : t.node? h = some n) (hsequence : n.sequence = first) (hpath : n.context = path)
    (hbelow : t.Numbered path (first + 1) mid n.children) (hrest : t.Numbered path mid next hs) :
    t.Numbered path first next (h :: hs) := by
  obtain ⟨below, hb, rfl, hbs, hbp⟩ := hbelow
  obtain ⟨others, ho, rfl, hos, hop⟩ := hrest
  refine ⟨n :: (below ++ others), .cons hn hb ho, ?_, ?_, ?_⟩
  · simp only [List.length_cons, List.length_append]
    omega
  · rw [List.map_cons, List.map_append, hsequence, hbs, hos, List.length_cons, List.length_append,
      List.range'_succ, ← List.range'_append_1, List.map_cons, List.map_append]
    rfl
  · intro m hm
    rcases List.mem_cons.mp hm with rfl | hm
    · exact hpath
    · exact (List.mem_append.mp hm).elim (hbp m) (hop m)

end Tree

/-! ## What has been laid is numbered -/

namespace Outline

/-- A tree that holds nodes at their handles. -/
def Held (t : Tree) (l : List (Handle × Node)) : Prop := ∀ x ∈ l, t.node? x.1 = some x.2

theorem Held.subset {t : Tree} {l l' : List (Handle × Node)} (h : Held t l) (hl : l' ⊆ l) :
    Held t l' := fun x hx => h x (hl hx)

mutual

/-- The owner of regions and children with its number; the regions take none of the context's. -/
theorem laid_numbered {t : Tree} (start : Nat) (path : String) (next last : Nat)
    (parent : Option Handle) {hs : List Handle} : (o : Outline) →
      Held t (o.laid start path next parent) → t.Numbered path (next + o.width) last hs →
        t.Numbered path next last (start :: hs)
  | ⟨s, regions, children⟩, ht, hrest => by
    rw [laid] at ht
    have hnode := ht _ (List.mem_cons_self ..)
    have hchildren := laidAll_numbered (start + 1 + countRegions regions) path (next + 1)
      (some start) children (ht.subset fun x hx => by simp [hx])
    rw [width, ← Nat.add_assoc] at hrest
    exact .cons hnode rfl rfl hchildren hrest

theorem laidAll_numbered {t : Tree} (start : Nat) (path : String) (next : Nat)
    (parent : Option Handle) : (os : List Outline) → Held t (laidAll start path next parent os) →
      t.Numbered path next (next + widthAll os) (handles start os)
  | [], _ => .nil
  | o :: rest, ht => by
    rw [laidAll] at ht
    have hrest := laidAll_numbered (start + o.count) path (next + o.width) parent rest
      (ht.subset (List.subset_append_right ..))
    rw [widthAll, handles, ← Nat.add_assoc]
    exact laid_numbered start path next _ parent o (ht.subset (List.subset_append_left ..)) hrest

end

/-- Each region is numbered from zero under a path of its own. -/
theorem laidRegions_numbered {t : Tree} {s : Sketch} {path : String} {sequence : Nat}
    {owner : Handle} (start : Nat) {regions : List (Slot × List Outline)}
    (ht : Held t (laidRegions start s path sequence owner regions)) :
    ∀ r ∈ regionHandles start regions,
      ∃ last, t.Numbered (s.regionPath path sequence r.1) 0 last r.2 := by
  induction regions generalizing start with
  | nil => simp [regionHandles]
  | cons region rest ih =>
    obtain ⟨slot, shapes⟩ := region
    rw [laidRegions] at ht
    intro r hr
    rcases List.mem_cons.mp hr with rfl | hr
    · exact ⟨_, laidAll_numbered start _ 0 (some owner) shapes
        (ht.subset (List.subset_append_left ..))⟩
    · exact ih (start + countAll shapes) (ht.subset (List.subset_append_right ..)) r hr

/-! ## Every outline has its place -/

mutual

/-- An outline with all outlines below it, in the order in which they grow. -/
def flat : Outline → List Outline
  | ⟨s, regions, children⟩ => ⟨s, regions, children⟩ :: (flatRegions regions ++ flatAll children)

/-- The outlines in the regions of a shape. -/
def flatRegions : List (Slot × List Outline) → List Outline
  | [] => []
  | (_, shapes) :: rest => flatAll shapes ++ flatRegions rest

def flatAll : List Outline → List Outline
  | [] => []
  | o :: rest => o.flat ++ flatAll rest

end

theorem flat_eq (o : Outline) : o.flat = o :: (flatRegions o.regions ++ flatAll o.children) := by
  obtain ⟨s, regions, children⟩ := o
  rw [flat]

mutual

theorem length_flat : (o : Outline) → o.flat.length = o.count
  | ⟨s, regions, children⟩ => by
    rw [flat, count, List.length_cons, List.length_append, length_flatRegions regions,
      length_flatAll children, Nat.add_comm]

theorem length_flatRegions : (regions : List (Slot × List Outline)) →
    (flatRegions regions).length = countRegions regions
  | [] => rfl
  | (_, shapes) :: rest => by
    rw [flatRegions, countRegions, List.length_append, length_flatAll shapes,
      length_flatRegions rest]

theorem length_flatAll : (os : List Outline) → (flatAll os).length = countAll os
  | [] => rfl
  | o :: rest => by
    rw [flatAll, countAll, List.length_append, length_flat o, length_flatAll rest]

end

/-- An outline laid somewhere among the given nodes, its own node at handle `h`. -/
def LaidIn (l : List (Handle × Node)) (h : Handle) (o : Outline) : Prop :=
  ∃ path next parent, o.laid h path next parent ⊆ l

theorem LaidIn.mono {l l' : List (Handle × Node)} {h : Handle} {o : Outline} (ho : LaidIn l h o)
    (hl : l ⊆ l') : LaidIn l' h o := by
  obtain ⟨path, next, parent, hsub⟩ := ho
  exact ⟨path, next, parent, List.Subset.trans hsub hl⟩

theorem getElem?_append_cases {α : Type} {xs ys : List α} {i : Nat} {x : α}
    (h : (xs ++ ys)[i]? = some x) :
    xs[i]? = some x ∨ ∃ j, i = xs.length + j ∧ ys[j]? = some x := by
  by_cases hi : i < xs.length
  · exact .inl (by rwa [List.getElem?_append_left hi] at h)
  · rw [List.getElem?_append_right (Nat.le_of_not_lt hi)] at h
    exact .inr ⟨i - xs.length, by omega, h⟩

mutual

theorem laid_flat (start : Nat) (path : String) (next : Nat) (parent : Option Handle) :
    (o : Outline) → ∀ i o', o.flat[i]? = some o' →
      LaidIn (o.laid start path next parent) (start + i) o'
  | ⟨s, regions, children⟩, i, o', h => by
    cases i with
    | zero =>
      obtain rfl := Option.some.inj h
      exact ⟨path, next, parent, List.Subset.refl _⟩
    | succ i =>
      rw [flat, List.getElem?_cons_succ] at h
      rw [laid]
      rcases getElem?_append_cases h with h | ⟨j, rfl, hj⟩
      · have hin := laidRegions_flat (start + 1) s path next start regions i o' h
        rw [Nat.add_assoc, Nat.add_comm 1] at hin
        exact hin.mono fun x hx => by simp [hx]
      · have hin := laidAll_flat (start + 1 + countRegions regions) path (next + 1) (some start)
          children j o' hj
        have hat : start + 1 + countRegions regions + j =
            start + ((flatRegions regions).length + j + 1) := by
          rw [length_flatRegions]
          omega
        rw [hat] at hin
        exact hin.mono fun x hx => by simp [hx]

theorem laidRegions_flat (start : Nat) (s : Sketch) (path : String) (sequence : Nat)
    (owner : Handle) : (regions : List (Slot × List Outline)) →
      ∀ i o', (flatRegions regions)[i]? = some o' →
        LaidIn (laidRegions start s path sequence owner regions) (start + i) o'
  | [], i, o', h => by simp [flatRegions] at h
  | (slot, shapes) :: rest, i, o', h => by
    rw [flatRegions] at h
    rw [laidRegions]
    rcases getElem?_append_cases h with h | ⟨j, rfl, hj⟩
    · exact (laidAll_flat start (s.regionPath path sequence slot) 0 (some owner) shapes i o' h).mono
        (List.subset_append_left ..)
    · have hin := laidRegions_flat (start + countAll shapes) s path sequence owner rest j o' hj
      rw [length_flatAll, ← Nat.add_assoc]
      exact hin.mono (List.subset_append_right ..)

theorem laidAll_flat (start : Nat) (path : String) (next : Nat) (parent : Option Handle) :
    (os : List Outline) → ∀ i o', (flatAll os)[i]? = some o' →
      LaidIn (laidAll start path next parent os) (start + i) o'
  | [], i, o', h => by simp [flatAll] at h
  | o :: rest, i, o', h => by
    rw [flatAll] at h
    rw [laidAll]
    rcases getElem?_append_cases h with h | ⟨j, rfl, hj⟩
    · exact (laid_flat start path next parent o i o' h).mono (List.subset_append_left ..)
    · have hin := laidAll_flat (start + o.count) path (next + o.width) parent rest j o' hj
      rw [length_flat, ← Nat.add_assoc]
      exact hin.mono (List.subset_append_right ..)

end

theorem regionHandles_sizes (start : Handle) (regions : List (Slot × List Outline)) :
    (regionHandles start regions).map (fun r => (r.1, r.2.length)) =
      regions.map fun r => (r.1, r.2.length) := by
  have hlength : ∀ (os : List Outline) (start : Handle), (handles start os).length = os.length := by
    intro os
    induction os with
    | nil => exact fun _ => rfl
    | cons o rest ih => exact fun start => by rw [handles, List.length_cons, ih, List.length_cons]
  induction regions generalizing start with
  | nil => rfl
  | cons r rest ih => rw [regionHandles, List.map_cons, List.map_cons, ih, hlength]

theorem owner_mem_laid (start : Handle) (path : String) (next : Nat) (parent : Option Handle)
    (o : Outline) : ∃ n, (start, n) ∈ o.laid start path next parent ∧ n.context = path ∧
      n.sequence = next ∧ n.payload = o.sketch.payload.furnish (regionHandles (start + 1) o.regions)
    := by
  obtain ⟨s, regions, children⟩ := o
  rw [laid]
  exact ⟨_, List.mem_cons_self .., rfl, rfl, rfl⟩

theorem regions_subset_laid (start : Handle) (path : String) (next : Nat) (parent : Option Handle)
    (o : Outline) :
    laidRegions (start + 1) o.sketch path next start o.regions ⊆ o.laid start path next parent := by
  obtain ⟨s, regions, children⟩ := o
  rw [laid]
  exact fun x hx => by simp [hx]

end Outline

/-! ## Growing -/

/-- A path that goes on after a slash where another ends. -/
def Below (path inner : String) : Prop := ∃ rest, inner = path ++ "/" ++ rest

theorem Sketch.below_regionPath (s : Sketch) (path : String) (sequence : Nat) (slot : Slot) :
    Below path (s.regionPath path sequence slot) :=
  ⟨s.regionKey sequence ++ "." ++ slot.label, by simp [regionPath, String.append_assoc]⟩

namespace Tree

/-- Becoming children of an earlier node changes nothing of what has been laid. -/
theorem grow_held (t : Tree) (c : Context) {parent : Option Handle}
    (hparent : ∀ p, parent = some p → p < t.size) (os : List Outline) :
    Outline.Held (t.grow c parent os).tree (Outline.laidAll t.size c.path c.next parent os) := by
  intro x hx
  have hnode := t.placeAll_node? c.path c.next parent os x hx
  cases parent with
  | none => exact hnode
  | some p =>
    have hlater : p ≠ x.1 := fun he =>
      Nat.lt_irrefl p (Nat.lt_of_lt_of_le (hparent p rfl) (he ▸ Outline.laidAll_mem_later hx))
    simpa [grow, extend, node?_update, hlater] using hnode

theorem grow_size (t : Tree) (c : Context) (parent : Option Handle) (os : List Outline) :
    (t.grow c parent os).tree.size = t.size + Outline.countAll os := by
  cases parent with
  | none => exact t.placeAll_size c.path c.next none os
  | some p =>
    rw [← t.placeAll_size c.path c.next (some p) os]
    exact size_update ..

theorem grow_handles (t : Tree) (c : Context) (parent : Option Handle) (os : List Outline) :
    (t.grow c parent os).handles = Outline.handles t.size os ∧
      (t.grow c parent os).next = c.next + Outline.widthAll os := by
  obtain ⟨hh, hn, -⟩ := placeAll_eq t c.path c.next parent os
  cases parent with
  | none => exact ⟨hh, hn⟩
  | some p => exact ⟨hh, hn⟩

/-- Shapes that grow in a context are numbered there without a gap, whatever their regions hold,
and each of the regions, one for each container, is numbered from zero in a context of its own. -/
theorem grow_numbered (t : Tree) (c : Context) {parent : Option Handle}
    (hparent : ∀ p, parent = some p → p < t.size) (container : Element) :
    let shapes := Outline.ofElements container.children
    let g := t.grow c parent shapes
    g.tree.Numbered c.path c.next g.next g.handles ∧
      g.tree.size = t.size + (Outline.flatAll shapes).length ∧
      ∀ i o, (Outline.flatAll shapes)[i]? = some o →
        ∃ n regions, g.tree.node? (t.size + i) = some n ∧
          n.payload = o.sketch.payload.furnish regions ∧
          regions.map (fun r => (r.1, r.2.length)) = o.regions.map (fun r => (r.1, r.2.length)) ∧
          ∀ r ∈ regions, ∃ inner last, Below n.context inner ∧
            g.tree.Numbered inner 0 last r.2 := by
  intro shapes g
  have hheld : Outline.Held g.tree _ := t.grow_held c hparent shapes
  obtain ⟨hhandles, hnext⟩ := t.grow_handles c parent shapes
  refine ⟨?_, ?_, fun i o ho => ?_⟩
  · rw [hhandles, hnext]
    exact Outline.laidAll_numbered t.size c.path c.next parent shapes hheld
  · rw [Outline.length_flatAll]
    exact t.grow_size c parent shapes
  · obtain ⟨path, next, p, hsub⟩ :=
      Outline.laidAll_flat t.size c.path c.next parent shapes i o ho
    have hlaid := hheld.subset hsub
    obtain ⟨n, hn, rfl, -, hp⟩ := Outline.owner_mem_laid (t.size + i) path next p o
    have hregions := Outline.laidRegions_numbered _
      (hlaid.subset (Outline.regions_subset_laid (t.size + i) n.context next p o))
    refine ⟨n, _, hlaid _ hn, hp, Outline.regionHandles_sizes _ o.regions, fun r hr => ?_⟩
    obtain ⟨last, hlast⟩ := hregions r hr
    exact ⟨_, last, o.sketch.below_regionPath n.context next r.1, hlast⟩

/-- An element without identifier and properties. -/
def untold (type : String) (children : List Element) : Element := ⟨some type, none, [], children⟩

/-- A listen with two and one delays in its branches, then a scope around a delay. -/
def branchedBody : Element :=
  untold "ServiceBody"
    [untold "Listen" [untold "Task" [untold "Delay" [], untold "Delay" []],
      untold "Task" [untold "Delay" []]],
    untold "Scope" [untold "Delay" []]]

/-- A tree of one scope, which has taken the number 0. -/
def scopeTree : Tree := empty.sprout ⟨.scope, "Scope", "", "", .nothing⟩ "body" 0 none

/-- Below the scope the listen takes 1, the other scope 2 and the delay in it 3. -/
theorem grow_numbered_below_scope :
    (∀ p, some 0 = some p → p < scopeTree.size) ∧
      (scopeTree.grow ⟨"body", 1⟩ (some 0) (Outline.ofElements branchedBody.children)).tree.Numbered
        "body" 1 4 [1, 5] := by
  have hparent : ∀ p, some 0 = some p → p < scopeTree.size := by
    rintro p ⟨⟩
    decide
  exact ⟨hparent, (scopeTree.grow_numbered ⟨"body", 1⟩ hparent branchedBody).1⟩

end Tree

end Orchestration.Shape
