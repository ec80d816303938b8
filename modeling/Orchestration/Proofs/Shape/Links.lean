import Mathlib.Data.List.Perm.Basic
import Orchestration.Proofs.Shape.Proper

/-!
# Orchestration.Proofs.Shape.Links

How the nodes of a tree refer to one another.

* `Stand` — nodes with their handles, of which every one is listed exactly once: among the roots,
  or inside the one node that is its parent and comes before it.
* `Outline.laidAll_stand` — the nodes that growing appends are such a stand.
* `Tree.Linked` — the same for the nodes of a whole tree, whose handles are their positions.
-/

namespace Orchestration.Shape

/-- Content and children of a node agree with its kind. -/
structure Node.Fits (n : Node) : Prop where
  suits : n.payload.suits n.kind = true
  childless : n.kind.holdsSlots = true → n.children = []

/-- A node before correlation sets are bound. -/
structure Node.Fresh (n : Node) : Prop extends n.Fits where
  unbound : ∀ x activate initializes follows,
    n.payload = .receive x activate initializes follows → initializes = [] ∧ follows = []

/-- Nodes that stand under `roots`, all of which have the same parent. -/
structure Stand (roots : List Handle) (parent : Option Handle) (l : List (Handle × Node)) :
    Prop where
  /-- Every handle is listed once, as a root or inside one node. -/
  listed : (roots ++ l.flatMap fun x => x.2.inside).Perm (l.map Prod.fst)
  root : ∀ r ∈ roots, ∃ n, (r, n) ∈ l ∧ n.parent = parent
  /-- What a node lists comes later and refers back to it. -/
  link : ∀ p n, (p, n) ∈ l → ∀ c ∈ n.inside, p < c ∧ ∃ cn, (c, cn) ∈ l ∧ cn.parent = some p
  fresh : ∀ h n, (h, n) ∈ l → n.Fresh

namespace Stand

variable {roots roots' : List Handle} {parent : Option Handle} {l l' : List (Handle × Node)}

theorem nil : Stand [] parent [] :=
  ⟨by simp, by simp, by simp, by simp⟩

theorem append (h : Stand roots parent l) (h' : Stand roots' parent l') :
    Stand (roots ++ roots') parent (l ++ l') where
  listed := by
    have hp := h.listed.append h'.listed
    rw [← List.map_append] at hp
    refine List.Perm.trans ?_ hp
    simp only [List.flatMap_append, List.append_assoc]
    refine List.Perm.append_left roots ?_
    simp only [← List.append_assoc]
    exact List.perm_append_comm.append_right _
  root := by
    intro r hr
    rcases List.mem_append.mp hr with hr | hr
    · obtain ⟨n, hn, hp⟩ := h.root r hr
      exact ⟨n, List.mem_append_left _ hn, hp⟩
    · obtain ⟨n, hn, hp⟩ := h'.root r hr
      exact ⟨n, List.mem_append_right _ hn, hp⟩
  link := by
    intro p n hn c hc
    rcases List.mem_append.mp hn with hn | hn
    · obtain ⟨hlt, cn, hcn, hp⟩ := h.link p n hn c hc
      exact ⟨hlt, cn, List.mem_append_left _ hcn, hp⟩
    · obtain ⟨hlt, cn, hcn, hp⟩ := h'.link p n hn c hc
      exact ⟨hlt, cn, List.mem_append_right _ hcn, hp⟩
  fresh := by
    intro p n hn
    rcases List.mem_append.mp hn with hn | hn
    · exact h.fresh p n hn
    · exact h'.fresh p n hn

/-- An owner over the stand of everything inside it. -/
theorem own {owner : Handle} {n : Node} (h : Stand roots (some owner) l)
    (hinside : n.inside.Perm roots) (hlater : ∀ x ∈ l, owner < x.1) (hn : n.Fresh) :
    Stand [owner] n.parent ((owner, n) :: l) where
  listed := by
    have hp : (n.inside ++ l.flatMap fun x => x.2.inside).Perm (l.map Prod.fst) :=
      (hinside.append_right _).trans h.listed
    simpa using hp
  root := by
    intro r hr
    rw [List.mem_singleton.mp hr]
    exact ⟨n, by simp, rfl⟩
  link := by
    intro p m hm c hc
    rcases List.mem_cons.mp hm with he | hm
    · obtain ⟨rfl, rfl⟩ := Prod.mk.inj he
      obtain ⟨cn, hcn, hp⟩ := h.root c (hinside.mem_iff.mp hc)
      exact ⟨hlater (c, cn) hcn, cn, List.mem_cons_of_mem _ hcn, hp⟩
    · obtain ⟨hlt, cn, hcn, hp⟩ := h.link p m hm c hc
      exact ⟨hlt, cn, List.mem_cons_of_mem _ hcn, hp⟩
  fresh := by
    intro p m hm
    rcases List.mem_cons.mp hm with he | hm
    · obtain ⟨rfl, rfl⟩ := Prod.mk.inj he
      exact hn
    · exact h.fresh p m hm

theorem leaf {h : Handle} {n : Node} (hinside : n.inside = []) (hn : n.Fresh) :
    Stand [h] n.parent [(h, n)] :=
  (nil : Stand [] (some h) []).own (by rw [hinside]) (by simp) hn

end Stand

theorem Sketch.Fresh.node_inside {s : Sketch} (hs : s.Fresh) (path : String) (sequence : Int)
    (parent : Option Handle) : (s.node path sequence parent).inside = [] := by
  simp [Node.inside, Sketch.node, hs.handles]

/-- The node of a fresh sketch is fresh, whatever its regions, if it may have these children. -/
theorem Sketch.Fresh.owner_fresh {s : Sketch} (hs : s.Fresh) (path : String) (sequence : Int)
    (parent : Option Handle) (regions : List (Slot × List Handle)) {children : List Handle}
    (hc : s.kind.holdsSlots = true → children = []) :
    (s.owner path sequence parent regions children).Fresh :=
  ⟨⟨(Payload.furnish_suits _ _ _).trans hs.suits, hc⟩,
    fun _ _ _ _ h => Payload.furnish_unbound hs.bare regions h⟩

theorem Sketch.Fresh.node_fresh {s : Sketch} (hs : s.Fresh) (path : String) (sequence : Int)
    (parent : Option Handle) : (s.node path sequence parent).Fresh :=
  hs.owner_fresh path sequence parent [] fun _ => rfl

/-! ## What growing appends -/

namespace Outline

theorem laidRegions_mem_later {start : Nat} {s : Sketch} {path : String} {sequence : Nat}
    {owner : Handle} {regions : List (Slot × List Outline)} {x : Handle × Node}
    (hx : x ∈ laidRegions start s path sequence owner regions) : start ≤ x.1 := by
  have hm : x.1 ∈ List.range' start (countRegions regions) := by
    rw [← laidRegions_handles start s path sequence owner regions]
    exact List.mem_map_of_mem hx
  exact (List.mem_range'_1.mp hm).1

theorem laidAll_mem_later {start : Nat} {path : String} {next : Nat} {parent : Option Handle}
    {os : List Outline} {x : Handle × Node} (hx : x ∈ laidAll start path next parent os) :
    start ≤ x.1 := by
  have hm : x.1 ∈ List.range' start (countAll os) := by
    rw [← laidAll_handles start path next parent os]
    exact List.mem_map_of_mem hx
  exact (List.mem_range'_1.mp hm).1

theorem regionHandles_mem {start : Handle} {regions : List (Slot × List Outline)}
    {r : Slot × List Handle} (hr : r ∈ regionHandles start regions) :
    ∃ r' ∈ regions, r'.1 = r.1 := by
  induction regions generalizing start with
  | nil => simp [regionHandles] at hr
  | cons r' rest ih =>
    rcases List.mem_cons.mp hr with rfl | hr
    · exact ⟨r', by simp, rfl⟩
    · obtain ⟨r'', hm, he⟩ := ih hr
      exact ⟨r'', by simp [hm], he⟩

mutual

theorem laid_stand (start : Nat) (path : String) (next : Nat) (parent : Option Handle) :
    (o : Outline) → o.Proper → Stand [start] parent (o.laid start path next parent)
  | ⟨s, regions, children⟩ => by
    rintro ⟨hs, hchildless, hregions, hchildren⟩
    have hr := laidRegions_stand (start + 1) s path next start regions hregions
    have hc := laidAll_stand (start + 1 + countRegions regions) path (next + 1) (some start)
      children hchildren
    have htakes : ∀ r ∈ regionHandles (start + 1) regions, s.payload.takes r.1 = true := by
      intro r hr
      obtain ⟨r', hm, he⟩ := regionHandles_mem hr
      exact he ▸ ((properRegions_iff _ _).mp hregions r' hm).1
    have hfurnish := Payload.handles_furnish (regionHandles (start + 1) regions) htakes
    rw [hs.handles, List.nil_append] at hfurnish
    let n := s.owner path next parent (regionHandles (start + 1) regions)
      (handles (start + 1 + countRegions regions) children)
    refine (hr.append hc).own (n := n) ?_ ?_ ?_
    · exact (hfurnish.append_left _).trans List.perm_append_comm
    · intro x hx
      rcases List.mem_append.mp hx with hx | hx
      · have := laidRegions_mem_later hx
        exact Nat.lt_of_lt_of_le (Nat.lt_succ_self start) this
      · have := laidAll_mem_later hx
        exact Nat.lt_of_lt_of_le (by omega) this
    · refine hs.owner_fresh path next parent _ fun hh => ?_
      rw [hchildless hh]
      rfl

theorem laidRegions_stand (start : Nat) (s : Sketch) (path : String) (sequence : Nat)
    (owner : Handle) : (regions : List (Slot × List Outline)) → ProperRegions s.payload regions →
      Stand ((regionHandles start regions).flatMap Prod.snd) (some owner)
        (laidRegions start s path sequence owner regions)
  | [], _ => Stand.nil
  | (slot, shapes) :: rest, ⟨_, hshapes, hrest⟩ =>
    (laidAll_stand start (s.regionPath path sequence slot) 0 (some owner) shapes hshapes).append
      (laidRegions_stand (start + countAll shapes) s path sequence owner rest hrest)

theorem laidAll_stand (start : Nat) (path : String) (next : Nat) (parent : Option Handle) :
    (os : List Outline) → ProperAll os →
      Stand (handles start os) parent (laidAll start path next parent os)
  | [], _ => Stand.nil
  | o :: rest, ⟨ho, hrest⟩ =>
    (laid_stand start path next parent o ho).append
      (laidAll_stand (start + o.count) path (next + o.width) parent rest hrest)

end

end Outline

/-! ## Whole trees -/

/-- The handles directly inside the node of a handle. -/
def Tree.inside (t : Tree) (h : Handle) : List Handle := ((t.node? h).map Node.inside).getD []

/-- A tree with the given roots: every node is listed exactly once, and its parent tells where. -/
structure Tree.Linked (t : Tree) (roots : List Handle) : Prop where
  listed : (roots ++ (List.range t.size).flatMap t.inside).Perm (List.range t.size)
  root : ∀ r ∈ roots, ∃ n, t.node? r = some n ∧ n.parent = none
  link : ∀ p n, t.node? p = some n →
    ∀ c ∈ n.inside, p < c ∧ ∃ cn, t.node? c = some cn ∧ cn.parent = some p
  fits : ∀ h n, t.node? h = some n → n.Fits

namespace Tree

variable {t : Tree} {roots : List Handle}

theorem inside_of_node? {h : Handle} {n : Node} (hn : t.node? h = some n) :
    t.inside h = n.inside := by
  simp [inside, hn]

theorem lt_size_of_node? {h : Handle} {n : Node} (hn : t.node? h = some n) : h < t.size := by
  rw [node?_eq_getElem?] at hn
  simpa using (List.getElem?_eq_some_iff.mp hn).1

theorem exists_node? {h : Handle} (hh : h < t.size) : ∃ n, t.node? h = some n := by
  rw [← length_list] at hh
  exact ⟨t.list[h], by rw [node?_eq_getElem?, List.getElem?_eq_getElem hh]⟩

theorem resolve_range : t.resolve (List.range t.size) = t.list := by
  have hmap : (List.range t.size).map t.node? = t.list.map some := by
    apply List.ext_getElem?
    intro i
    by_cases hi : i < t.size
    · simp [hi, node?_eq_getElem?]
    · simp [hi]
  have hid := congrArg (List.filterMap id) hmap
  simpa [resolve, List.filterMap_map] using hid

theorem flatMap_resolve {α : Type} (f : Node → List α) (hs : List Handle) :
    (t.resolve hs).flatMap f = hs.flatMap fun h => ((t.node? h).map f).getD [] := by
  induction hs with
  | nil => rfl
  | cons h rest ih =>
    rw [List.flatMap_cons, ← ih]
    cases hn : t.node? h <;> simp [resolve, hn]

theorem flatMap_range_inside :
    (List.range t.size).flatMap t.inside = t.list.flatMap Node.inside := by
  rw [← resolve_range, flatMap_resolve]
  rfl

theorem mem_iff_node? {l : List (Handle × Node)} (hnodes : t.list = l.map Prod.snd)
    (hhandles : l.map Prod.fst = List.range t.size) (h : Handle) (n : Node) :
    (h, n) ∈ l ↔ t.node? h = some n := by
  have hlen : l.length = t.size := by simpa using congrArg List.length hnodes.symm
  rw [← hlen, List.range_eq_range'] at hhandles
  have hfst : ∀ (i : Nat) (x : Handle × Node), l[i]? = some x → x.1 = i := by
    intro i x hx
    rw [fst_of_getElem? hhandles hx, Nat.zero_add]
  rw [node?_eq_getElem?, hnodes, List.getElem?_map]
  constructor
  · intro hm
    obtain ⟨i, hi⟩ := List.mem_iff_getElem?.mp hm
    obtain rfl : h = i := hfst i _ hi
    simp [hi]
  · intro hn
    obtain ⟨x, hx, rfl⟩ := Option.map_eq_some_iff.mp hn
    obtain rfl : x.1 = h := hfst h x hx
    exact List.mem_of_getElem? hx

theorem linked_of_stand {l : List (Handle × Node)} (hnodes : t.list = l.map Prod.snd)
    (hhandles : l.map Prod.fst = List.range t.size) (hl : Stand roots none l) :
    t.Linked roots := by
  have hmem := mem_iff_node? hnodes hhandles
  refine ⟨?_, ?_, ?_, ?_⟩
  · rw [flatMap_range_inside, hnodes, ← hhandles, List.flatMap_map]
    exact hl.listed
  · intro r hr
    obtain ⟨n, hn, hp⟩ := hl.root r hr
    exact ⟨n, (hmem r n).mp hn, hp⟩
  · intro p n hn c hc
    obtain ⟨hlt, cn, hcn, hp⟩ := hl.link p n ((hmem p n).mpr hn) c hc
    exact ⟨hlt, cn, (hmem c cn).mp hcn, hp⟩
  · intro h n hn
    exact (hl.fresh h n ((hmem h n).mpr hn)).toFits

theorem fresh_of_stand {l : List (Handle × Node)} (hnodes : t.list = l.map Prod.snd)
    (hhandles : l.map Prod.fst = List.range t.size) (hl : Stand roots none l) {h : Handle}
    {n : Node} (hn : t.node? h = some n) : n.Fresh :=
  hl.fresh h n ((mem_iff_node? hnodes hhandles h n).mpr hn)

namespace Linked

theorem mem_roots_or_inside (hl : t.Linked roots) {h : Handle} (hh : h < t.size) :
    h ∈ roots ∨ ∃ p n, t.node? p = some n ∧ h ∈ n.inside := by
  have hm : h ∈ roots ++ (List.range t.size).flatMap t.inside :=
    hl.listed.mem_iff.mpr (List.mem_range.mpr hh)
  rcases List.mem_append.mp hm with hm | hm
  · exact .inl hm
  · obtain ⟨p, hp, hm⟩ := List.mem_flatMap.mp hm
    obtain ⟨n, hn⟩ := exists_node? (List.mem_range.mp hp)
    rw [inside_of_node? hn] at hm
    exact .inr ⟨p, n, hn, hm⟩

theorem parent_eq_none_iff (hl : t.Linked roots) {h : Handle} {n : Node}
    (hn : t.node? h = some n) : n.parent = none ↔ h ∈ roots := by
  constructor
  · intro hnone
    refine (hl.mem_roots_or_inside (lt_size_of_node? hn)).resolve_right ?_
    rintro ⟨p, pn, hp, hm⟩
    obtain ⟨-, n', hn', hparent⟩ := hl.link p pn hp h hm
    obtain rfl : n = n' := Option.some.inj (hn.symm.trans hn')
    rw [hnone] at hparent
    cases hparent
  · intro hr
    obtain ⟨n', hn', hparent⟩ := hl.root h hr
    obtain rfl : n = n' := Option.some.inj (hn.symm.trans hn')
    exact hparent

theorem parent_eq_some_iff (hl : t.Linked roots) {h p : Handle} {n : Node}
    (hn : t.node? h = some n) :
    n.parent = some p ↔ ∃ owner, t.node? p = some owner ∧ h ∈ owner.inside := by
  constructor
  · intro hparent
    rcases hl.mem_roots_or_inside (lt_size_of_node? hn) with hr | ⟨q, owner, hq, hm⟩
    · rw [(hl.parent_eq_none_iff hn).mpr hr] at hparent
      cases hparent
    · obtain ⟨-, n', hn', hq'⟩ := hl.link q owner hq h hm
      obtain rfl : n = n' := Option.some.inj (hn.symm.trans hn')
      obtain rfl : q = p := Option.some.inj (hq'.symm.trans hparent)
      exact ⟨owner, hq, hm⟩
  · rintro ⟨owner, hp, hm⟩
    obtain ⟨-, n', hn', hparent⟩ := hl.link p owner hp h hm
    obtain rfl : n = n' := Option.some.inj (hn.symm.trans hn')
    exact hparent

theorem parent_lt (hl : t.Linked roots) {h p : Handle} {n : Node} (hn : t.node? h = some n)
    (hp : n.parent = some p) : p < h := by
  obtain ⟨owner, ho, hm⟩ := (hl.parent_eq_some_iff hn).mp hp
  exact (hl.link p owner ho h hm).1

theorem childless (hl : t.Linked roots) {h : Handle} {n : Node} (hn : t.node? h = some n)
    (hs : n.payload.slots ≠ []) : n.children = [] :=
  have hfits := hl.fits h n hn
  hfits.childless (Payload.holdsSlots_of_suits hfits.suits hs)

/-- Nodes may change in everything but their links, as long as their content keeps its sort. -/
theorem map {t' : Tree} (hl : t.Linked roots) (f : Handle → Node → Node) (hsize : t'.size = t.size)
    (hnode : ∀ h, t'.node? h = (t.node? h).map (f h))
    (hinside : ∀ h n, (f h n).inside = n.inside) (hparent : ∀ h n, (f h n).parent = n.parent)
    (hfits : ∀ h n, n.Fits → (f h n).Fits) : t'.Linked roots := by
  have hins : t'.inside = t.inside := by
    funext h
    simp [inside, hnode, Function.comp_def, hinside]
  refine ⟨?_, ?_, ?_, ?_⟩
  · rw [hins, hsize]
    exact hl.listed
  · intro r hr
    obtain ⟨n, hn, hp⟩ := hl.root r hr
    exact ⟨f r n, by simp [hnode, hn], (hparent r n).trans hp⟩
  · intro p n hn c hc
    rw [hnode] at hn
    obtain ⟨n, hn', rfl⟩ := Option.map_eq_some_iff.mp hn
    rw [hinside] at hc
    obtain ⟨hlt, cn, hcn, hp⟩ := hl.link p n hn' c hc
    exact ⟨hlt, f c cn, by simp [hnode, hcn], (hparent c cn).trans hp⟩
  · intro h n hn
    rw [hnode] at hn
    obtain ⟨n, hn', rfl⟩ := Option.map_eq_some_iff.mp hn
    exact hfits h n (hl.fits h n hn')

end Linked

end Tree

end Orchestration.Shape
