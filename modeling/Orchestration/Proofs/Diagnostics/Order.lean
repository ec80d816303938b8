import Orchestration.Proofs.Diagnostics
import Orchestration.Proofs.Shape.Ascending

/-!
# Orchestration.Proofs.Diagnostics.Order

In which order the hierarchy of a model shows its shapes.

* `sequence_of_headline` — the line of a shape tells its sequence number.
* `flatMap_inSequence_iff` — shapes side by side, shown in order of their numbers, are shown in the
  order in which they are listed only if the numbers ascend.
* `headers_render_eq_iff` — the hierarchy is in the order of the walk exactly when all lists in it
  ascend.
-/

namespace Orchestration.Diagnostics

open Shape (Handle Node Payload Tree)

/-! ## Lines -/

theorem toList_toString (k : Int) : (toString k).toList =
    if 0 ≤ k then Nat.toDigits 10 k.toNat else '-' :: Nat.toDigits 10 (-k).toNat := by
  rw [Int.toString_eq_repr, Int.repr_eq_if]
  split
  · simp
  · simp [String.toList_append]

theorem notMem_toString {c : Char} (hc : c.isDigit = false) (hsign : c ≠ '-') (k : Int) :
    c ∉ (toString k).toList := by
  rw [toList_toString]
  split
  · exact Shape.notMem_toDigits hc _
  · rw [List.mem_cons]
    rintro (h | h)
    · exact hsign h
    · exact Shape.notMem_toDigits hc _ h

theorem toString_inj {k k' : Int} (h : (toString k).toList = (toString k').toList) : k = k' := by
  rw [toList_toString, toList_toString] at h
  split at h
  · split at h
    · have hnumber := Shape.toDigits_inj h
      omega
    · exact absurd (h ▸ List.mem_cons_self ..) (Shape.notMem_toDigits rfl _)
  · split at h
    · exact absurd (h ▸ List.mem_cons_self ..) (Shape.notMem_toDigits rfl _)
    · have hnumber := Shape.toDigits_inj (List.tail_eq_of_cons_eq h)
      omega

/-- The sequence number stands after the last colon of the line. -/
theorem sequence_of_headline {n n' : Node} (h : headline n = headline n') :
    n.sequence = n'.sequence := by
  have hform : ∀ n : Node, (headline n).toList =
      s!"[{n.tag}] {n.name} [{n.uniqueId}] [Seq".toList ++
        ':' :: ((toString n.sequence).toList ++ [']']) := by
    intro n
    simp only [headline, String.toList_append, List.append_assoc]
    rfl
  have hnumber : ∀ n : Node, ':' ∉ (toString n.sequence).toList ++ [']'] := by
    intro n hm
    rcases List.mem_append.mp hm with hm | hm
    · exact notMem_toString rfl (by decide) _ hm
    · exact absurd (List.mem_singleton.mp hm) (by decide)
  have hlist := congrArg String.toList h
  rw [hform, hform] at hlist
  obtain ⟨-, hend⟩ := Shape.append_last_sep_inj (hnumber n) (hnumber n') hlist
  exact toString_inj (List.append_cancel_right hend)

/-! ## Side by side -/

section

variable {t : Tree} {roots : List Handle}

/-- Where a shape comes: after those of the others that have lower numbers, before the rest. -/
theorem inSequence_cons {h : Handle} {n : Node} (hn : t.node? h = some n) (rest : List Handle) :
    ∃ before after, inSequence t (h :: rest) = before ++ h :: after ∧
      inSequence t rest = before ++ after ∧
      (∀ x ∈ before, ∃ m, t.node? x = some m ∧ m.sequence < n.sequence) ∧
      ∀ x ∈ after, ∀ m, t.node? x = some m → n.sequence ≤ m.sequence := by
  let number := fun x => (t.node? x).map fun m => (m.sequence, x)
  let le := fun a b : Int × Handle => decide (a.1 ≤ b.1)
  have htrans : ∀ a b c, le a b = true → le b c = true → le a c = true := by
    simp only [le, decide_eq_true_eq]
    exact fun a b c => Int.le_trans
  have htotal : ∀ a b, (le a b || le b a) = true := by
    simp only [le, Bool.or_eq_true, decide_eq_true_eq]
    exact fun a b => Int.le_total a.1 b.1
  have hnumber : ∀ b ∈ rest.filterMap number,
      ∃ m, t.node? b.2 = some m ∧ m.sequence = b.1 := by
    intro b hb
    obtain ⟨x, -, hx⟩ := List.mem_filterMap.mp hb
    obtain ⟨m, hm, rfl⟩ := Option.map_eq_some_iff.mp hx
    exact ⟨m, hm, rfl⟩
  obtain ⟨before, after, hcons, hrest, hbefore⟩ :=
    List.mergeSort_cons htrans htotal (n.sequence, h) (rest.filterMap number)
  have hsorted := List.pairwise_mergeSort htrans htotal ((n.sequence, h) :: rest.filterMap number)
  have hmem : ∀ b ∈ before ++ after, b ∈ rest.filterMap number := by
    intro b hb
    rw [← hrest] at hb
    exact (List.mergeSort_perm _ _).mem_iff.mp hb
  have hfirst : (h :: rest).filterMap number = (n.sequence, h) :: rest.filterMap number :=
    List.filterMap_cons_some (by simp only [number, hn, Option.map_some])
  have hshown : ∀ hs, inSequence t hs = ((hs.filterMap number).mergeSort le).map Prod.snd :=
    fun _ => rfl
  refine ⟨before.map Prod.snd, after.map Prod.snd, ?_, ?_, ?_, ?_⟩
  · rw [hshown, hfirst, hcons, List.map_append, List.map_cons]
  · rw [hshown, hrest, List.map_append]
  · intro x hx
    obtain ⟨b, hb, rfl⟩ := List.mem_map.mp hx
    obtain ⟨m, hm, hsequence⟩ := hnumber b (hmem b (List.mem_append_left _ hb))
    have hlower := hbefore b hb
    simp only [le, Bool.not_eq_true', decide_eq_false_iff_not, Int.not_le] at hlower
    exact ⟨m, hm, hsequence ▸ hlower⟩
  · intro x hx m hm
    obtain ⟨a, ha, rfl⟩ := List.mem_map.mp hx
    obtain ⟨m', hm', hsequence⟩ := hnumber a (hmem a (List.mem_append_right _ ha))
    obtain rfl := Option.some.inj (hm.symm.trans hm')
    rw [hcons] at hsorted
    have hhigher := List.rel_of_pairwise_cons (List.pairwise_append.mp hsorted).2.1 ha
    simp only [le, decide_eq_true_eq] at hhigher
    rwa [hsequence]

theorem inSequence_of_ascending {hs : List Handle} (hhs : ∀ h ∈ hs, h < t.size)
    (h : t.Ascending hs) : inSequence t hs = hs := by
  have hpairs : (hs.filterMap fun h => (t.node? h).map fun n => (n.sequence, h)).Pairwise
      fun a b => decide (a.1 ≤ b.1) = true := by
    rw [Tree.Ascending, Tree.resolve, List.map_filterMap] at h
    simp only [decide_eq_true_eq]
    rw [← List.pairwise_map (f := Prod.fst), List.map_filterMap]
    simpa [Function.comp_def] using h
  simp only [inSequence]
  rw [List.mergeSort_of_pairwise hpairs, snd_numbered hhs]

/-- Shapes side by side with everything below them. What is shown of each starts with its own line
and has as many lines as the walk asks for, so that no shape can take the place of another. -/
theorem flatMap_inSequence_iff {hs : List Handle} (hhs : ∀ h ∈ hs, h < t.size)
    {f g : Handle → List String} (hlength : ∀ h ∈ hs, (f h).length = (g h).length)
    (hf : ∀ h ∈ hs, (f h).head? = (t.node? h).map headline)
    (hg : ∀ h ∈ hs, (g h).head? = (t.node? h).map headline) :
    (inSequence t hs).flatMap f = hs.flatMap g ↔ t.Ascending hs ∧ ∀ h ∈ hs, f h = g h := by
  constructor
  · intro hsame
    induction hs with
    | nil => exact ⟨.nil, List.forall_mem_nil _⟩
    | cons h rest ih =>
      obtain ⟨hfirst, hrest⟩ := List.forall_mem_cons.mp hhs
      obtain ⟨n, hn⟩ := Tree.exists_node? hfirst
      obtain ⟨before, after, hcons, hsort, hbefore, hafter⟩ := inSequence_cons hn rest
      rw [hcons, List.flatMap_cons] at hsame
      cases before with
      | cons y before =>
        -- the first line would be that of a shape with a lower number
        obtain ⟨m, hm, hlower⟩ := hbefore y (List.mem_cons_self ..)
        have hy : y ∈ h :: rest := by
          refine (inSequence_perm hhs).mem_iff.mp ?_
          rw [hcons]
          exact List.mem_cons_self ..
        have hline := congrArg List.head? hsame
        rw [List.cons_append, List.flatMap_cons, List.head?_append, List.head?_append, hf y hy,
          hg h (List.mem_cons_self ..), hm, hn] at hline
        rw [sequence_of_headline (Option.some.inj hline)] at hlower
        exact absurd hlower (Int.lt_irrefl _)
      | nil =>
        rw [List.nil_append] at hsort
        rw [List.nil_append, List.flatMap_cons, ← hsort] at hsame
        obtain ⟨hown, hothers⟩ := List.append_inj hsame (hlength h (List.mem_cons_self ..))
        obtain ⟨hascending, heach⟩ := ih hrest
          (fun x hx => hlength x (List.mem_cons_of_mem _ hx))
          (fun x hx => hf x (List.mem_cons_of_mem _ hx))
          (fun x hx => hg x (List.mem_cons_of_mem _ hx)) hothers
        refine ⟨(Tree.ascending_cons_iff hn).mpr ⟨fun x hx => hafter x ?_, hascending⟩,
          List.forall_mem_cons.mpr ⟨hown, heach⟩⟩
        rw [← hsort]
        exact (inSequence_perm hrest).mem_iff.mpr hx
  · rintro ⟨hascending, hsame⟩
    rw [inSequence_of_ascending hhs hascending]
    exact List.flatMap_congr hsame

/-! ## The hierarchy -/

theorem describe_slots {Q : List Handle → Prop} (hnil : Q []) (p : Payload) :
    (∀ part ∈ (describe p).2, Q part.shapes) ↔ ∀ slot ∈ p.slots, Q slot.2 := by
  have hunless : ∀ (title : String) (hs : List Handle),
      (∀ part ∈ unlessEmpty title hs, Q part.shapes) ↔ Q hs := by
    intro title hs
    cases hs with
    | nil => exact iff_of_true (List.forall_mem_nil _) hnil
    | cons h rest => simp [unlessEmpty]
  have hbranches : ∀ (number number' : Nat) (branches : List (List Handle)),
      (∀ part ∈ branchParts number branches, Q part.shapes) ↔
        ∀ slot ∈ Payload.numberBranches number' branches, Q slot.2 := by
    intro number number' branches
    induction branches generalizing number number' with
    | nil => simp [branchParts, Payload.numberBranches]
    | cons b rest ih =>
      rw [branchParts, Payload.numberBranches, List.forall_mem_cons, List.forall_mem_cons,
        ih (number + 1) (number' + 1)]
  cases p with
  | decide condition t f =>
    rw [describe, List.forall_mem_append, hunless, hunless]
    simp [Payload.slots]
  | switch subject cases d =>
    rw [describe, Payload.slots, List.forall_mem_append, List.forall_mem_append, hunless,
      List.forall_mem_map, List.forall_mem_map, List.forall_mem_singleton]
  | listen branches => exact hbranches 1 1 branches
  | construct messages inner => simp [describe, Payload.slots]
  | _ => simp [describe, Payload.slots]

theorem flatMap_eq_iff {α β : Type} {f g : α → List β} {xs : List α}
    (hlength : ∀ x ∈ xs, (f x).length = (g x).length) :
    xs.flatMap f = xs.flatMap g ↔ ∀ x ∈ xs, f x = g x := by
  refine ⟨fun hsame => ?_, List.flatMap_congr⟩
  induction xs with
  | nil => exact List.forall_mem_nil _
  | cons x rest ih =>
    obtain ⟨hfirst, hrest⟩ := List.forall_mem_cons.mp hlength
    obtain ⟨hx, hothers⟩ := List.append_inj hsame hfirst
    exact List.forall_mem_cons.mpr ⟨hx, ih hrest hothers⟩

/-- Everything that a walk meets is orderly. -/
def AllOrderly (t : Tree) (hs : List Handle) : Prop := ∀ n ∈ t.resolve (t.walk hs), t.Orderly n

instance (t : Tree) : DecidablePred (AllOrderly t) := fun hs =>
  inferInstanceAs (Decidable (∀ n ∈ t.resolve (t.walk hs), t.Orderly n))

theorem allOrderly_nil : AllOrderly t [] := by
  simp [AllOrderly, Tree.resolve]

theorem allOrderly_append (hs hs' : List Handle) :
    AllOrderly t (hs ++ hs') ↔ AllOrderly t hs ∧ AllOrderly t hs' := by
  rw [AllOrderly, Tree.walk_append, Tree.resolve, List.filterMap_append, List.forall_mem_append]
  rfl

theorem allOrderly_flatMap {α : Type} (f : α → List Handle) (xs : List α) :
    AllOrderly t (xs.flatMap f) ↔ ∀ x ∈ xs, AllOrderly t (f x) := by
  induction xs with
  | nil => exact iff_of_true allOrderly_nil (List.forall_mem_nil _)
  | cons x rest ih => rw [List.flatMap_cons, allOrderly_append, ih, List.forall_mem_cons]

/-- In a node and below it all lists ascend when each of its own does and everything in them is
orderly. -/
theorem allOrderly_node (hr : t.Rising) {h : Handle} {n : Node} (hn : t.node? h = some n) :
    AllOrderly t [h] ↔ (∀ slot ∈ n.payload.slots, t.Ascending slot.2 ∧ AllOrderly t slot.2) ∧
      t.Ascending n.children ∧ AllOrderly t n.children := by
  have hown : AllOrderly t [h] ↔ t.Orderly n ∧ AllOrderly t n.inside := by
    rw [AllOrderly, hr.walk_singleton, Tree.inside_of_node? hn, Tree.resolve,
      List.filterMap_cons_some hn, List.forall_mem_cons]
    rfl
  have hinside : AllOrderly t n.inside ↔
      AllOrderly t n.children ∧ ∀ slot ∈ n.payload.slots, AllOrderly t slot.2 := by
    rw [Node.inside, allOrderly_append, Payload.handles, allOrderly_flatMap]
  rw [hown]
  constructor
  · rintro ⟨horderly, hbelow⟩
    obtain ⟨hchildren, hslots⟩ := hinside.mp hbelow
    exact ⟨fun slot hslot => ⟨horderly.slots slot hslot, hslots slot hslot⟩, horderly.children,
      hchildren⟩
  · rintro ⟨hslots, hchildren, hbelow⟩
    exact ⟨⟨hchildren, fun slot hslot => (hslots slot hslot).1⟩,
      hinside.mpr ⟨hbelow, fun slot hslot => (hslots slot hslot).2⟩⟩

theorem head?_headers (hl : t.Linked roots) {depth : Nat} (level : Nat) {h : Handle}
    (hh : h < t.size) (hd : t.size - h < depth) :
    (headers (renderWithin t depth level h)).head? = (t.node? h).map headline ∧
      (walkLines t [h]).head? = (t.node? h).map headline := by
  obtain ⟨n, hn⟩ := Tree.exists_node? hh
  cases depth with
  | zero => exact absurd hd (Nat.not_lt_zero _)
  | succ depth => rw [headers_node hn, walkLines_node hl.rising hn, hn]; exact ⟨rfl, rfl⟩

/-- Shapes that are shown side by side, when each of them is shown as it should be. -/
theorem shownBelow_eq_iff (hl : t.Linked roots) {depth level : Nat} {hs : List Handle}
    (hhs : ∀ h ∈ hs, h < t.size ∧ t.size - h < depth)
    (heach : ∀ h ∈ hs,
      headers (renderWithin t depth level h) = walkLines t [h] ↔ AllOrderly t [h]) :
    shownBelow t depth level hs = walkLines t hs ↔ t.Ascending hs ∧ AllOrderly t hs := by
  have hlength : ∀ h ∈ hs,
      (headers (renderWithin t depth level h)).length = (walkLines t [h]).length := fun h hh =>
    (headers_renderWithin hl level (hhs h hh).1 (hhs h hh).2).length_eq
  have hall : AllOrderly t hs ↔ ∀ h ∈ hs, AllOrderly t [h] := by
    rw [← allOrderly_flatMap, List.flatMap_singleton']
  rw [shownBelow, walkLines_eq_flatMap, flatMap_inSequence_iff (fun h hh => (hhs h hh).1) hlength
    (fun h hh => (head?_headers hl level (hhs h hh).1 (hhs h hh).2).1)
    (fun h hh => (head?_headers hl level (hhs h hh).1 (hhs h hh).2).2), hall]
  exact and_congr_right' (forall₂_congr heach)

theorem headers_renderWithin_iff (hl : t.Linked roots) {depth : Nat} (level : Nat) {h : Handle}
    (hh : h < t.size) (hd : t.size - h < depth) :
    headers (renderWithin t depth level h) = walkLines t [h] ↔ AllOrderly t [h] := by
  induction depth generalizing level h with
  | zero => exact absurd hd (Nat.not_lt_zero _)
  | succ depth ih =>
    obtain ⟨n, hn⟩ := Tree.exists_node? hh
    have hdeep : ∀ c ∈ n.inside, c < t.size ∧ t.size - c < depth := by
      rw [← Tree.inside_of_node? hn]
      intro c hc
      exact ⟨hl.inside_lt_size hc, Nat.lt_of_lt_of_le (hl.rising.sub_lt hc) (Nat.le_of_lt_succ hd)⟩
    have hbelow : ∀ (level : Nat) (hs : List Handle), (∀ c ∈ hs, c ∈ n.inside) →
        (shownBelow t depth level hs).length = (walkLines t hs).length ∧
        (shownBelow t depth level hs = walkLines t hs ↔ t.Ascending hs ∧ AllOrderly t hs) := by
      intro level hs hhs
      have hdeep' := fun c hc => hdeep c (hhs c hc)
      exact ⟨(shownBelow_perm (fun c hc => (hdeep' c hc).1) fun c hc =>
          headers_renderWithin hl level (hdeep' c hc).1 (hdeep' c hc).2).length_eq,
        shownBelow_eq_iff hl hdeep' fun c hc => ih level (hdeep' c hc).1 (hdeep' c hc).2⟩
    have hchildren := hbelow (level + 1) n.children fun c hc => List.mem_append_left _ hc
    have hparts : ∀ p ∈ (describe n.payload).2, _ := fun p hp =>
      hbelow (level + p.depth) p.shapes fun c hc => by
        rw [Node.inside, ← describe_shapes]
        exact List.mem_append_right _ (List.mem_flatMap.mpr ⟨p, hp, hc⟩)
    -- regions are shown before children and walked after them; no node has both
    have hswap : walkLines t n.inside = ((describe n.payload).2.flatMap fun p =>
        walkLines t p.shapes) ++ walkLines t n.children := by
      rw [Node.inside, walkLines_append, ← walkLines_flatMap, describe_shapes]
      by_cases hslots : n.payload.slots = []
      · have hnone : walkLines t n.payload.handles = [] := by
          simp [Payload.handles, hslots, walkLines, Tree.resolve]
        rw [hnone, List.append_nil, List.nil_append]
      · have hnone : walkLines t n.children = [] := by
          simp [hl.childless hn hslots, walkLines, Tree.resolve]
        rw [hnone, List.append_nil, List.nil_append]
    have hslots : ((describe n.payload).2.flatMap fun p =>
        shownBelow t depth (level + p.depth) p.shapes) =
          ((describe n.payload).2.flatMap fun p => walkLines t p.shapes) ↔
        ∀ slot ∈ n.payload.slots, t.Ascending slot.2 ∧ AllOrderly t slot.2 := by
      rw [flatMap_eq_iff fun p hp => (hparts p hp).1, forall₂_congr fun p hp => (hparts p hp).2]
      exact describe_slots (Q := fun hs => t.Ascending hs ∧ AllOrderly t hs)
        ⟨.nil, allOrderly_nil⟩ n.payload
    rw [headers_node hn, walkLines_node hl.rising hn, hswap, List.cons_inj_right,
      allOrderly_node hl.rising hn, ← hslots, ← hchildren.2]
    exact ⟨fun hsame => List.append_inj' hsame hchildren.1, fun h => by rw [h.1, h.2]⟩

/-- The hierarchy is in the order of the walk exactly when the roots ascend and so do the children
and the regions of every node below them. -/
theorem headers_render_eq_iff {m : Model} (hl : m.tree.Linked roots)
    (hshapes : ∀ h ∈ m.shapes, h < m.tree.size) :
    headers (render m) = walkLines m.tree m.shapes ↔
      m.tree.Ascending m.shapes ∧ AllOrderly m.tree m.shapes := by
  have hdeep := fun h hh => And.intro (hshapes h hh) (Tree.sub_lt_depth (t := m.tree) h)
  rw [render, headers_flatMap]
  exact shownBelow_eq_iff hl hdeep fun h hh =>
    headers_renderWithin_iff hl 0 (hdeep h hh).1 (hdeep h hh).2

end

end Orchestration.Diagnostics
