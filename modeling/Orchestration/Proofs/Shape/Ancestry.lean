import Mathlib.Data.List.Nodup
import Orchestration.Proofs.Shape.Walk

/-!
# Orchestration.Proofs.Shape.Ancestry

What contains what in a tree: read downwards along children and regions, and upwards along parents.

* `Tree.Contains` — a node stands inside another one, at any depth.
* `Tree.Climb`, `Tree.Linked.climb_iff` — following parents comes to an end.
* `Tree.Linked.mem_ancestors_iff` — on the way it meets exactly the nodes around a node.
* `Tree.Innermost`, `Tree.Linked.findAncestor_eq_some_iff` — the search for an ancestor finds the
  innermost node of a kind.
* `Tree.InBranch` — a node stands in a branch of a listen. Everything inside a listen stands in one
  (`Tree.Linked.exists_inBranch`) and in no more (`Tree.Linked.inBranch_unique`); `Tree.branch?`
  computes it.
-/

namespace Orchestration.Shape.Tree

variable {t : Tree} {roots : List Handle}

/-! ## Containment -/

/-- The second node stands inside the first one, at any depth. -/
inductive Contains (t : Tree) : Handle → Handle → Prop where
  | direct {p c : Handle} : c ∈ t.inside p → Contains t p c
  | within {p q c : Handle} : Contains t p q → c ∈ t.inside q → Contains t p c

namespace Contains

variable {p q c : Handle}

theorem trans (h : t.Contains p q) (h' : t.Contains q c) : t.Contains p c := by
  induction h' with
  | direct hc => exact .within h hc
  | within _ hc ih => exact .within ih hc

theorem exists_inside (h : t.Contains p c) : ∃ r ∈ t.inside p, c = r ∨ t.Contains r c := by
  induction h with
  | @direct c hc => exact ⟨c, hc, .inl rfl⟩
  | within _ hc ih =>
    obtain ⟨r, hr, rfl | hq⟩ := ih
    · exact ⟨_, hr, .inr (.direct hc)⟩
    · exact ⟨r, hr, .inr (.within hq hc)⟩

end Contains

theorem Rising.lt_of_contains (hr : t.Rising) {p c : Handle} (h : t.Contains p c) : p < c := by
  induction h with
  | direct hc => exact hr _ _ hc
  | within _ hc ih => exact Nat.lt_trans ih (hr _ _ hc)

namespace Linked

theorem parent_iff (hl : t.Linked roots) {h p : Handle} :
    (t.node? h).bind Node.parent = some p ↔ h ∈ t.inside p := by
  constructor
  · intro hparent
    obtain ⟨n, hn, hp⟩ := Option.bind_eq_some_iff.mp hparent
    obtain ⟨owner, ho, hm⟩ := (hl.parent_eq_some_iff hn).mp hp
    rwa [inside_of_node? ho]
  · intro hm
    obtain ⟨owner, ho⟩ := exists_node? (lt_size_of_inside hm)
    rw [inside_of_node? ho] at hm
    obtain ⟨-, n, hn, hp⟩ := hl.link p owner ho h hm
    rw [hn]
    exact hp

theorem inside_unique (hl : t.Linked roots) {h p q : Handle} (hp : h ∈ t.inside p)
    (hq : h ∈ t.inside q) : p = q :=
  Option.some.inj ((hl.parent_iff.mpr hp).symm.trans (hl.parent_iff.mpr hq))

theorem inside_nodup (hl : t.Linked roots) (p : Handle) : (t.inside p).Nodup := by
  by_cases hp : p < t.size
  · have hall := (List.nodup_append.mp (hl.listed.nodup_iff.mpr List.nodup_range)).2.1
    exact (List.nodup_flatMap.mp hall).1 p (List.mem_range.mpr hp)
  · rw [List.eq_nil_iff_forall_not_mem.mpr fun c hc => hp (lt_size_of_inside hc)]
    exact List.nodup_nil

theorem contains_iff (hl : t.Linked roots) {a p h : Handle} (hh : h ∈ t.inside p) :
    t.Contains a h ↔ a = p ∨ t.Contains a p := by
  constructor
  · intro ha
    cases ha with
    | direct ha => exact .inl (hl.inside_unique ha hh)
    | within ha hq => exact .inr (hl.inside_unique hq hh ▸ ha)
  · rintro (rfl | ha)
    · exact .direct hh
    · exact .within ha hh

/-- Of two nodes around a third one, the one contains the other. -/
theorem contains_total (hl : t.Linked roots) {a b h : Handle} (ha : t.Contains a h)
    (hb : t.Contains b h) : a = b ∨ t.Contains a b ∨ t.Contains b a := by
  induction ha with
  | direct hh =>
    rcases (hl.contains_iff hh).mp hb with rfl | hb
    · exact .inl rfl
    · exact .inr (.inr hb)
  | within ha hh ih =>
    rcases (hl.contains_iff hh).mp hb with rfl | hb
    · exact .inr (.inl ha)
    · exact ih hb

end Linked

/-! ## Ancestors -/

/-- The run of the loop that follows parents: it goes from a node through these others, and ends at
one that has no parent. -/
inductive Climb (t : Tree) : Handle → List Handle → Prop where
  | top {h : Handle} : (t.node? h).bind Node.parent = none → Climb t h []
  | up {h p : Handle} {as : List Handle} :
      (t.node? h).bind Node.parent = some p → Climb t p as → Climb t h (p :: as)

theorem Climb.unique {h : Handle} {as bs : List Handle} (ha : t.Climb h as) (hb : t.Climb h bs) :
    as = bs := by
  induction ha generalizing bs with
  | top hh =>
    cases hb with
    | top _ => rfl
    | up hp _ => rw [hh] at hp; cases hp
  | up hp _ ih =>
    cases hb with
    | top hh => rw [hp] at hh; cases hh
    | up hp' hb =>
      obtain rfl := Option.some.inj (hp.symm.trans hp')
      rw [ih hb]

theorem ancestorsWithin_of_top {h : Handle} (hh : (t.node? h).bind Node.parent = none)
    (steps : Nat) : t.ancestorsWithin steps h = [] := by
  cases steps with
  | zero => rfl
  | succ steps => simp [ancestorsWithin, hh]

namespace Linked

/-- What passes from a node to everything directly inside it holds of every node. -/
theorem descend (hl : t.Linked roots) {P : Handle → Prop}
    (top : ∀ h, (t.node? h).bind Node.parent = none → P h)
    (step : ∀ p h, h ∈ t.inside p → P p → P h) (h : Handle) : P h := by
  induction h using Nat.strongRecOn with
  | ind h ih =>
    cases hp : (t.node? h).bind Node.parent with
    | none => exact top h hp
    | some p =>
      have hin : h ∈ t.inside p := hl.parent_iff.mp hp
      exact step p h hin (ih p (hl.rising p h hin))

theorem ancestorsWithin_succ (hl : t.Linked roots) {h p : Handle} (hh : h ∈ t.inside p)
    (steps : Nat) : t.ancestorsWithin (steps + 1) h = p :: t.ancestorsWithin steps p := by
  simp [ancestorsWithin, hl.parent_iff.mpr hh]

theorem ancestorsWithin_eq (hl : t.Linked roots) (h : Handle) : ∀ {steps steps' : Nat},
    h ≤ steps → h ≤ steps' → t.ancestorsWithin steps h = t.ancestorsWithin steps' h := by
  induction h using hl.descend with
  | top h hh =>
    intro steps steps' _ _
    rw [ancestorsWithin_of_top hh, ancestorsWithin_of_top hh]
  | step p h hh ih =>
    intro steps steps' hs hs'
    have hlt : p < h := hl.rising p h hh
    cases steps with
    | zero => exact absurd (Nat.lt_of_lt_of_le hlt hs) (Nat.not_lt_zero p)
    | succ k =>
      cases steps' with
      | zero => exact absurd (Nat.lt_of_lt_of_le hlt hs') (Nat.not_lt_zero p)
      | succ k' =>
        have hk : p ≤ k := Nat.le_of_lt_succ (Nat.lt_of_lt_of_le hlt hs)
        have hk' : p ≤ k' := Nat.le_of_lt_succ (Nat.lt_of_lt_of_le hlt hs')
        rw [hl.ancestorsWithin_succ hh, hl.ancestorsWithin_succ hh, ih hk hk']

/-- The bound on the steps is never met. -/
theorem ancestors_eq (hl : t.Linked roots) {h p : Handle} (hh : h ∈ t.inside p) :
    t.ancestors h = p :: t.ancestors p := by
  have hsize : h ≤ t.size := Nat.le_of_lt (hl.inside_lt_size hh)
  rw [ancestors, hl.ancestorsWithin_eq h hsize (Nat.le_succ_of_le hsize),
    hl.ancestorsWithin_succ hh, ancestors]

theorem not_contains_of_top (hl : t.Linked roots) {a h : Handle}
    (hh : (t.node? h).bind Node.parent = none) : ¬ t.Contains a h := by
  intro ha
  cases ha with
  | direct ha => simp [hl.parent_iff.mpr ha] at hh
  | within _ hq => simp [hl.parent_iff.mpr hq] at hh

theorem mem_ancestors_iff (hl : t.Linked roots) {a h : Handle} :
    a ∈ t.ancestors h ↔ t.Contains a h := by
  induction h using hl.descend with
  | top h hh =>
    rw [ancestors, ancestorsWithin_of_top hh]
    exact iff_of_false List.not_mem_nil (hl.not_contains_of_top hh)
  | step p h hh ih => rw [hl.ancestors_eq hh, hl.contains_iff hh, List.mem_cons, ih]

theorem climb_iff (hl : t.Linked roots) {h : Handle} {as : List Handle} :
    t.Climb h as ↔ as = t.ancestors h := by
  have hclimb : t.Climb h (t.ancestors h) := by
    induction h using hl.descend with
    | top h hh =>
      rw [ancestors, ancestorsWithin_of_top hh]
      exact .top hh
    | step p h hh ih =>
      rw [hl.ancestors_eq hh]
      exact .up (hl.parent_iff.mpr hh) ih
  exact ⟨fun ha => ha.unique hclimb, fun he => he ▸ hclimb⟩

theorem descending_ancestors (hl : t.Linked roots) (h : Handle) :
    (h :: t.ancestors h).Pairwise fun a b => b < a := by
  induction h using hl.descend with
  | top h hh =>
    rw [ancestors, ancestorsWithin_of_top hh]
    exact List.pairwise_singleton _ h
  | step p h hh ih =>
    refine List.pairwise_cons.mpr ⟨fun a ha => ?_, hl.ancestors_eq hh ▸ ih⟩
    exact hl.rising.lt_of_contains (hl.mem_ancestors_iff.mp ha)

/-- The ancestors stand one inside the other, the innermost first. -/
theorem nested_ancestors (hl : t.Linked roots) (h : Handle) :
    (t.ancestors h).Pairwise fun a b => t.Contains b a := by
  induction h using hl.descend with
  | top h hh =>
    rw [ancestors, ancestorsWithin_of_top hh]
    exact List.Pairwise.nil
  | step p h hh ih =>
    rw [hl.ancestors_eq hh]
    exact List.pairwise_cons.mpr ⟨fun a ha => hl.mem_ancestors_iff.mp ha, ih⟩

end Linked

/-! ## The search for an ancestor -/

def HasKind (t : Tree) (k : Kind) (h : Handle) : Prop := ∃ n, t.node? h = some n ∧ n.kind = k

theorem any_kind_iff {k : Kind} {h : Handle} :
    ((t.node? h).any fun n => n.kind == k) = true ↔ t.HasKind k h := by
  cases hn : t.node? h <;> simp [HasKind, hn]

/-- `a` is the innermost of the nodes of a kind that contain `h`. -/
structure Innermost (t : Tree) (k : Kind) (a h : Handle) : Prop where
  kind : t.HasKind k a
  contains : t.Contains a h
  least : ∀ b, t.HasKind k b → t.Contains b h → b = a ∨ t.Contains b a

namespace Linked

theorem innermost_iff (hl : t.Linked roots) {k : Kind} {a p h : Handle} (hh : h ∈ t.inside p) :
    t.Innermost k a h ↔ a = p ∧ t.HasKind k p ∨ ¬ t.HasKind k p ∧ t.Innermost k a p := by
  constructor
  · intro ha
    by_cases hk : t.HasKind k p
    · refine .inl ⟨?_, hk⟩
      rcases (hl.contains_iff hh).mp ha.contains with hap | hap
      · exact hap
      · -- `p` is of the kind, too, and further inside
        rcases ha.least p hk (.direct hh) with rfl | hpa
        · rfl
        · exact absurd (hl.rising.lt_of_contains hap)
            (Nat.lt_asymm (hl.rising.lt_of_contains hpa))
    · have hne : a ≠ p := fun he => hk (he ▸ ha.kind)
      exact .inr ⟨hk, ha.kind, ((hl.contains_iff hh).mp ha.contains).resolve_left hne,
        fun b hb hbp => ha.least b hb (.within hbp hh)⟩
  · rintro (⟨rfl, hk⟩ | ⟨hk, ha⟩)
    · exact ⟨hk, .direct hh, fun b _ hb => (hl.contains_iff hh).mp hb⟩
    · refine ⟨ha.kind, .within ha.contains hh, fun b hb hbh => ?_⟩
      have hne : b ≠ p := fun he => hk (he ▸ hb)
      exact ha.least b hb (((hl.contains_iff hh).mp hbh).resolve_left hne)

theorem innermost_unique (hl : t.Linked roots) {k : Kind} {a b h : Handle}
    (ha : t.Innermost k a h) (hb : t.Innermost k b h) : a = b := by
  rcases ha.least b hb.kind hb.contains with rfl | hba
  · rfl
  · rcases hb.least a ha.kind ha.contains with rfl | hab
    · rfl
    · exact absurd (hl.rising.lt_of_contains hab) (Nat.lt_asymm (hl.rising.lt_of_contains hba))

theorem findAncestor_eq_some_iff (hl : t.Linked roots) {k : Kind} {a h : Handle} :
    t.findAncestor h k = some a ↔ t.Innermost k a h := by
  induction h using hl.descend with
  | top h hh =>
    rw [findAncestor, ancestors, ancestorsWithin_of_top hh]
    exact iff_of_false (by simp) fun ha => hl.not_contains_of_top hh ha.contains
  | step p h hh ih =>
    rw [findAncestor] at ih
    rw [findAncestor, hl.ancestors_eq hh, hl.innermost_iff hh, ← ih]
    by_cases hk : t.HasKind k p
    · have hfirst := any_kind_iff.mpr hk
      simp [hfirst, hk, eq_comm]
    · have hfirst := mt any_kind_iff.mp hk
      simp [hfirst, hk]

theorem findAncestor_isSome_iff (hl : t.Linked roots) {k : Kind} {h : Handle} :
    (t.findAncestor h k).isSome = true ↔ ∃ a, t.HasKind k a ∧ t.Contains a h := by
  rw [findAncestor, List.find?_isSome]
  constructor
  · rintro ⟨a, ha, hk⟩
    exact ⟨a, any_kind_iff.mp hk, hl.mem_ancestors_iff.mp ha⟩
  · rintro ⟨a, hk, ha⟩
    exact ⟨a, hl.mem_ancestors_iff.mpr ha, any_kind_iff.mpr hk⟩

theorem findAncestor_eq_none_iff (hl : t.Linked roots) {k : Kind} {h : Handle} :
    t.findAncestor h k = none ↔ ∀ a, t.HasKind k a → ¬ t.Contains a h := by
  rw [← Option.not_isSome_iff_eq_none, hl.findAncestor_isSome_iff]
  simp only [not_exists, not_and]

end Linked

/-! ## Branches of listens -/

theorem eq_of_mem_of_nodup_flatten {α : Type} {ls : List (List α)} (hls : ls.flatten.Nodup)
    {i j : Nat} {b b' : List α} {x : α} (hi : ls[i]? = some b) (hj : ls[j]? = some b')
    (hb : x ∈ b) (hb' : x ∈ b') : i = j := by
  have hapart := List.pairwise_iff_getElem.mp (List.nodup_flatten.mp hls).2
  obtain ⟨hil, rfl⟩ := List.getElem?_eq_some_iff.mp hi
  obtain ⟨hjl, rfl⟩ := List.getElem?_eq_some_iff.mp hj
  rcases Nat.lt_trichotomy i j with hlt | heq | hgt
  · exact absurd hb' (hapart i j hil hjl hlt hb)
  · exact heq
  · exact absurd hb (hapart j i hjl hil hgt hb')

/-- The branches of a listen; other shapes have none. -/
def branches (t : Tree) (l : Handle) : List (List Handle) :=
  match (t.node? l).map Node.payload with
  | some (.listen branches) => branches
  | _ => []

/-- A node stands in the branch of a listen that has the given position, at any depth. -/
def InBranch (t : Tree) (l : Handle) (i : Nat) (h : Handle) : Prop :=
  ∃ b r, (t.branches l)[i]? = some b ∧ r ∈ b ∧ (h = r ∨ t.Contains r h)

theorem branches_of_node? {l : Handle} {n : Node} {bs : List (List Handle)}
    (hn : t.node? l = some n) (hb : n.payload = .listen bs) : t.branches l = bs := by
  rw [branches, hn, Option.map_some, hb]

theorem branches_sublist (t : Tree) (l : Handle) :
    (t.branches l).flatten.Sublist (t.inside l) := by
  rw [branches]
  split
  · next bs hp =>
    obtain ⟨n, hn, hp⟩ := Option.map_eq_some_iff.mp hp
    rw [inside_of_node? hn, Node.inside, hp, Payload.handles_listen]
    exact List.sublist_append_right _ _
  · exact List.nil_sublist _

theorem mem_inside_of_branch {l r : Handle} {i : Nat} {b : List Handle}
    (hi : (t.branches l)[i]? = some b) (hr : r ∈ b) : r ∈ t.inside l :=
  (t.branches_sublist l).subset (List.mem_flatten.mpr ⟨b, List.mem_of_getElem? hi, hr⟩)

namespace InBranch

variable {l h p : Handle} {i : Nat}

theorem contains (hh : t.InBranch l i h) : t.Contains l h := by
  obtain ⟨b, r, hi, hr, rfl | hrh⟩ := hh
  · exact .direct (mem_inside_of_branch hi hr)
  · exact Contains.trans (.direct (mem_inside_of_branch hi hr)) hrh

theorem within (hp : t.InBranch l i p) (hh : t.Contains p h) : t.InBranch l i h := by
  obtain ⟨b, r, hi, hr, rfl | hrp⟩ := hp
  · exact ⟨b, _, hi, hr, .inr hh⟩
  · exact ⟨b, r, hi, hr, .inr (hrp.trans hh)⟩

end InBranch

namespace Linked

theorem inside_listen (hl : t.Linked roots) {l : Handle} (hk : t.HasKind .listen l) :
    t.inside l = (t.branches l).flatten := by
  obtain ⟨n, hn, hkind⟩ := hk
  have hfits := hl.fits l n hn
  obtain ⟨bs, hb⟩ := Payload.listen_of_suits (hkind ▸ hfits.suits)
  have hchildren : n.children = [] := hfits.childless (by rw [hkind]; rfl)
  rw [inside_of_node? hn, Node.inside, hchildren, branches_of_node? hn hb, hb,
    Payload.handles_listen, List.nil_append]

theorem exists_inBranch (hl : t.Linked roots) {l h : Handle} (hk : t.HasKind .listen l)
    (hh : t.Contains l h) : ∃ i, t.InBranch l i h := by
  obtain ⟨r, hr, hrh⟩ := hh.exists_inside
  rw [hl.inside_listen hk] at hr
  obtain ⟨b, hb, hr⟩ := List.mem_flatten.mp hr
  obtain ⟨i, hi⟩ := List.mem_iff_getElem?.mp hb
  exact ⟨i, b, r, hi, hr, hrh⟩

theorem not_contains_beside (hl : t.Linked roots) {p r r' : Handle} (hr : r ∈ t.inside p)
    (hr' : r' ∈ t.inside p) : ¬ t.Contains r r' := by
  intro h
  have hlt : p < r := hl.rising p r hr
  rcases (hl.contains_iff hr').mp h with rfl | h
  · exact Nat.lt_irrefl _ hlt
  · exact Nat.lt_asymm hlt (hl.rising.lt_of_contains h)

theorem inside_eq_of_contains (hl : t.Linked roots) {p r r' h : Handle} (hr : r ∈ t.inside p)
    (hr' : r' ∈ t.inside p) (hh : h = r ∨ t.Contains r h) (hh' : h = r' ∨ t.Contains r' h) :
    r = r' := by
  have hapart := hl.not_contains_beside hr hr'
  have hapart' := hl.not_contains_beside hr' hr
  rcases hh with rfl | hh
  · exact hh'.resolve_right hapart'
  · rcases hh' with rfl | hh'
    · exact absurd hh hapart
    · exact (hl.contains_total hh hh').resolve_right fun hn => hn.elim hapart hapart'

theorem inBranch_unique (hl : t.Linked roots) {l h : Handle} {i j : Nat}
    (hi : t.InBranch l i h) (hj : t.InBranch l j h) : i = j := by
  obtain ⟨b, r, hi, hr, hrh⟩ := hi
  obtain ⟨b', r', hj, hr', hrh'⟩ := hj
  obtain rfl := hl.inside_eq_of_contains (mem_inside_of_branch hi hr)
    (mem_inside_of_branch hj hr') hrh hrh'
  have hnodup := (t.branches_sublist l).nodup (hl.inside_nodup l)
  exact eq_of_mem_of_nodup_flatten hnodup hi hj hr hr'

theorem inBranch_iff (hl : t.Linked roots) {l h : Handle} {i : Nat} :
    t.InBranch l i h ↔
      ∃ b, (t.branches l)[i]? = some b ∧ b.any (h :: t.ancestors h).contains = true := by
  simp only [InBranch, List.any_eq_true, List.contains_iff_mem, List.mem_cons,
    hl.mem_ancestors_iff, eq_comm (a := h)]
  constructor
  · rintro ⟨b, r, hi, hr⟩
    exact ⟨b, hi, r, hr⟩
  · rintro ⟨b, hi, r, hr⟩
    exact ⟨b, r, hi, hr⟩

end Linked

/-- The position of the branch of a listen that a node stands in. -/
def branch? (t : Tree) (l h : Handle) : Option Nat :=
  (t.branches l).findIdx? fun b => b.any (h :: t.ancestors h).contains

theorem Linked.branch?_eq_some_iff (hl : t.Linked roots) {l h : Handle} {i : Nat} :
    t.branch? l h = some i ↔ t.InBranch l i h := by
  rw [branch?, List.findIdx?_eq_some_iff_getElem]
  constructor
  · rintro ⟨hi, hb, -⟩
    exact hl.inBranch_iff.mpr ⟨_, List.getElem?_eq_getElem hi, hb⟩
  · intro hin
    obtain ⟨b, hb, hany⟩ := hl.inBranch_iff.mp hin
    obtain ⟨hi, rfl⟩ := List.getElem?_eq_some_iff.mp hb
    refine ⟨hi, hany, fun j hj hanyj => ?_⟩
    have hjn : j < (t.branches l).length := Nat.lt_trans hj hi
    have hjin := hl.inBranch_iff.mpr ⟨_, List.getElem?_eq_getElem hjn, hanyj⟩
    exact absurd (hl.inBranch_unique hjin hin) (Nat.ne_of_lt hj)

end Orchestration.Shape.Tree
