import Orchestration.Proofs.Shape.Links

/-!
# Orchestration.Proofs.Shape.Walk

Walking a tree in which every link leads to a later node.

* `Tree.Rising` — what stands inside a node comes after it.
* `Tree.Rising.walk_eq` — on such trees the bound on the depth of a walk is never met: a walk is
  its roots, each followed by the walk of what is inside it.
* `Tree.Linked.walk_perm` — the walk of all roots meets every node exactly once.
-/

namespace Orchestration.Shape.Tree

variable {t : Tree} {roots : List Handle}

/-- Every link leads to a later node. -/
def Rising (t : Tree) : Prop := ∀ p, ∀ c ∈ t.inside p, p < c

theorem Linked.rising (hl : t.Linked roots) : t.Rising := by
  intro p c hc
  cases hn : t.node? p with
  | none => simp [inside, hn] at hc
  | some n =>
    rw [inside_of_node? hn] at hc
    exact (hl.link p n hn c hc).1

theorem lt_size_of_inside {p c : Handle} (hc : c ∈ t.inside p) : p < t.size := by
  cases hn : t.node? p with
  | none => simp [inside, hn] at hc
  | some n => exact lt_size_of_node? hn

theorem Linked.inside_lt_size (hl : t.Linked roots) {p c : Handle} (hc : c ∈ t.inside p) :
    c < t.size := by
  obtain ⟨n, hn⟩ := exists_node? (lt_size_of_inside hc)
  rw [inside_of_node? hn] at hc
  obtain ⟨-, cn, hcn, -⟩ := hl.link p n hn c hc
  exact lt_size_of_node? hcn

theorem Linked.root_lt_size (hl : t.Linked roots) {r : Handle} (hr : r ∈ roots) : r < t.size := by
  obtain ⟨n, hn, -⟩ := hl.root r hr
  exact lt_size_of_node? hn

theorem Rising.sub_lt (hr : t.Rising) {p c : Handle} (hc : c ∈ t.inside p) :
    t.size - c < t.size - p := by
  have hlt : p < c := hr p c hc
  have hsize : p < t.size := lt_size_of_inside hc
  exact Nat.sub_lt_sub_left hsize hlt

/-- What passes from everything inside a node to the node holds of every node. -/
theorem Rising.induct (hr : t.Rising) {P : Handle → Prop}
    (step : ∀ h, (∀ c ∈ t.inside h, P c) → P h) (h : Handle) : P h := by
  induction hd : t.size - h using Nat.strongRecOn generalizing h with
  | ind d ih =>
    refine step h fun c hc => ih (t.size - c) ?_ c rfl
    rw [← hd]
    exact hr.sub_lt hc

/-! ## The bound on the depth -/

@[simp] theorem walkWithin_nil (depth : Nat) : t.walkWithin depth [] = [] := by
  cases depth <;> rfl

theorem walkWithin_succ (depth : Nat) (hs : List Handle) :
    t.walkWithin (depth + 1) hs = hs.flatMap fun h => h :: t.walkWithin depth (t.inside h) := by
  rw [walkWithin]
  congr 1
  funext h
  cases hn : t.node? h with
  | none => simp [inside, hn]
  | some n => simp [inside, hn]

theorem Rising.walkWithin_eq (hr : t.Rising) {depth depth' : Nat} {hs : List Handle}
    (hd : ∀ h ∈ hs, t.size - h < depth) (hd' : ∀ h ∈ hs, t.size - h < depth') :
    t.walkWithin depth hs = t.walkWithin depth' hs := by
  induction depth generalizing depth' hs with
  | zero =>
    have hnil : hs = [] := List.eq_nil_iff_forall_not_mem.mpr fun h hh => by simpa using hd h hh
    simp [hnil]
  | succ depth ih =>
    cases depth' with
    | zero =>
      have hnil : hs = [] := List.eq_nil_iff_forall_not_mem.mpr fun h hh => by simpa using hd' h hh
      simp [hnil]
    | succ depth' =>
      rw [walkWithin_succ, walkWithin_succ]
      refine List.flatMap_congr fun h hh => congrArg (h :: ·) (ih ?_ ?_)
      · intro c hc
        exact Nat.lt_of_lt_of_le (hr.sub_lt hc) (Nat.le_of_lt_succ (hd h hh))
      · intro c hc
        exact Nat.lt_of_lt_of_le (hr.sub_lt hc) (Nat.le_of_lt_succ (hd' h hh))

theorem sub_lt_depth (h : Handle) : t.size - h < t.size + 1 :=
  Nat.lt_succ_of_le (Nat.sub_le ..)

/-- A walk is each root, followed by the walk of what is inside it. -/
theorem Rising.walk_eq (hr : t.Rising) (hs : List Handle) :
    t.walk hs = hs.flatMap fun h => h :: t.walk (t.inside h) := by
  rw [walk, walkWithin_succ]
  refine List.flatMap_congr fun h _ => congrArg (h :: ·) (hr.walkWithin_eq ?_ ?_)
  · intro c hc
    exact Nat.lt_of_lt_of_le (hr.sub_lt hc) (Nat.sub_le ..)
  · intro c _
    exact sub_lt_depth c

@[simp] theorem walk_nil : t.walk [] = [] := walkWithin_nil _

theorem walk_append (hs hs' : List Handle) : t.walk (hs ++ hs') = t.walk hs ++ t.walk hs' := by
  simp [walk, walkWithin_succ]

theorem walk_eq_flatMap (hs : List Handle) : t.walk hs = hs.flatMap fun h => t.walk [h] := by
  simp [walk, walkWithin_succ]

theorem Rising.walk_singleton (hr : t.Rising) (h : Handle) :
    t.walk [h] = h :: t.walk (t.inside h) := by
  rw [hr.walk_eq]
  simp

/-- Everything that a walk from a node meets comes no earlier than the node. -/
theorem Rising.le_of_mem_walk (hr : t.Rising) {h c : Handle} (hc : c ∈ t.walk [h]) : h ≤ c := by
  induction h using hr.induct generalizing c with
  | step h ih =>
    rw [hr.walk_singleton] at hc
    rcases List.mem_cons.mp hc with rfl | hc
    · exact Nat.le_refl _
    · rw [walk_eq_flatMap] at hc
      obtain ⟨h', hh', hc⟩ := List.mem_flatMap.mp hc
      exact Nat.le_trans (Nat.le_of_lt (hr h h' hh')) (ih h' hh' hc)

/-- Everything inside a node, at any depth, comes after it. -/
theorem Rising.lt_of_mem_walk_inside (hr : t.Rising) {p c : Handle}
    (hc : c ∈ t.walk (t.inside p)) : p < c := by
  rw [walk_eq_flatMap] at hc
  obtain ⟨h, hh, hc⟩ := List.mem_flatMap.mp hc
  exact Nat.lt_of_lt_of_le (hr p h hh) (hr.le_of_mem_walk hc)

/-- Walks see nothing of a tree but what is inside its nodes. -/
theorem walkWithin_congr {t' : Tree} (hinside : t'.inside = t.inside) (depth : Nat)
    (hs : List Handle) : t'.walkWithin depth hs = t.walkWithin depth hs := by
  induction depth generalizing hs with
  | zero => rfl
  | succ depth ih => simp only [walkWithin_succ, hinside, ih]

theorem walk_congr {t' : Tree} (hsize : t'.size = t.size) (hinside : t'.inside = t.inside)
    (hs : List Handle) : t'.walk hs = t.walk hs := by
  rw [walk, walk, hsize, walkWithin_congr hinside]

/-! ## Every node once -/

/-- What a walk meets is its roots and what is inside the nodes that it meets. -/
theorem Rising.walk_perm (hr : t.Rising) (hs : List Handle) :
    (t.walk hs).Perm (hs ++ (t.walk hs).flatMap t.inside) := by
  have hlist : ∀ l : List Handle,
      (∀ h ∈ l, (t.walk [h]).Perm (h :: (t.walk [h]).flatMap t.inside)) →
      (t.walk l).Perm (l ++ (t.walk l).flatMap t.inside) := by
    intro l hl
    rw [walk_eq_flatMap]
    refine (List.Perm.flatMap_left l hl).trans ?_
    have hp := (List.flatMap_append_perm l (fun h => [h])
      fun h => (t.walk [h]).flatMap t.inside).symm
    simpa [List.flatMap_assoc] using hp
  have hone : ∀ h, (t.walk [h]).Perm (h :: (t.walk [h]).flatMap t.inside) := by
    intro h
    induction h using hr.induct with
    | step h ih =>
      rw [hr.walk_singleton, List.flatMap_cons]
      exact (hlist (t.inside h) ih).cons h
  exact hlist hs fun h _ => hone h

theorem Rising.count_flatMap_inside (hr : t.Rising) (l : List Handle) (h : Handle) :
    (l.flatMap t.inside).count h =
      ((l.filter fun p => decide (p < h)).flatMap t.inside).count h := by
  induction l with
  | nil => rfl
  | cons p rest ih =>
    by_cases hp : p < h
    · simp [hp, ih]
    · have hnot : (t.inside p).count h = 0 :=
        List.count_eq_zero.mpr fun hm => hp (hr p h hm)
      simp [hp, ih, hnot]

theorem Linked.walk_perm (hl : t.Linked roots) : (t.walk roots).Perm (List.range t.size) := by
  have hr : t.Rising := hl.rising
  have hwalk := hr.walk_perm roots
  rw [List.perm_iff_count]
  intro h
  induction h using Nat.strongRecOn with
  | ind h ih =>
    -- up to the handle `h` both lists agree, and only these nodes can hold it
    have hbefore : ((t.walk roots).filter fun p => decide (p < h)).Perm
        ((List.range t.size).filter fun p => decide (p < h)) := by
      rw [List.perm_iff_count]
      intro p
      by_cases hp : p < h
      · rw [List.count_filter (by simpa using hp), List.count_filter (by simpa using hp), ih p hp]
      · rw [List.count_eq_zero.mpr (by simp [hp]), List.count_eq_zero.mpr (by simp [hp])]
    have hinside : ((t.walk roots).flatMap t.inside).count h =
        ((List.range t.size).flatMap t.inside).count h := by
      rw [hr.count_flatMap_inside, hr.count_flatMap_inside (List.range t.size)]
      exact (hbefore.flatMap_right t.inside).count_eq h
    rw [hwalk.count_eq h, List.count_append, hinside, ← List.count_append, hl.listed.count_eq h]

theorem Linked.walk_nodup (hl : t.Linked roots) : (t.walk roots).Nodup :=
  hl.walk_perm.nodup_iff.mpr List.nodup_range

theorem Linked.mem_walk_iff (hl : t.Linked roots) (h : Handle) :
    h ∈ t.walk roots ↔ h < t.size := by
  rw [hl.walk_perm.mem_iff, List.mem_range]

end Orchestration.Shape.Tree
