import Orchestration.Proofs.Tally

/-!
# Orchestration.Proofs.Report.Ranking

Lists in decreasing order.

* `Ranks` — a list with the greatest items first, in which equal ones keep their order.
* `ranks_mergeSort` — sorting ranks; `Ranks.unique` — nothing else does.
* `Ranks.map_of_key` — a ranking of items is one of their names.
* `Tally.ranks_ranked` — the names of a tally, the most frequent first.
-/

namespace Orchestration

/-- The items of `l`, those with the greatest keys first; items with one key stay in the order in
which `l` has them. -/
structure Ranks {α : Type} (key : α → Nat) (l ranked : List α) : Prop where
  perm : ranked.Perm l
  decreasing : ranked.Pairwise fun a b => key b ≤ key a
  ties : ∀ n, ranked.filter (fun a => key a == n) = l.filter fun a => key a == n

section

variable {α β : Type} {key : α → Nat} {l ranked : List α}

theorem ranks_mergeSort (key : α → Nat) (l : List α) :
    Ranks key l (l.mergeSort fun a b => decide (key b ≤ key a)) := by
  have htrans : ∀ a b c, decide (key b ≤ key a) = true → decide (key c ≤ key b) = true →
      decide (key c ≤ key a) = true := by
    intro a b c hab hbc
    simp only [decide_eq_true_eq] at hab hbc ⊢
    exact Nat.le_trans hbc hab
  have htotal : ∀ a b, (decide (key b ≤ key a) || decide (key a ≤ key b)) = true := by
    intro a b
    simp only [Bool.or_eq_true, decide_eq_true_eq]
    exact Nat.le_total ..
  have hperm := List.mergeSort_perm l fun a b => decide (key b ≤ key a)
  refine ⟨hperm, ?_, fun n => ?_⟩
  · exact (List.pairwise_mergeSort htrans htotal l).imp fun h => of_decide_eq_true h
  · -- items with one key are in order already, so sorting keeps them as they are
    have hordered : (l.filter fun a => key a == n).Pairwise fun a b =>
        decide (key b ≤ key a) = true := by
      refine List.pairwise_of_forall_mem_list fun a ha b hb => ?_
      have ha := beq_iff_eq.mp (List.mem_filter.mp ha).2
      have hb := beq_iff_eq.mp (List.mem_filter.mp hb).2
      exact decide_eq_true (Nat.le_of_eq (hb.trans ha.symm))
    have hkept := (List.sublist_mergeSort htrans htotal hordered List.filter_sublist).filter
      fun a => key a == n
    rw [List.filter_filter] at hkept
    simp only [Bool.and_self] at hkept
    exact (hkept.eq_of_length (hperm.filter _).length_eq.symm).symm

theorem Ranks.map_of_key (h : Ranks key l ranked) (f : α → β) {key' : β → Nat}
    (hkey : ∀ a ∈ l, key' (f a) = key a) : Ranks key' (l.map f) (ranked.map f) := by
  have hties : ∀ items : List α, (∀ a ∈ items, a ∈ l) → ∀ n,
      (items.map f).filter (fun b => key' b == n) =
        (items.filter fun a => key a == n).map f := by
    intro items hitems n
    rw [List.filter_map]
    refine congrArg (List.map f) (List.filter_congr fun a ha => ?_)
    rw [Function.comp_apply, hkey a (hitems a ha)]
  have hmem : ∀ a ∈ ranked, a ∈ l := fun a => h.perm.mem_iff.mp
  refine ⟨h.perm.map f, List.pairwise_map.mpr ?_, fun n => ?_⟩
  · refine h.decreasing.imp_of_mem fun {a b} ha hb hab => ?_
    rwa [hkey a (hmem a ha), hkey b (hmem b hb)]
  · rw [hties ranked hmem, hties l fun a ha => ha, h.ties]

/-- A list has one ranking only. -/
theorem Ranks.unique {other : List α} (h : Ranks key l ranked) (h' : Ranks key l other) :
    ranked = other := by
  have hperm := h.perm.trans h'.perm.symm
  have hties : ∀ n, ranked.filter (fun a => key a == n) = other.filter fun a => key a == n :=
    fun n => (h.ties n).trans (h'.ties n).symm
  have hd := h.decreasing
  have hd' := h'.decreasing
  clear h h'
  induction ranked generalizing other with
  | nil => exact hperm.nil_eq
  | cons a rest ih =>
    cases other with
    | nil => exact hperm.eq_nil
    | cons b rest' =>
      rw [List.pairwise_cons] at hd hd'
      have hle : key a ≤ key b := by
        rcases List.mem_cons.mp (hperm.mem_iff.mp List.mem_cons_self) with h | h
        · exact h ▸ Nat.le_refl _
        · exact hd'.1 a h
      have hge : key b ≤ key a := by
        rcases List.mem_cons.mp (hperm.mem_iff.mpr List.mem_cons_self) with h | h
        · exact h ▸ Nat.le_refl _
        · exact hd.1 b h
      have hkey : key a = key b := Nat.le_antisymm hle hge
      -- both heads are the first item with the greatest key
      have hhead := hties (key a)
      rw [List.filter_cons_of_pos (by simp), List.filter_cons_of_pos (by simp [hkey])] at hhead
      obtain ⟨rfl, -⟩ := List.cons.inj hhead
      refine congrArg _ (ih hperm.cons_inv (fun n => ?_) hd.2 hd'.2)
      have hn := hties n
      rw [List.filter_cons, List.filter_cons] at hn
      split at hn
      · exact (List.cons.inj hn).2
      · exact hn

end

theorem Tally.ranks_ranked {t : Tally} (ht : t.names.Nodup) :
    Ranks t.count t.names t.ranked.names := by
  refine (ranks_mergeSort Prod.snd t).map_of_key Prod.fst fun p hp => ?_
  exact ((Tally.mem_iff_count ht).mp hp).2

end Orchestration
