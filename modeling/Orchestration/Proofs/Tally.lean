import Mathlib.Algebra.BigOperators.Group.List.Basic
import Mathlib.Algebra.GroupWithZero.Nat
import Orchestration.Proofs.Shape.Regions
import Orchestration.Tally

/-!
# Orchestration.Proofs.Tally

What tallies hold after names have been counted in them.

* `count_add`, `names_add` — one name; a tally never holds a name twice.
* `count_addAll`           — the counts of another tally.
* `names_ofNames`, `total_ofNames` — the tally of a list, its names at their first places.
* `mem_ofNames`            — the tally of a list holds every name that occurs, with its count.
* `sum_addAll`, `sum_ofNames` — all counts together.
-/

namespace Orchestration.Tally

variable {t : Tally} {name other : String}

theorem lookup_cons_getD {α : Type} (k : String) (x : α) (rest : List (String × α)) (name : String)
    (other : α) : (List.lookup name ((k, x) :: rest)).getD other =
      if name = k then x else (rest.lookup name).getD other := by
  by_cases h : name = k
  · simp [h]
  · have hk : (name == k) = false := by simpa using h
    simp [List.lookup_cons, hk, h]

theorem count_cons (k : String) (c : Nat) (rest : Tally) (name : String) :
    count ((k, c) :: rest) name = if name = k then c else rest.count name :=
  lookup_cons_getD k c rest name 0

theorem count_add (t : Tally) (name other : String) (n : Nat) :
    (t.add name n).count other = t.count other + if other = name then n else 0 := by
  by_cases h : other = name
  · rw [if_pos h, h, count_add_self]
  · rw [if_neg h, count_add_of_ne h, Nat.add_zero]

theorem names_add (t : Tally) (name : String) (n : Nat) :
    (t.add name n).names = if name ∈ t.names then t.names else t.names ++ [name] := by
  induction t with
  | nil => rfl
  | cons p rest ih =>
    obtain ⟨k, c⟩ := p
    by_cases h : k = name
    · simp [add, names, h]
    · have hne : name ≠ k := fun he => h he.symm
      rw [add, if_neg h]
      show k :: names (add name n rest) = if name ∈ k :: names rest then k :: names rest
        else k :: names rest ++ [name]
      rw [ih]
      by_cases hm : name ∈ names rest
      · simp [hm]
      · simp [hm, hne]

theorem mem_names_add {n : Nat} : other ∈ (t.add name n).names ↔ other ∈ t.names ∨ other = name := by
  rw [names_add]
  split
  · next hm =>
    refine ⟨.inl, ?_⟩
    rintro (h | rfl)
    · exact h
    · exact hm
  · simp

theorem nodup_names_add {n : Nat} (h : t.names.Nodup) : (t.add name n).names.Nodup := by
  rw [names_add]
  split
  · exact h
  · next hm => simpa [List.nodup_append] using ⟨h, fun x hx he => hm (he ▸ hx)⟩

theorem count_eq_zero_of_notMem (h : name ∉ t.names) : t.count name = 0 := by
  induction t with
  | nil => rfl
  | cons p rest ih =>
    obtain ⟨k, c⟩ := p
    have hm : name ∉ k :: names rest := h
    rw [List.mem_cons, not_or] at hm
    rw [count_cons, if_neg hm.1]
    exact ih hm.2

/-! ## One tally added to another -/

/-- Adds every count of `u`. -/
def addAll (t u : Tally) : Tally := u.foldl (fun t (name, n) => t.add name n) t

theorem count_addAll (t : Tally) {u : Tally} (hu : u.names.Nodup) (name : String) :
    (t.addAll u).count name = t.count name + u.count name := by
  induction u generalizing t with
  | nil => rfl
  | cons p rest ih =>
    obtain ⟨k, c⟩ := p
    obtain ⟨hk, hrest⟩ := List.nodup_cons.mp hu
    show (addAll (t.add k c) rest).count name = _
    rw [ih _ hrest, count_add, count_cons]
    by_cases h : name = k
    · subst h
      rw [if_pos rfl, if_pos rfl, count_eq_zero_of_notMem hk, Nat.add_zero]
    · rw [if_neg h, if_neg h, Nat.add_zero]

theorem mem_names_addAll {u : Tally} :
    name ∈ (t.addAll u).names ↔ name ∈ t.names ∨ name ∈ u.names := by
  induction u generalizing t with
  | nil => simp [addAll, names]
  | cons p rest ih =>
    obtain ⟨k, c⟩ := p
    show name ∈ (addAll (t.add k c) rest).names ↔ name ∈ t.names ∨ name ∈ k :: names rest
    rw [ih, mem_names_add, List.mem_cons, or_assoc]

theorem nodup_names_addAll (u : Tally) (h : t.names.Nodup) : (t.addAll u).names.Nodup := by
  induction u generalizing t with
  | nil => exact h
  | cons p rest ih => exact ih (nodup_names_add h)

/-! ## Names counted one by one -/

/-- Counts every name once more. -/
def enter (t : Tally) (names : List String) : Tally := names.foldl (fun t name => t.add name 1) t

theorem enter_concat (t : Tally) (names : List String) (name : String) :
    t.enter (names ++ [name]) = (t.enter names).add name 1 := by
  simp [enter]

theorem count_enter (t : Tally) (names : List String) (name : String) :
    (t.enter names).count name = t.count name + names.count name := by
  induction names generalizing t with
  | nil => rfl
  | cons x rest ih =>
    show (enter (t.add x 1) rest).count name = _
    rw [ih, count_add, List.count_cons, Nat.add_assoc, Nat.add_comm (List.count name rest)]
    by_cases h : x = name
    · simp [h]
    · have hne : name ≠ x := fun he => h he.symm
      simp [h, hne]

theorem mem_names_enter {names : List String} :
    name ∈ (t.enter names).names ↔ name ∈ t.names ∨ name ∈ names := by
  induction names generalizing t with
  | nil => simp [enter]
  | cons x rest ih =>
    show name ∈ (enter (t.add x 1) rest).names ↔ _
    rw [ih, mem_names_add, List.mem_cons, or_assoc]

theorem nodup_names_enter (names : List String) (h : t.names.Nodup) :
    (t.enter names).names.Nodup := by
  induction names generalizing t with
  | nil => exact h
  | cons x rest ih => exact ih (nodup_names_add h)

theorem names_ofNames (names : List String) : (ofNames names).names = names.eraseDups := by
  induction names using List.reverseRecOn with
  | nil => rfl
  | append_singleton l x ih =>
    show (enter [] (l ++ [x])).names = _
    have hl : (enter [] l).names = l.eraseDups := ih
    rw [enter_concat, names_add, hl, Shape.eraseDups_concat]
    simp only [List.mem_eraseDups]

/-- The sum of the counts whose names satisfy a test. -/
def total (t : Tally) (test : String → Bool) : Nat :=
  (t.filter fun (name, _) => test name).foldr (fun (_, n) total => n + total) 0

theorem total_add (test : String → Bool) (t : Tally) (name : String) (n : Nat) :
    (t.add name n).total test = t.total test + if test name then n else 0 := by
  induction t with
  | nil => cases h : test name <;> simp [total, add, h]
  | cons p rest ih =>
    obtain ⟨k, c⟩ := p
    by_cases hk : k = name
    · subst hk
      rw [add, if_pos rfl]
      cases h : test k
      · simp [total, h]
      · simp only [total, h, List.filter_cons_of_pos, List.foldr_cons, if_true]
        omega
    · rw [add, if_neg hk]
      cases h : test k
      · simpa [total, h] using ih
      · simp only [total, h, List.filter_cons_of_pos, List.foldr_cons] at ih ⊢
        omega

theorem total_ofNames (test : String → Bool) (names : List String) :
    (ofNames names).total test = names.countP test := by
  induction names using List.reverseRecOn with
  | nil => rfl
  | append_singleton l x ih =>
    have hl : (enter [] l).total test = l.countP test := ih
    show (enter [] (l ++ [x])).total test = _
    rw [enter_concat, total_add, hl, List.countP_append, List.countP_singleton]

theorem total_addAll (test : String → Bool) (t u : Tally) :
    (t.addAll u).total test = t.total test + u.total test := by
  induction u generalizing t with
  | nil => rfl
  | cons p rest ih =>
    obtain ⟨k, c⟩ := p
    show (addAll (t.add k c) rest).total test = _
    rw [ih, total_add]
    cases h : test k
    · simp [total, h]
    · simp [total, h, Nat.add_assoc]

theorem total_all (t : Tally) : t.total (fun _ => true) = (t.map Prod.snd).sum := by
  induction t with
  | nil => rfl
  | cons p rest ih =>
    rw [List.map_cons, List.sum_cons, ← ih]
    rfl

theorem sum_addAll (t u : Tally) : ((t.addAll u).map Prod.snd).sum =
    (t.map Prod.snd).sum + (u.map Prod.snd).sum := by
  rw [← total_all, total_addAll, total_all, total_all]

theorem sum_ofNames (names : List String) :
    ((ofNames names).map Prod.snd).sum = names.length := by
  rw [← total_all, total_ofNames, List.countP_true]

/-! ## Entries -/

theorem mem_iff_count (ht : t.names.Nodup) {n : Nat} :
    (name, n) ∈ t ↔ name ∈ t.names ∧ t.count name = n := by
  induction t with
  | nil => simp [names]
  | cons p rest ih =>
    obtain ⟨k, c⟩ := p
    obtain ⟨hk, hrest⟩ := List.nodup_cons.mp ht
    show (name, n) ∈ (k, c) :: rest ↔ name ∈ k :: names rest ∧ _
    rw [List.mem_cons, List.mem_cons, ih hrest, count_cons, Prod.mk.injEq]
    by_cases h : name = k
    · subst h
      have hother : name ∉ names rest := hk
      simp [hother, eq_comm]
    · simp [h]

/-- Every name that occurs, and how often it does. -/
theorem mem_ofNames {names : List String} {n : Nat} :
    (name, n) ∈ ofNames names ↔ n = names.count name ∧ n ≠ 0 := by
  have hnodup : (ofNames names).names.Nodup := nodup_names_enter names List.nodup_nil
  have hcount : (ofNames names).count name = names.count name :=
    (count_enter [] names name).trans (Nat.zero_add _)
  rw [mem_iff_count hnodup, names_ofNames, List.mem_eraseDups, hcount]
  constructor
  · rintro ⟨hm, rfl⟩
    exact ⟨rfl, Nat.ne_of_gt (List.count_pos_iff.mpr hm)⟩
  · rintro ⟨rfl, hn⟩
    exact ⟨List.count_pos_iff.mp (Nat.pos_of_ne_zero hn), rfl⟩

end Orchestration.Tally
