/-!
# Orchestration.Tally

Counts by name, in the order in which the names were first counted.

* `Tally.add`     — adds to the count of a name.
* `Tally.ofNames` — how often each name occurs in a list.
* `Tally.ranked`  — the counts in decreasing order; equal counts keep their order.
-/

namespace Orchestration

abbrev Tally := List (String × Nat)

namespace Tally

/-- Adds to the count of a name; a new name goes to the end. -/
def add (name : String) (n : Nat) : Tally → Tally
  | [] => [(name, n)]
  | (k, count) :: rest =>
    if k = name then (k, count + n) :: rest else (k, count) :: add name n rest

def ofNames (names : List String) : Tally := names.foldl (fun t name => t.add name 1) []

def count (t : Tally) (name : String) : Nat := (t.lookup name).getD 0

def names (t : Tally) : List String := t.map Prod.fst

def ranked (t : Tally) : Tally := t.mergeSort fun a b => decide (b.2 ≤ a.2)

def sorted (t : Tally) : Tally := t.mergeSort fun a b => decide (a.1 ≤ b.1)

theorem count_add_self (t : Tally) (name : String) (n : Nat) :
    (t.add name n).count name = t.count name + n := by
  induction t with
  | nil => simp [add, count]
  | cons p rest ih =>
    obtain ⟨k, c⟩ := p
    by_cases h : k = name
    · simp [add, count, h]
    · have h' : (name == k) = false := by simp [Ne.symm h]
      simpa [add, count, h, h', List.lookup_cons] using ih

theorem count_add_of_ne {name other : String} (h : other ≠ name) (t : Tally) (n : Nat) :
    (t.add name n).count other = t.count other := by
  induction t with
  | nil =>
    have h' : (other == name) = false := by simp [h]
    simp [add, count, List.lookup_cons, h']
  | cons p rest ih =>
    obtain ⟨k, c⟩ := p
    by_cases hk : k = name
    · subst hk
      have h' : (other == k) = false := by simp [h]
      simp [add, count, List.lookup_cons, h']
    · simp only [add, count, hk, if_false, List.lookup_cons] at ih ⊢
      split
      · rfl
      · exact ih

end Tally

end Orchestration
