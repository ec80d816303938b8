/-!
# Orchestration.Text.Search

The first place where a text holds another.

* `splitBefore` — cuts a text at the first occurrence of a pattern.
* `holds`       — whether there is one.
-/

namespace Orchestration.Text

/-- The shortest `p` and the rest `r` with `s = p ++ r` such that `r` begins with `pattern`. -/
def splitBefore (pattern s : List Char) : Option (List Char × List Char) :=
  if pattern.isPrefixOf s then some ([], s)
  else
    match s with
    | [] => none
    | c :: rest =>
      match splitBefore pattern rest with
      | some (p, r) => some (c :: p, r)
      | none => none

def holds (pattern s : String) : Bool := (splitBefore pattern.toList s.toList).isSome

theorem append_of_splitBefore {pattern s p r : List Char}
    (h : splitBefore pattern s = some (p, r)) : s = p ++ r := by
  fun_induction splitBefore pattern s generalizing p r with
  | case1 s _ => simp_all
  | case2 => simp at h
  | case3 c rest p' r' hrest _ ih =>
    obtain ⟨rfl, rfl⟩ : c :: p' = p ∧ r' = r := by simpa using h
    simp [ih hrest]
  | case4 => simp at h

theorem isPrefixOf_of_splitBefore {pattern s p r : List Char}
    (h : splitBefore pattern s = some (p, r)) : pattern.isPrefixOf r = true := by
  fun_induction splitBefore pattern s generalizing p r with
  | case1 s hs =>
    obtain ⟨rfl, rfl⟩ : [] = p ∧ s = r := by simpa using h
    exact hs
  | case2 => simp at h
  | case3 c rest p' r' hrest _ ih =>
    obtain ⟨rfl, rfl⟩ : c :: p' = p ∧ r' = r := by simpa using h
    exact ih hrest
  | case4 => simp at h

theorem splitBefore_eq_none_iff {pattern s : List Char} :
    splitBefore pattern s = none ↔ ¬pattern <:+: s := by
  fun_induction splitBefore pattern s with
  | case1 s hs =>
    have hoccurs : pattern <:+: s := (List.isPrefixOf_iff_prefix.mp hs).isInfix
    simp [hoccurs]
  | case2 hs => simpa [List.isPrefixOf_iff_prefix] using hs
  | case3 c rest p r hrest hs ih =>
    have hoccurs : pattern <:+: rest := by simpa [hrest] using ih
    simp [List.infix_cons_iff, hoccurs]
  | case4 c rest hrest hs ih =>
    rw [List.isPrefixOf_iff_prefix] at hs
    simpa [List.infix_cons_iff, hs, hrest] using ih

theorem holds_iff (pattern s : String) : holds pattern s = true ↔ pattern.toList <:+: s.toList := by
  rw [holds, Option.isSome_iff_ne_none, Ne, splitBefore_eq_none_iff, Classical.not_not]

end Orchestration.Text
