import Mathlib.Data.List.Perm.Basic
import Orchestration.Proofs.Yaml.Document

/-!
# Orchestration.Proofs.Yaml.Order

Values that differ in the order of keys.

* `Value.Reordered` — the same value with the pairs of its mappings in another order.
* `Value.Reordered.pairs` — every pair of the one mapping is there in the other.
-/

namespace Orchestration.Yaml.Value

/-- The same value, but that the pairs of its mappings may come in another order, down to a depth. -/
def Reordered : Nat → Value → Value → Prop
  | 0, v, v' => v = v'
  | depth + 1, v, v' => v = v' ∨ ∃ es mid es', v = .mapping es ∧ v' = .mapping es' ∧
      List.Forall₂ (fun e e' => e.1 = e'.1 ∧ Reordered depth e.2 e'.2) es mid ∧ mid.Perm es'

variable {depth : Nat} {v v' : Value} {es es' : List (Value × Value)}

theorem Reordered.symm (h : Reordered depth v v') : Reordered depth v' v := by
  induction depth generalizing v v' with
  | zero => exact Eq.symm h
  | succ depth ih =>
    rcases h with rfl | ⟨es, mid, es', rfl, rfl, hpairs, hperm⟩
    · exact .inl rfl
    · have hback : List.Forall₂ (fun e e' => e.1 = e'.1 ∧ Reordered depth e.2 e'.2) mid es :=
        (hpairs.imp fun e e' ⟨hkey, hv⟩ => ⟨hkey.symm, ih hv⟩).flip
      obtain ⟨mid', hmid, hperm'⟩ := List.perm_comp_forall₂ hperm.symm hback
      exact .inr ⟨es', mid', es, rfl, rfl, hmid, hperm'⟩

theorem Reordered.eq_of_flat (h : Reordered depth v v') (hv : v.IsFlat) : v' = v := by
  cases depth with
  | zero => exact Eq.symm h
  | succ depth =>
    rcases h with rfl | ⟨es, -, -, rfl, -⟩
    · rfl
    · exact absurd rfl (hv es)

theorem exists_of_forall₂ {α : Type} {R : α → α → Prop} {l l' : List α} (h : List.Forall₂ R l l')
    {a : α} (ha : a ∈ l) : ∃ a' ∈ l', R a a' := by
  induction h with
  | nil => cases ha
  | cons hab _ ih =>
    rcases List.mem_cons.mp ha with rfl | ha
    · exact ⟨_, List.mem_cons_self .., hab⟩
    · obtain ⟨a', ha', hR⟩ := ih ha
      exact ⟨a', List.mem_cons_of_mem _ ha', hR⟩

theorem Reordered.pairs (h : Reordered depth (.mapping es) v') :
    ∃ es', v' = .mapping es' ∧
      ∀ k w, (k, w) ∈ es → ∃ w' depth', (k, w') ∈ es' ∧ Reordered depth' w w' := by
  cases depth with
  | zero => exact ⟨es, Eq.symm h, fun k w hw => ⟨w, 0, hw, rfl⟩⟩
  | succ depth =>
    rcases h with rfl | ⟨es₁, mid, es', hes, rfl, hpairs, hperm⟩
    · exact ⟨es, rfl, fun k w hw => ⟨w, 0, hw, rfl⟩⟩
    · obtain rfl := Value.mapping.inj hes
      refine ⟨es', rfl, fun k w hw => ?_⟩
      obtain ⟨⟨_, w'⟩, hmid, rfl, hw'⟩ := exists_of_forall₂ hpairs hw
      exact ⟨w', depth, hperm.mem_iff.mp hmid, hw'⟩

end Orchestration.Yaml.Value
