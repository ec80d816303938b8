import Orchestration.Proofs.Model.Assembly
import Orchestration.Proofs.Shape.Ancestry

/-!
# Orchestration.Proofs.Model.Ancestry

What stands around a shape of a model.

* `Model.ancestry` — following parents ends, and meets exactly the nodes around a node, from the
  inside out; the search for an ancestor of a kind finds the innermost one.
-/

namespace Orchestration.Model

open Shape (Handle Kind Tree)

/-- In the model of a text the loop that follows parents comes to an end at every node, after ever
smaller handles, which are those of the nodes around it. -/
theorem ancestry {text source : String} {m : Model} (h : ofText text source = .ok m)
    (x : Handle) :
    (∀ as, m.tree.Climb x as ↔ as = m.tree.ancestors x) ∧
    (x :: m.tree.ancestors x).Pairwise (fun a b => b < a) ∧
    (∀ a, a ∈ m.tree.ancestors x ↔ m.tree.Contains a x) ∧
    (m.tree.ancestors x).Pairwise (fun a b => m.tree.Contains b a) ∧
    ∀ k, (∀ a, m.tree.findAncestor x k = some a ↔ m.tree.Innermost k a x) ∧
      (m.tree.findAncestor x k = none ↔ ∀ a, m.tree.HasKind k a → ¬ m.tree.Contains a x) := by
  obtain ⟨d, hd⟩ := assembled_of_ofText h
  have hl := hd.linked
  exact ⟨fun _ => hl.climb_iff, hl.descending_ancestors x, fun _ => hl.mem_ancestors_iff,
    hl.nested_ancestors x, fun _ =>
      ⟨fun _ => hl.findAncestor_eq_some_iff, hl.findAncestor_eq_none_iff⟩⟩

/-- A delay in a scope, in the branch of a listen, in another scope, in the branch of a decision. -/
def enclosed : String :=
  withBody "<Element Type='Decide'><Element Type='DecisionBranch'>
  <Element Type='Scope'><Element Type='Listen'><Element Type='ListenBranch'>
  <Element Type='Scope'><Element Type='Delay'/></Element>
  </Element></Element></Element>
  </Element></Element>"

set_option maxRecDepth 100000 in
theorem enclosed_parsed : ∃ m, ofText enclosed "orders.odx" = .ok m ∧
    (m.tree.ancestors 4, m.tree.findAncestor 4 .scope, m.tree.findAncestor 4 .loop) =
      ([3, 2, 1, 0], some 3, none) :=
  exists_of_append (by decide +kernel)

theorem ancestry_enclosed : ∃ m, ofText enclosed "orders.odx" = .ok m ∧
    m.tree.Climb 4 [3, 2, 1, 0] ∧ m.tree.Contains 0 4 ∧ m.tree.Innermost .scope 3 4 ∧
    ∀ a, m.tree.HasKind .loop a → ¬ m.tree.Contains a 4 := by
  obtain ⟨m, hm, hv⟩ := enclosed_parsed
  obtain ⟨hall, hscope, hloop⟩ : m.tree.ancestors 4 = [3, 2, 1, 0] ∧
      m.tree.findAncestor 4 .scope = some 3 ∧ m.tree.findAncestor 4 .loop = none := by
    simpa using hv
  obtain ⟨hclimb, -, hmem, -, hkind⟩ := ancestry hm 4
  exact ⟨m, hm, (hclimb _).mpr hall.symm, (hmem 0).mp (by rw [hall]; decide),
    ((hkind .scope).1 3).mp hscope, (hkind .loop).2.mp hloop⟩

end Orchestration.Model
