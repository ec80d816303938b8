import Orchestration.Proofs.Model.Identity
import Orchestration.Proofs.Shape.Reading

/-!
# Orchestration.Proofs.Model.Reading

The body of a model, seen as a tree into which elements are read.

* `Model.Assembled.tree_eq_read` — the tree of a model is read from the elements of its body.
* `Model.Assembled.body_keeps` — the outlines of the body stand where they have been laid.
* `Model.Assembled.mem_walk_shapes_iff` — a walk of the body meets all nodes but the declared ones,
  and each of them is that of an outline.
-/

namespace Orchestration.Model

open Designer (Document Element)
open Shape (Handle Node Outline Tree)

namespace Assembled

variable {d : Document} {m : Model}

theorem tree_eq_read {body : Element} (ha : Assembled d m) (hbody : d.bodies.head? = some body) :
    m.tree = (declaredTree d).read ⟨"body", 0⟩ none body.children
      (m.declaredCorrelations ++ m.shapes) := by
  rw [ha.tree, grownBody, bodyOutlines, hbody]
  rfl

theorem body_keeps (ha : Assembled d m) :
    m.tree.Keeps (Outline.laidAll (declaredCount d) "body" 0 none (bodyOutlines d)) := by
  have hheld := (declaredTree d).grow_held ⟨"body", 0⟩ (Tree.lt_of_no_parent _) (bodyOutlines d)
  rw [declaredTree_size] at hheld
  rw [ha.tree]
  exact Tree.keeps_correlate hheld _

theorem size_eq (ha : Assembled d m) :
    m.tree.size = declaredCount d + (Outline.flatAll (bodyOutlines d)).length := by
  rw [ha.tree, Tree.correlate_size, grownBody, Tree.grow_size, declaredTree_size,
    Outline.length_flatAll]

/-! ## The walk of the body -/

/-- What is declared beside the body holds nothing. -/
theorem inside_of_declared (ha : Assembled d m) {h : Handle} (hh : h < declaredCount d) :
    m.tree.inside h = [] := by
  cases hn : m.tree.node? h with
  | none => simp [Tree.inside, hn]
  | some n =>
    rw [Tree.inside_of_node? hn]
    rw [ha.node?_eq] at hn
    obtain ⟨g, hg, rfl⟩ := Option.map_eq_some_iff.mp hn
    rw [Node.bindAll_inside]
    have hlist := (Tree.placeAll_eq (declaredTree d) "body" 0 none (bodyOutlines d)).2.2
    have hgrown : (grownBody d).tree.list[h]? = (declaredTree d).list[h]? := by
      rw [← declaredTree_size, ← Tree.length_list] at hh
      rw [← List.getElem?_append_left hh, ← hlist]
      rfl
    rw [Tree.node?_eq_getElem?, hgrown, declaredTree_list] at hg
    obtain ⟨s, hs, rfl⟩ := List.mem_map.mp (List.mem_of_getElem? hg)
    rcases List.mem_append.mp hs with hs | hs
    · exact (declaredSketches_fresh d variableType s hs).node_inside ..
    · exact (declaredSketches_fresh d correlationType s hs).node_inside ..

theorem lt_of_mem_declared (ha : Assembled d m) {h : Handle} (hh : h ∈ m.declared) :
    h < declaredCount d := by
  rw [declared, ha.declaredVariables, ha.declaredCorrelations, declare_variables_handles,
    declare_correlations_handles] at hh
  rcases List.mem_append.mp hh with hh | hh
  · have hlt := (List.mem_range'_1.mp hh).2
    rw [Nat.zero_add] at hlt
    exact Nat.lt_of_lt_of_le hlt (Nat.le_add_right ..)
  · exact (List.mem_range'_1.mp hh).2

theorem mem_walk_shapes_iff (ha : Assembled d m) (h : Handle) :
    h ∈ m.tree.walk m.shapes ↔ declaredCount d ≤ h ∧ h < m.tree.size := by
  have hl := ha.linked
  have hroots : m.tree.walk m.roots = m.tree.walk m.declared ++ m.tree.walk m.shapes := by
    rw [roots, Tree.walk_append]
  rw [← hl.mem_walk_iff, hroots, List.mem_append]
  constructor
  · intro hh
    refine ⟨?_, .inr hh⟩
    rw [Tree.walk_eq_flatMap] at hh
    obtain ⟨root, hroot, hh⟩ := List.mem_flatMap.mp hh
    exact Nat.le_trans (ha.le_of_mem_shapes hroot) (hl.rising.le_of_mem_walk hh)
  · rintro ⟨hlater, hh⟩
    refine hh.resolve_left fun hdeclared => ?_
    rw [hl.rising.walk_eq] at hdeclared
    obtain ⟨root, hroot, hh⟩ := List.mem_flatMap.mp hdeclared
    have hlt := ha.lt_of_mem_declared hroot
    rw [ha.inside_of_declared hlt, Tree.walk_nil, List.mem_singleton] at hh
    exact absurd hlt (Nat.not_lt.mpr (hh ▸ hlater))

end Assembled

end Orchestration.Model
