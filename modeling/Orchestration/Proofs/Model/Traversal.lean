import Orchestration.Model.Record
import Orchestration.Proofs.Diagnostics
import Orchestration.Proofs.Model.Assembly
import Orchestration.Proofs.Shape.Flatten

/-!
# Orchestration.Proofs.Model.Traversal

Three ways through the shapes of a model meet the same nodes: the walk of all roots, the nested
records, and the hierarchy that is printed.

* `Model.allShapes_perm` — the walk meets every node of the tree, each once.
* `Model.flatten_record` — the records inside a model's record come in the order of the walk.
-/

namespace Orchestration.Model

open Json (flatten flattenBelow flattenFields)
open Shape (Tree)

theorem allShapes_perm {m : Model} (hl : m.tree.Linked m.roots) :
    m.allShapes.Perm m.tree.nodes.toList := by
  have hp : m.allShapes.Perm (m.tree.resolve (List.range m.tree.size)) :=
    hl.walk_perm.filterMap m.tree.node?
  rw [Tree.resolve_range] at hp
  exact hp

theorem flatten_record {m : Model} (hl : m.tree.Linked m.roots) :
    flattenBelow m.record = m.allHandles.map m.tree.record := by
  have hroots : flattenBelow m.record = m.roots.flatMap fun h => flatten (m.tree.record h) := by
    simp [record, flattenBelow, flattenFields, Json.shapeKeys, Json.flatten_map, roots, declared]
  have hwalk : m.roots.flatMap (fun h => flatten (m.tree.record h)) =
      m.roots.flatMap fun h => (m.tree.walk [h]).map m.tree.record :=
    List.flatMap_congr fun h hh => hl.flatten_record (hl.root_lt_size hh)
  rw [hroots, hwalk, allHandles, Tree.walk_eq_flatMap, List.map_flatMap]

theorem walk_shapes_nodup {m : Model} (hl : m.tree.Linked m.roots) :
    (m.tree.walk m.shapes).Nodup := by
  have hall := hl.walk_nodup
  rw [roots, Tree.walk_append] at hall
  exact (List.nodup_append.mp hall).2.1

/-- In the model of a text the walk meets every node once, the nested records are those of the
walk, in its order, and the hierarchy shows each node of the body once. -/
theorem traversals {text source : String} {m : Model} (h : ofText text source = .ok m) :
    m.allHandles.Perm (List.range m.tree.size) ∧ m.allShapes.Perm m.tree.nodes.toList ∧
      flattenBelow m.record = m.allHandles.map m.tree.record ∧
      (m.tree.walk m.shapes).Nodup ∧
      (Diagnostics.headers (Diagnostics.render m)).Perm
        ((m.tree.resolve (m.tree.walk m.shapes)).map Diagnostics.headline) := by
  obtain ⟨d, hd⟩ := assembled_of_ofText h
  have hl := hd.linked
  have hshapes : ∀ x ∈ m.shapes, x < m.tree.size := fun x hx =>
    hl.root_lt_size (List.mem_append_right _ hx)
  exact ⟨hl.walk_perm, allShapes_perm hl, flatten_record hl, walk_shapes_nodup hl,
    Diagnostics.headers_render hl hshapes⟩

theorem traversals_sample :
    ∃ m, ofText sample "orders.odx" = .ok m ∧ m.allHandles.Perm (List.range 5) ∧
      flattenBelow m.record = m.allHandles.map m.tree.record := by
  obtain ⟨m, hm, hv⟩ := sample_parsed
  have hsize : m.tree.size = 5 := congrArg Prod.fst hv
  obtain ⟨hall, -, hrecord, -⟩ := traversals hm
  rw [hsize] at hall
  exact ⟨m, hm, hall, hrecord⟩

end Orchestration.Model
