import Orchestration.Proofs.Model.Assembly
import Orchestration.Proofs.Shape.Index

/-!
# Orchestration.Proofs.Model.Index

The index of identifiers of a model. All its shapes, beside the body and anywhere in it, have been
registered when they were added.

* `Model.Assembled.indexed` — the tree of an assembled model is indexed.
* `Model.index_exactly` — what the index of a text's model holds, and what looking up tells.
-/

namespace Orchestration.Model

open Designer (Document Element)
open Shape (Handle Outline Sketch Tree)

theorem addDeclared_indexed {x : List Handle × Tree} (hx : x.2.Indexed) (e : Element) :
    (addDeclared x e).2.Indexed := by
  unfold addDeclared
  split
  · exact hx
  · exact hx.sprout _ _ _ _

theorem declare_indexed (d : Document) (type : String) {t : Tree} (ht : t.Indexed) :
    (declare d type t).2.Indexed := by
  have hrun : ∀ (es : List Element) (x : List Handle × Tree), x.2.Indexed →
      (es.foldl addDeclared x).2.Indexed := by
    intro es
    induction es with
    | nil => exact fun _ hx => hx
    | cons e rest ih => exact fun x hx => ih _ (addDeclared_indexed hx e)
  exact hrun (Designer.named (d.declared type)) ([], t) ht

theorem grownBody_indexed (d : Document) : (grownBody d).tree.Indexed := by
  have hdeclared : (declaredTree d).Indexed :=
    declare_indexed d correlationType (declare_indexed d variableType Tree.indexed_empty)
  exact hdeclared.placeAll "body" 0 none (bodyOutlines d)

theorem Assembled.indexed {d : Document} {m : Model} (ha : Assembled d m) : m.tree.Indexed := by
  rw [ha.tree]
  exact (grownBody_indexed d).correlate _

/-- The index of a text's model maps each identifier, other than the empty one, to the first node
that carries it. It has no other keys, so that looking up finds a node with the identifier whenever
there is one, and for an identifier of a node never one of the nodes inside that node. -/
theorem index_exactly {text source : String} {m : Model} (h : ofText text source = .ok m) :
    (m.tree.index.map Prod.fst).Nodup ∧
      (∀ oid x, (oid, x) ∈ m.tree.index ↔ oid ≠ "" ∧ m.tree.First oid x) ∧
      (∀ oid x, m.tree.lookup oid = some x ↔ oid ≠ "" ∧ m.tree.First oid x) ∧
      (∀ oid, m.tree.lookup oid = none ↔ oid = "" ∨ ∀ x, m.tree.oid? x ≠ some oid) ∧
      ∀ owner, ∀ inner ∈ m.tree.walk (m.tree.inside owner), ∀ oid, oid ≠ "" →
        m.tree.oid? owner = some oid →
          ∃ x, m.tree.lookup oid = some x ∧ x ≤ owner ∧ owner < inner := by
  obtain ⟨d, hd⟩ := assembled_of_ofText h
  have hi := hd.indexed
  refine ⟨hi.keys, hi.entry, fun _ _ => hi.lookup_eq_some_iff, fun _ => hi.lookup_eq_none_iff, ?_⟩
  intro owner inner hinner oid hoid howner
  obtain ⟨x, hx⟩ := Tree.exists_first howner
  exact ⟨x, hi.lookup_eq_some_iff.mpr ⟨hoid, hx⟩, hx.least owner howner,
    hd.linked.rising.lt_of_mem_walk_inside hinner⟩

/-- A construct whose assignment has the identifier of the construct. -/
def sharedIdentifier : String :=
  "<?xml version='1.0'?>
  <MetaModel xmlns='http://schemas.microsoft.com/BizTalk/2003/DesignerData'>
  <Element Type='Module'><Element Type='ServiceDeclaration'>
  <Property Name='Name' Value='Orders'/>
  <Element Type='ServiceBody'><Element Type='Delay'/>
  <Element Type='Construct' OID='x'><Element Type='MessageAssignment' OID='x'/></Element>
  </Element></Element></Element></MetaModel>#endif"

set_option maxRecDepth 100000 in
theorem sharedIdentifier_parsed : ∃ m, ofText sharedIdentifier "orders.odx" = .ok m ∧
    m.tree.list.map Shape.Node.oid = ["", "x", "x"] := by
  refine exists_ok ?_
  rw [sharedIdentifier, ofText_ofList]
  decide +kernel

/-- The construct keeps the entry. -/
theorem index_sharedIdentifier : ∃ m, ofText sharedIdentifier "orders.odx" = .ok m ∧
    m.tree.lookup "x" = some 1 := by
  obtain ⟨m, hm, hoids⟩ := sharedIdentifier_parsed
  have hfirst : m.tree.First "x" 1 := by
    refine ⟨by rw [Tree.oid?_eq_getElem?, hoids]; rfl, fun h ho => ?_⟩
    rw [Tree.oid?_eq_getElem?, hoids] at ho
    cases h with
    | zero => simp at ho
    | succ h => exact Nat.succ_le_succ (Nat.zero_le h)
  exact ⟨m, hm, ((index_exactly hm).2.2.1 "x" 1).mpr ⟨by decide, hfirst⟩⟩

end Orchestration.Model
