import Mathlib.Data.List.Nodup
import Orchestration.Proofs.Model.Correlation
import Orchestration.Proofs.Shape.Plain

/-!
# Orchestration.Proofs.Model.Identity

Unique identifiers of the shapes in a model's body.

* `Model.uniqueId_inj_of_singleDefault` — two shapes of the body never share one, as long as no
  switch has two default containers and the texts of the document hold no separator.
* `Model.uniqueId_twoDefaults` — the default containers of one switch are all numbered from zero in
  one context, so that their shapes can share an identifier.
-/

namespace Orchestration.Model

open Designer (Document Element)
open Shape (Handle Node Outline Tree standAlone)

theorem bodyOutlines_plain {d : Document} (hplain : d.root.Throughout Element.Plain)
    (hdefault : d.root.Throughout Element.SingleDefault) :
    ∀ o ∈ Outline.flatAll (bodyOutlines d), o.Plain := by
  unfold bodyOutlines
  cases hb : d.bodies.head? with
  | none => simp [Outline.flatAll]
  | some body =>
    have hbody : ∀ P, d.root.Throughout P → body.Throughout P := by
      intro P h
      obtain ⟨service, hs, hbody⟩ := List.mem_flatMap.mp (List.mem_of_head? hb)
      obtain ⟨module, hm, hs⟩ := List.mem_flatMap.mp hs
      unfold Document.modules at hm
      split at hm
      · exact ((h.selected hm).selected hs).selected hbody
      · cases hm
    exact (Outline.ofElement_plain body (hbody _ hplain) (hbody _ hdefault)).2

/-- What is declared beside the body comes before the body. -/
theorem lt_of_declared {d : Document} {x : Handle × Node}
    (hx : x ∈ standAlone 0 serviceContext serviceSequence (declaredSketches d variableType) ++
      standAlone (declaredSketches d variableType).length serviceContext serviceSequence
        (declaredSketches d correlationType)) : x.1 < declaredCount d := by
  have hm : x.1 ∈ List.range' 0 (declaredCount d) := by
    have hfst := List.mem_map_of_mem (f := Prod.fst) hx
    rw [List.map_append, Shape.standAlone_handles, Shape.standAlone_handles] at hfst
    rw [declaredCount, ← List.range'_append_1, Nat.zero_add]
    exact hfst
  exact Nat.lt_of_lt_of_eq (List.mem_range'_1.mp hm).2 (Nat.zero_add _)

namespace Assembled

variable {d : Document} {m : Model}

theorem le_of_mem_shapes (ha : Assembled d m) {h : Handle} (hh : h ∈ m.shapes) :
    declaredCount d ≤ h := by
  rw [ha.shapes, grownBody_handles] at hh
  have hstand := Outline.laidAll_stand (declaredCount d) "body" 0 none _ (bodyOutlines_proper d)
  obtain ⟨n, hn, -⟩ := hstand.root h hh
  exact Outline.laidAll_mem_later hn

/-- A shape below those of the body has been laid there; binding changed its payload at most. -/
theorem laid_of_mem_walk (ha : Assembled d m) {h : Handle} {n : Node}
    (hh : h ∈ m.tree.walk m.shapes) (hn : m.tree.node? h = some n) :
    ∃ g, (h, g) ∈ Outline.laidAll (declaredCount d) "body" 0 none (bodyOutlines d) ∧
      n.uniqueId = g.uniqueId := by
  rw [Tree.walk_eq_flatMap] at hh
  obtain ⟨root, hroot, hh⟩ := List.mem_flatMap.mp hh
  -- a walk meets nothing that is earlier than its root, and the declarations come first
  have hlater : declaredCount d ≤ h :=
    Nat.le_trans (ha.le_of_mem_shapes hroot) (ha.linked.rising.le_of_mem_walk hh)
  rw [ha.node?_eq] at hn
  obtain ⟨g, hg, rfl⟩ := Option.map_eq_some_iff.mp hn
  refine ⟨g, ?_, rfl⟩
  have hlayout := (Tree.mem_iff_node? (grownBody_list d) (layout_handles d) h g).mpr hg
  rcases List.mem_append.mp hlayout with hdeclared | hlaid
  · exact absurd (Nat.lt_of_le_of_lt hlater (lt_of_declared hdeclared)) (Nat.lt_irrefl _)
  · exact hlaid

end Assembled

/-- Two shapes below those of the body never share a unique identifier, however deeply they stand
in regions, when no text that identifiers are made of holds a separator and no switch has two
default containers. -/
theorem uniqueId_inj_of_singleDefault {text source : String} {root : Xml.Node} {m : Model}
    (hroot : readRoot text.toList source = .ok root) (h : ofText text source = .ok m)
    (hplain : (Element.ofXml root).Throughout Element.Plain)
    (hdefault : (Element.ofXml root).Throughout Element.SingleDefault) {x y : Handle}
    {n n' : Node} (hx : x ∈ m.tree.walk m.shapes) (hy : y ∈ m.tree.walk m.shapes)
    (hn : m.tree.node? x = some n) (hn' : m.tree.node? y = some n')
    (hsame : n.uniqueId = n'.uniqueId) : x = y := by
  have ha : Assembled (Document.ofXml root) m := by
    rw [ofText, assembleText, hroot] at h
    exact assembled_of_assemble h
  obtain ⟨g, hg, hid⟩ := ha.laid_of_mem_walk hx hn
  obtain ⟨g', hg', hid'⟩ := ha.laid_of_mem_walk hy hn'
  have hbody := bodyOutlines_plain (d := Document.ofXml root) hplain hdefault
  have hdistinct :=
    (Outline.laidAll_identified (declaredCount (Document.ofXml root)) "body" 0 none _ hbody).distinct
  rw [hid, hid'] at hsame
  exact congrArg Prod.fst (List.inj_on_of_nodup_map hdistinct hg hg' hsame)

/-- What there is to see of the shapes 1 and 2: what the body's walk meets, and both identifiers. -/
def twoIds (m : Model) : List Handle × Option String × Option String :=
  (m.tree.walk m.shapes, (m.tree.node? 1).map Node.uniqueId, (m.tree.node? 2).map Node.uniqueId)

/-- A switch with a case and a default, both around a delay. -/
def caseAndDefault : String :=
  "<?xml version='1.0'?>
  <MetaModel xmlns='http://schemas.microsoft.com/BizTalk/2003/DesignerData'>
  <Element Type='Module'><Element Type='ServiceDeclaration'>
  <Property Name='Name' Value='Orders'/>
  <Element Type='ServiceBody'><Element Type='Switch'>
  <Element Type='DecisionBranch'><Property Name='Expression' Value='1'/>
  <Element Type='Delay'/></Element>
  <Element Type='DecisionBranch'><Element Type='Delay'/></Element>
  </Element></Element></Element></Element></MetaModel>#endif"

set_option maxRecDepth 100000 in
theorem caseAndDefault_root : ∃ root, readRoot caseAndDefault.toList "orders.odx" = .ok root ∧
    decide ((Element.ofXml root).Throughout Element.Plain ∧
      (Element.ofXml root).Throughout Element.SingleDefault) = true := by
  refine exists_ok ?_
  rw [caseAndDefault, String.toList_ofList]
  decide +kernel

set_option maxRecDepth 100000 in
theorem caseAndDefault_parsed : ∃ m, ofText caseAndDefault "orders.odx" = .ok m ∧ twoIds m =
    ([0, 1, 2], some "Delay@body/Switch#0.case[1]#0", some "Delay@body/Switch#0.default#0") := by
  refine exists_ok ?_
  rw [caseAndDefault, ofText_ofList]
  decide +kernel

theorem uniqueId_caseAndDefault : ∃ m n n', ofText caseAndDefault "orders.odx" = .ok m ∧
    m.tree.walk m.shapes = [0, 1, 2] ∧ m.tree.node? 1 = some n ∧ m.tree.node? 2 = some n' ∧
    n.uniqueId ≠ n'.uniqueId := by
  obtain ⟨root, hroot, hplain⟩ := caseAndDefault_root
  obtain ⟨hplain, hdefault⟩ := of_decide_eq_true hplain
  obtain ⟨m, hm, hids⟩ := caseAndDefault_parsed
  obtain ⟨hwalk, hids⟩ := Prod.mk.inj hids
  obtain ⟨hfirst, hsecond⟩ := Prod.mk.inj hids
  obtain ⟨n, hn, -⟩ := Option.map_eq_some_iff.mp hfirst
  obtain ⟨n', hn', -⟩ := Option.map_eq_some_iff.mp hsecond
  have hmem : ∀ x ∈ [1, 2], x ∈ m.tree.walk m.shapes := by
    rw [hwalk]
    decide
  refine ⟨m, n, n', hm, hwalk, hn, hn', fun hsame => ?_⟩
  have h := uniqueId_inj_of_singleDefault hroot hm hplain hdefault (hmem 1 (by decide))
    (hmem 2 (by decide)) hn hn' hsame
  cases h

/-- A switch with two defaults, both around a delay. -/
def twoDefaults : String :=
  "<?xml version='1.0'?>
  <MetaModel xmlns='http://schemas.microsoft.com/BizTalk/2003/DesignerData'>
  <Element Type='Module'><Element Type='ServiceDeclaration'>
  <Property Name='Name' Value='Orders'/>
  <Element Type='ServiceBody'><Element Type='Switch'>
  <Element Type='DecisionBranch'><Element Type='Delay'/></Element>
  <Element Type='DecisionBranch'><Element Type='Delay'/></Element>
  </Element></Element></Element></Element></MetaModel>#endif"

set_option maxRecDepth 100000 in
theorem twoDefaults_root : ∃ root, readRoot twoDefaults.toList "orders.odx" = .ok root ∧
    decide ((Element.ofXml root).Throughout Element.Plain) = true := by
  refine exists_ok ?_
  rw [twoDefaults, String.toList_ofList]
  decide +kernel

set_option maxRecDepth 100000 in
theorem twoDefaults_parsed : ∃ m, ofText twoDefaults "orders.odx" = .ok m ∧ twoIds m =
    ([0, 1, 2], some "Delay@body/Switch#0.default#0", some "Delay@body/Switch#0.default#0") := by
  refine exists_ok ?_
  rw [twoDefaults, ofText_ofList]
  decide +kernel

/-- Both delays are the first of the one context that the defaults have in common. -/
theorem uniqueId_twoDefaults : ∃ root m n n', readRoot twoDefaults.toList "orders.odx" = .ok root ∧
    (Element.ofXml root).Throughout Element.Plain ∧ ofText twoDefaults "orders.odx" = .ok m ∧
    m.tree.walk m.shapes = [0, 1, 2] ∧ m.tree.node? 1 = some n ∧ m.tree.node? 2 = some n' ∧
    n.uniqueId = n'.uniqueId := by
  obtain ⟨root, hroot, hplain⟩ := twoDefaults_root
  obtain ⟨m, hm, hids⟩ := twoDefaults_parsed
  obtain ⟨hwalk, hids⟩ := Prod.mk.inj hids
  obtain ⟨hfirst, hsecond⟩ := Prod.mk.inj hids
  obtain ⟨n, hn, hid⟩ := Option.map_eq_some_iff.mp hfirst
  obtain ⟨n', hn', hid'⟩ := Option.map_eq_some_iff.mp hsecond
  exact ⟨root, m, n, n', hroot, of_decide_eq_true hplain, hm, hwalk, hn, hn', hid.trans hid'.symm⟩

end Orchestration.Model
