import Orchestration.Proofs.Model.Reading
import Orchestration.Proofs.Report.Frequency
import Orchestration.Proofs.Shape.Decision

/-!
# Orchestration.Proofs.Analysis.Decision

What becomes of the branches of a decision when a model is analysed.

* `Analysis.mem_counts_of_node` — every node of a model is walked and counted.
* `Analysis.decide_conserves` — two branches of a decision are kept and counted; all that a
  decision has beyond them is left out.
-/

namespace Orchestration

open Designer (Document Element)
open Shape (Handle Node Outline Sketch Taken Tree decisionTypes sketches)

namespace Analysis

variable {text source : String} {m : Model}

theorem mem_counts_of_node (h : Model.ofText text source = .ok m) {x : Handle} {n : Node}
    (hn : m.tree.node? x = some n) :
    x ∈ m.allHandles ∧ ∀ s fileName size,
      (n.tag, m.tree.list.countP fun y => y.tag == n.tag) ∈ (ofModel s m fileName size).counts := by
  obtain ⟨d, hd⟩ := Model.assembled_of_ofText h
  refine ⟨(hd.linked.mem_walk_iff x).mpr (Tree.lt_size_of_node? hn), fun s fileName size => ?_⟩
  have hmem : n ∈ m.tree.list := by
    rw [Tree.node?_eq_getElem?] at hn
    exact List.mem_of_getElem? hn
  have hpos : m.tree.list.countP (fun y => y.tag == n.tag) ≠ 0 := by
    rw [Ne, List.countP_eq_zero]
    intro hnone
    simpa using hnone n hmem
  exact (mem_counts_iff h s fileName size _ _).mpr ⟨rfl, hpos⟩

/-- Of the branches of a decision two have a slot, in which all their shapes stand, are walked and
are counted. What the slots do not hold is what stands in the branches beyond these. -/
theorem decide_conserves {root : Xml.Node} {body : Element}
    (hroot : Model.readRoot text.toList source = .ok root)
    (h : Model.ofText text source = .ok m)
    (hbody : (Document.ofXml root).bodies.head? = some body) {i : Nat} {e : Element}
    (he : Outline.Reached body.children i e)
    (htype : Text.lower e.type ∈ ["decision", "decide", "if", "ifelse"]) :
    ∃ n condition whenTrue whenFalse,
      m.tree.node? (Model.declaredCount (Document.ofXml root) + i) = some n ∧
      n.payload = .decide condition whenTrue whenFalse ∧ (whenTrue ++ whenFalse).Nodup ∧
      (∀ b others, Taken (e.select decisionTypes) b others →
        m.tree.Renders (Model.declaredCount (Document.ofXml root) + i) b.children whenTrue ∧
        m.tree.Renders (Model.declaredCount (Document.ofXml root) + i)
          ((others.take 1).flatMap Element.children) whenFalse ∧
        (whenTrue ++ whenFalse).length +
            (sketches ((others.drop 1).flatMap Element.children)).length =
          (sketches ((e.select decisionTypes).flatMap Element.children)).length) ∧
      ((e.select decisionTypes).length ≤ 2 → ∀ b ∈ e.select decisionTypes, ∀ c ∈ b.children,
        ∀ s, Sketch.ofElement? c = some s → ∃ x ∈ whenTrue ++ whenFalse, ∃ n',
          m.tree.node? x = some n' ∧ n'.Depicts s ∧ x ∈ m.allHandles ∧
          ∀ settings fileName size, (s.tag, m.tree.list.countP fun y => y.tag == s.tag) ∈
            (ofModel settings m fileName size).counts) := by
  have ha := Model.assembled_of_readRoot hroot h
  obtain ⟨n, condition, whenTrue, whenFalse, hd⟩ :=
    (Model.declaredTree (Document.ofXml root)).read_decided ⟨"body", 0⟩ body.children
      (m.declaredCorrelations ++ m.shapes) (Tree.lt_of_no_parent _) he
      (Shape.Form.ofType_decide htype)
  rw [← ha.tree_eq_read hbody, Model.declaredTree_size] at hd
  refine ⟨n, condition, whenTrue, whenFalse, hd.node, hd.payload, hd.nodup, ?_, ?_⟩
  · intro b others htaken
    obtain ⟨hwhenTrue, hwhenFalse⟩ := hd.renders htaken
    exact ⟨hwhenTrue, hwhenFalse, hd.conserves htaken⟩
  · intro hlength b hb c hc s hs
    obtain ⟨x, hx, n', hn', hdepicts⟩ := hd.exists_handle hlength hb hc hs
    obtain ⟨hwalked, hcounted⟩ := mem_counts_of_node h hn'
    rw [hdepicts.tag] at hcounted
    exact ⟨x, hx, n', hn', hdepicts, hwalked, hcounted⟩

/-- A decision with three branches, then one with two. -/
def branches : String :=
  "<?xml version='1.0'?>
  <MetaModel xmlns='http://schemas.microsoft.com/BizTalk/2003/DesignerData'>
  <Element Type='Module'><Element Type='ServiceDeclaration'>
  <Property Name='Name' Value='Orders'/>
  <Element Type='ServiceBody'><Element Type='Decide'>
  <Element Type='DecisionBranch'><Element Type='Send'/></Element>
  <Element Type='DecisionBranch'><Element Type='Send'/></Element>
  <Element Type='DecisionBranch'><Element Type='Delay'/></Element></Element>
  <Element Type='If'>
  <Element Type='DecisionBranch'><Element Type='Receive'/></Element>
  <Element Type='DecisionBranch'><Element Type='Scope'/></Element></Element>
  </Element></Element></Element></MetaModel>#endif"

/-- The type of an element, and the tags of the shapes in each of its branches. -/
def branchTags (e : Element) : String × List (List String) :=
  (e.type, (e.select decisionTypes).map fun b => (sketches b.children).map Sketch.tag)

set_option maxRecDepth 100000 in
theorem branches_root : ∃ root, Model.readRoot branches.toList "orders.odx" = .ok root ∧
    (Document.ofXml root).bodies.head?.map (fun body => (body.children.map branchTags,
      Outline.countAll (Outline.ofElements (body.children.take 1)))) =
    some ([("Decide", [["Send"], ["Send"], ["Delay"]]), ("If", [["Receive"], ["Scope"]])], 3) := by
  refine Model.exists_ok ?_
  rw [branches, String.toList_ofList]
  decide +kernel

set_option maxRecDepth 100000 in
theorem branches_parsed : ∃ m, Model.ofText branches "orders.odx" = .ok m ∧
    m.tree.list.map Node.tag = ["Decide", "Send", "Send", "Decide", "Receive", "Scope"] := by
  refine Model.exists_ok ?_
  rw [branches, Model.ofText_ofList]
  decide +kernel

theorem branches_elements : ∃ root body e e',
    Model.readRoot branches.toList "orders.odx" = .ok root ∧
      (Document.ofXml root).bodies.head? = some body ∧ body.children = [e, e'] ∧
      branchTags e = ("Decide", [["Send"], ["Send"], ["Delay"]]) ∧
      branchTags e' = ("If", [["Receive"], ["Scope"]]) ∧
      Outline.countAll (Outline.ofElements [e]) = 3 := by
  obtain ⟨root, hroot, hview⟩ := branches_root
  obtain ⟨body, hbody, hview⟩ := Option.map_eq_some_iff.mp hview
  obtain ⟨htags, hcount⟩ := Prod.mk.inj hview
  obtain ⟨e, rest, hchildren, he, hrest⟩ := List.map_eq_cons_iff.mp htags
  obtain ⟨e', rest', rfl, he', hrest'⟩ := List.map_eq_cons_iff.mp hrest
  obtain rfl := List.map_eq_nil_iff.mp hrest'
  rw [hchildren] at hcount
  exact ⟨root, body, e, e', hroot, hbody, hchildren, he, he', hcount⟩

theorem exists_of_branchTags {e : Element} {type tag : String} {tags : List (List String)}
    (he : branchTags e = (type, tags)) (htag : [tag] ∈ tags) : ∃ b ∈ e.select decisionTypes,
      ∃ c ∈ b.children, ∃ s, Sketch.ofElement? c = some s ∧ s.tag = tag := by
  have htags := congrArg Prod.snd he
  dsimp only [branchTags] at htags
  rw [← htags] at htag
  obtain ⟨b, hb, hone⟩ := List.mem_map.mp htag
  obtain ⟨s, hs, hst⟩ := List.mem_map.mp (hone ▸ List.mem_singleton_self tag)
  obtain ⟨c, hc, hcs⟩ := List.mem_filterMap.mp hs
  exact ⟨b, hb, c, hc, s, hcs, hst⟩

/-- The second decision keeps the scope in its second branch. -/
theorem decide_conserves_branches : ∃ root body m e,
    Model.readRoot branches.toList "orders.odx" = .ok root ∧
      Model.ofText branches "orders.odx" = .ok m ∧
      (Document.ofXml root).bodies.head? = some body ∧ Outline.Reached body.children 3 e ∧
      Text.lower e.type ∈ ["decision", "decide", "if", "ifelse"] ∧
      (e.select decisionTypes).length = 2 ∧
      ∃ n condition whenTrue whenFalse,
        m.tree.node? (Model.declaredCount (Document.ofXml root) + 3) = some n ∧
        n.payload = .decide condition whenTrue whenFalse ∧
        ∃ x ∈ whenTrue ++ whenFalse, (m.tree.node? x).map Node.tag = some "Scope" ∧
          ∀ settings fileName size, ("Scope", m.tree.list.countP fun y => y.tag == "Scope") ∈
            (ofModel settings m fileName size).counts := by
  obtain ⟨root, body, e, e', hroot, hbody, hchildren, -, he', hcount⟩ := branches_elements
  obtain ⟨m, hm, htags⟩ := branches_parsed
  obtain ⟨htype, hbranches⟩ := Prod.mk.inj he'
  have htype' : Text.lower e'.type ∈ ["decision", "decide", "if", "ifelse"] := by
    rw [htype]
    decide
  have hreached : Outline.Reached body.children 3 e' := by
    rw [hchildren, ← hcount]
    refine Outline.reached_of_append [e] [] ?_
    rw [Outline.isSome_ofElement?, Shape.Form.ofType_decide htype']
    rfl
  have hlength : (e'.select decisionTypes).length = 2 := by
    simpa using congrArg List.length hbranches
  have hscope : ["Scope"] ∈ [["Receive"], ["Scope"]] := by decide
  obtain ⟨b, hb, c, hc, s, hs, htag⟩ := exists_of_branchTags he' hscope
  obtain ⟨n, condition, whenTrue, whenFalse, hn, hp, -, -, hkept⟩ :=
    decide_conserves hroot hm hbody hreached htype'
  obtain ⟨x, hx, n', hn', hdepicts, -, hcounted⟩ :=
    hkept (Nat.le_of_eq hlength) b hb c hc s hs
  rw [htag] at hcounted
  refine ⟨root, body, m, e', hroot, hm, hbody, hreached, htype', hlength, n, condition, whenTrue,
    whenFalse, hn, hp, x, hx, ?_, hcounted⟩
  rw [hn', Option.map_some, hdepicts.tag, htag]

/-- The first decision loses the delay in its third branch. -/
theorem decide_thirdBranch : ∃ root body m e,
    Model.readRoot branches.toList "orders.odx" = .ok root ∧
      Model.ofText branches "orders.odx" = .ok m ∧
      (Document.ofXml root).bodies.head? = some body ∧ Outline.Reached body.children 0 e ∧
      Text.lower e.type ∈ ["decision", "decide", "if", "ifelse"] ∧
      (∃ b ∈ e.select decisionTypes, ∃ c ∈ b.children, ∃ s, Sketch.ofElement? c = some s ∧
        s.tag = "Delay") ∧
      (∀ n ∈ m.tree.list, n.tag ≠ "Delay") ∧
      ∀ settings fileName size k, ("Delay", k) ∉ (ofModel settings m fileName size).counts := by
  obtain ⟨root, body, e, e', hroot, hbody, hchildren, he, -⟩ := branches_elements
  obtain ⟨m, hm, htags⟩ := branches_parsed
  have htype : Text.lower e.type ∈ ["decision", "decide", "if", "ifelse"] := by
    rw [(Prod.mk.inj he).1]
    decide
  have hreached : Outline.Reached body.children 0 e := by
    rw [hchildren]
    refine Outline.reached_of_append [] [e'] ?_
    rw [Outline.isSome_ofElement?, Shape.Form.ofType_decide htype]
    rfl
  have hnone : ∀ n ∈ m.tree.list, n.tag ≠ "Delay" := by
    have hall : ∀ tag ∈ m.tree.list.map Node.tag, tag ≠ "Delay" := by
      rw [htags]
      decide
    exact fun n hn => hall _ (List.mem_map_of_mem hn)
  refine ⟨root, body, m, e, hroot, hm, hbody, hreached, htype, exists_of_branchTags he (by decide),
    hnone, fun settings fileName size k hk => ?_⟩
  obtain ⟨rfl, hpos⟩ := (mem_counts_iff hm settings fileName size _ _).mp hk
  refine hpos (List.countP_eq_zero.mpr fun n hn htag => hnone n hn ?_)
  exact beq_iff_eq.mp htag

end Analysis

end Orchestration
