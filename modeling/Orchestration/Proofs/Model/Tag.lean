import Orchestration.Proofs.Model.Correlation
import Orchestration.Proofs.Model.Traversal
import Orchestration.Proofs.Shape.Tag
import Orchestration.Proofs.Tally

/-!
# Orchestration.Proofs.Model.Tag

Kinds and tags of the shapes of a model.

* `Model.Assembled.list_map` — what the nodes show of the declarations and of the body's elements;
  `headings` — their kinds and tags.
* `Model.tagged` — every shape that the walk meets has a tag of its kind.
* `Model.tagTally` — the tags of the walk, counted.
-/

namespace Orchestration.Model

open Designer (Document)
open Shape (Node Outline Sketch standAlone)

/-- What sketches decide is told by the declarations and by everything in the body. -/
theorem layout_map {α : Type} {f : Node → α} {g : Sketch → α} (hfg : Shape.Sketched f g)
    (d : Document) : (layout d).map (fun x => f x.2) =
      (declaredSketches d variableType ++ declaredSketches d correlationType).map g ++
        (Outline.flatAll (bodyOutlines d)).map fun o => g o.sketch := by
  have hdeclared : ∀ start ss,
      (standAlone start serviceContext serviceSequence ss).map (fun x => f x.2) = ss.map g := by
    intro start ss
    have hnodes := congrArg (List.map f)
      (Shape.standAlone_nodes start serviceContext serviceSequence ss)
    rw [List.map_map, List.map_map] at hnodes
    exact hnodes.trans (List.map_congr_left fun s _ => hfg s _ _ none [] [])
  rw [layout, List.map_append, List.map_append, hdeclared, hdeclared, Outline.laidAll_map hfg,
    List.map_append]

theorem declaredSketches_tagged (d : Document) (type : String) :
    ∀ s ∈ declaredSketches d type, s.kind.Tagged s.tag := by
  intro s hs
  obtain ⟨e, -, he⟩ := List.mem_filterMap.mp hs
  exact Sketch.tagged he

theorem bodyOutlines_tagged (d : Document) :
    ∀ o ∈ Outline.flatAll (bodyOutlines d), o.sketch.kind.Tagged o.sketch.tag := by
  unfold bodyOutlines
  cases d.bodies.head? with
  | none => exact fun o ho => nomatch ho
  | some body => exact Outline.flatAll_tagged body.children

namespace Assembled

variable {d : Document} {m : Model}

/-- What a sketch decides, and binding the correlation sets leaves alone, is told by the document. -/
theorem list_map {α : Type} {f : Node → α} {g : Sketch → α} (hfg : Shape.Sketched f g)
    (hbind : ∀ uses n, f (Node.bindAll uses n) = f n) (ha : Assembled d m) :
    m.tree.list.map f =
      (declaredSketches d variableType ++ declaredSketches d correlationType).map g ++
        (Outline.flatAll (bodyOutlines d)).map fun o => g o.sketch := by
  have hgrown : m.tree.list.map f = (grownBody d).tree.list.map f := by
    refine List.ext_getElem? fun i => ?_
    have hnode := ha.node?_eq i
    rw [Shape.Tree.node?_eq_getElem?, Shape.Tree.node?_eq_getElem?] at hnode
    rw [List.getElem?_map, List.getElem?_map, hnode, Option.map_map]
    exact congrArg (Option.map · _) (funext fun n => hbind _ n)
  rw [hgrown, grownBody_list, List.map_map, ← layout_map hfg]
  rfl

theorem headings (ha : Assembled d m) : m.tree.list.map Node.heading =
    (declaredSketches d variableType ++ declaredSketches d correlationType).map Sketch.heading ++
      (Outline.flatAll (bodyOutlines d)).map fun o => o.sketch.heading :=
  ha.list_map (fun _ _ _ _ _ _ => rfl) fun _ _ => rfl

theorem tagged (ha : Assembled d m) : ∀ n ∈ m.tree.list, n.kind.Tagged n.tag := by
  intro n hn
  have hheading : n.heading ∈ m.tree.list.map Node.heading := List.mem_map_of_mem hn
  rw [ha.headings] at hheading
  rcases List.mem_append.mp hheading with hm | hm
  · obtain ⟨s, hs, he⟩ := List.mem_map.mp hm
    have htagged : s.kind.Tagged s.tag := by
      rcases List.mem_append.mp hs with hs | hs
      · exact declaredSketches_tagged d variableType s hs
      · exact declaredSketches_tagged d correlationType s hs
    obtain ⟨hkind, htag⟩ := Prod.mk.inj he
    rwa [hkind, htag] at htagged
  · obtain ⟨o, ho, he⟩ := List.mem_map.mp hm
    have htagged := bodyOutlines_tagged d o ho
    obtain ⟨hkind, htag⟩ := Prod.mk.inj he
    rwa [hkind, htag] at htagged

end Assembled

/-! ## The walk -/

section

variable {text source : String} {m : Model}

theorem allShapes_perm_list (h : ofText text source = .ok m) : m.allShapes.Perm m.tree.list := by
  obtain ⟨d, hd⟩ := assembled_of_ofText h
  exact allShapes_perm hd.linked

theorem mem_allShapes (h : ofText text source = .ok m) {n : Node} :
    n ∈ m.allShapes ↔ n ∈ m.tree.list :=
  (allShapes_perm_list h).mem_iff

theorem tagged (h : ofText text source = .ok m) {n : Node} (hn : n ∈ m.allShapes) :
    n.kind.Tagged n.tag := by
  obtain ⟨d, hd⟩ := assembled_of_ofText h
  exact hd.tagged n ((mem_allShapes h).mp hn)

def tagTally (m : Model) : Tally := Tally.ofNames (m.allShapes.map Node.tag)

theorem names_tagTally (m : Model) : m.tagTally.names = (m.allShapes.map Node.tag).eraseDups :=
  Tally.names_ofNames _

end

/-! ## Types in any letter case -/

/-- Types that some form knows, in letter cases of their own, and types that none knows. -/
def oddTypes : String :=
  "<?xml version='1.0'?>
  <MetaModel xmlns='http://schemas.microsoft.com/BizTalk/2003/DesignerData'>
  <Element Type='Module'><Element Type='ServiceDeclaration'>
  <Property Name='Name' Value='Orders'/>
  <Element Type='ServiceBody'>
  <Element Type='FOREACH'><Element Type='send'/></Element>
  <Element Type='IfElse'><Element Type='DecisionBranch'><Element Type='SEND'/></Element></Element>
  <Element Type='callPolicy'/><Element Type='DynamicPort'/><Element Type='Unknown'/>
  <Element Type='DynamicPort'/></Element></Element></Element></MetaModel>#endif"

set_option maxRecDepth 100000 in
theorem oddTypes_parsed : ∃ m, ofText oddTypes "odd.odx" = .ok m ∧
    (m.tree.list.map Node.heading, m.allShapes.map Node.tag) =
      ([(.loop, "FOREACH"), (.send, "Send"), (.decide, "Decide"), (.send, "Send"),
        (.callRules, "CallRules"), (.fallback, "DynamicPort"), (.fallback, "Unknown"),
        (.fallback, "DynamicPort")],
        ["FOREACH", "Send", "Decide", "Send", "CallRules", "DynamicPort", "Unknown",
          "DynamicPort"]) := by
  refine exists_ok ?_
  rw [oddTypes, ofText_ofList]
  decide +kernel

end Orchestration.Model
