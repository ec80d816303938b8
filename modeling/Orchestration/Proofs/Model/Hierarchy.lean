import Orchestration.Proofs.Diagnostics.Order
import Orchestration.Proofs.Model.Reading

/-!
# Orchestration.Proofs.Model.Hierarchy

The order in which the hierarchy of a model shows the body.

* `Model.Assembled.allOrderly_iff` — the lists of the body ascend exactly when no switch that is
  read has mixed containers.
* `Model.hierarchy_ordered` — then, and only then, the hierarchy is in the order of the walk.
* `Model.hierarchy_firstMany` — two containers of one value, the first of them with two shapes.
-/

namespace Orchestration.Model

open Designer (Document Element)
open Diagnostics (AllOrderly headers inSequence render walkLines)
open Shape (Handle Node Outline Tree Unmixed)

namespace Assembled

variable {d : Document} {m : Model}

theorem shapes_ascending (ha : Assembled d m) : m.tree.Ascending m.shapes := by
  rw [ha.shapes, grownBody_handles]
  exact Tree.ascending_of_keeps ha.body_keeps

/-- The node of each outline of the body, and when it is orderly. -/
theorem orderly_iff {body : Element} (ha : Assembled d m) (hbody : d.bodies.head? = some body)
    {i : Nat} {o : Outline}
    (ho : (Outline.flatAll (Outline.ofElements body.children))[i]? = some o) :
    ∃ n, m.tree.node? (declaredCount d + i) = some n ∧
      (∀ e, Outline.ofElement? e = some o →
        (m.tree.Orderly n ↔ (Text.lower e.type = "switch" → Unmixed e))) ∧
      ((∀ e, Outline.ofElement? e ≠ some o) → m.tree.Orderly n) := by
  have hread := (declaredTree d).read_orderly ⟨"body", 0⟩ body.children
    (m.declaredCorrelations ++ m.shapes) (Tree.lt_of_no_parent _) ho
  rwa [← ha.tree_eq_read hbody, declaredTree_size] at hread

theorem allOrderly_iff (ha : Assembled d m) : AllOrderly m.tree m.shapes ↔
    ∀ body, d.bodies.head? = some body → ∀ i e, Outline.Reached body.children i e →
      Text.lower e.type = "switch" → Unmixed e := by
  constructor
  · rintro hall body hbody i e ⟨o, he, ho⟩ htype
    obtain ⟨n, hn, horderly, -⟩ := ha.orderly_iff hbody ho
    have hwalk : declaredCount d + i ∈ m.tree.walk m.shapes :=
      (ha.mem_walk_shapes_iff _).mpr ⟨Nat.le_add_right .., Tree.lt_size_of_node? hn⟩
    exact (horderly e he).mp (hall n (List.mem_filterMap.mpr ⟨_, hwalk, hn⟩)) htype
  · intro hunmixed n hn
    obtain ⟨x, hx, hn⟩ := List.mem_filterMap.mp hn
    obtain ⟨hlater, hsize⟩ := (ha.mem_walk_shapes_iff x).mp hx
    obtain ⟨i, rfl⟩ := Nat.exists_eq_add_of_le hlater
    rw [ha.size_eq] at hsize
    have hi : i < (Outline.flatAll (bodyOutlines d)).length := Nat.lt_of_add_lt_add_left hsize
    have ho := List.getElem?_eq_getElem hi
    cases hbody : d.bodies.head? with
    | none => simp [bodyOutlines, hbody, Outline.flatAll] at hi
    | some body =>
      have hshapes : bodyOutlines d = Outline.ofElements body.children := by
        rw [bodyOutlines, hbody]
        rfl
      generalize (Outline.flatAll (bodyOutlines d))[i] = o at ho
      rw [hshapes] at ho
      obtain ⟨n', hn', horderly, hother⟩ := ha.orderly_iff hbody ho
      obtain rfl := Option.some.inj (hn.symm.trans hn')
      by_cases hread : ∃ e, Outline.ofElement? e = some o
      · obtain ⟨e, he⟩ := hread
        exact (horderly e he).mpr (hunmixed body hbody i e ⟨o, he, ho⟩)
      · exact hother (not_exists.mp hread)

/-- An orderly node has its lists shown as they are. -/
theorem inSequence_lists (ha : Assembled d m) {h : Handle} {n : Node}
    (hn : m.tree.node? h = some n) (horderly : m.tree.Orderly n) :
    inSequence m.tree n.children = n.children ∧
      ∀ slot ∈ n.payload.slots, inSequence m.tree slot.2 = slot.2 := by
  have hsize : ∀ c ∈ n.inside, c < m.tree.size := by
    rw [← Tree.inside_of_node? hn]
    exact fun c hc => ha.linked.inside_lt_size hc
  refine ⟨Diagnostics.inSequence_of_ascending ?_ horderly.children, fun slot hslot =>
    Diagnostics.inSequence_of_ascending ?_ (horderly.slots slot hslot)⟩
  · exact fun c hc => hsize c (List.mem_append_left _ hc)
  · exact fun c hc => hsize c (List.mem_append_right _ (List.mem_flatMap.mpr ⟨slot, hslot, hc⟩))

theorem shapes_lt_size (ha : Assembled d m) : ∀ h ∈ m.shapes, h < m.tree.size := fun _ hh =>
  ha.linked.root_lt_size (List.mem_append_right _ hh)

end Assembled

/-- The hierarchy shows every shape of the body once. It is in the order of the walk exactly when no
switch that is read has mixed containers; lists that do not belong to such a switch are always shown
as they are. -/
theorem hierarchy_ordered {text source : String} {root : Xml.Node} {m : Model}
    (hroot : readRoot text.toList source = .ok root) (h : ofText text source = .ok m) :
    (headers (render m)).Perm (walkLines m.tree m.shapes) ∧
      (headers (render m) = walkLines m.tree m.shapes ↔
        ∀ body, (Document.ofXml root).bodies.head? = some body → ∀ i e,
          Outline.Reached body.children i e → Text.lower e.type = "switch" → Unmixed e) ∧
      inSequence m.tree m.shapes = m.shapes ∧
      ∀ body, (Document.ofXml root).bodies.head? = some body → ∀ i e,
        Outline.Reached body.children i e → (Text.lower e.type = "switch" → Unmixed e) →
        ∃ n, m.tree.node? (declaredCount (Document.ofXml root) + i) = some n ∧
          inSequence m.tree n.children = n.children ∧
          ∀ slot ∈ n.payload.slots, inSequence m.tree slot.2 = slot.2 := by
  have ha := assembled_of_readRoot hroot h
  refine ⟨Diagnostics.headers_render ha.linked ha.shapes_lt_size, ?_,
    Diagnostics.inSequence_of_ascending ha.shapes_lt_size ha.shapes_ascending, ?_⟩
  · rw [Diagnostics.headers_render_eq_iff ha.linked ha.shapes_lt_size,
      and_iff_right ha.shapes_ascending, ha.allOrderly_iff]
  · rintro body hbody i e ⟨o, he, ho⟩ hunmixed
    obtain ⟨n, hn, horderly, -⟩ := ha.orderly_iff hbody ho
    exact ⟨n, hn, ha.inSequence_lists hn ((horderly e he).mpr hunmixed)⟩

/-- A switch with two containers of one value, around one shape and around two. -/
def lastMany : String :=
  "<?xml version='1.0'?>
  <MetaModel xmlns='http://schemas.microsoft.com/BizTalk/2003/DesignerData'>
  <Element Type='Module'><Element Type='ServiceDeclaration'>
  <Property Name='Name' Value='Orders'/>
  <Element Type='ServiceBody'><Element Type='Switch'>
  <Element Type='DecisionBranch'><Property Name='Expression' Value='1'/>
  <Element Type='Receive'/></Element>
  <Element Type='DecisionBranch'><Property Name='Expression' Value='1'/>
  <Element Type='Delay'/><Element Type='Send'/></Element>
  </Element></Element></Element></Element></MetaModel>#endif"

/-- The shapes that a walk of the body meets. -/
def walkedShapes (m : Model) : List (String × Int) :=
  (m.tree.resolve (m.tree.walk m.shapes)).map fun n => (n.tag, n.sequence)

set_option maxRecDepth 100000 in
theorem lastMany_root : ∃ root, readRoot lastMany.toList "orders.odx" = .ok root ∧
    (Document.ofXml root).bodies.head?.map (fun body => body.children.map Element.type) =
      some ["Switch"] := by
  refine exists_ok ?_
  rw [lastMany, String.toList_ofList]
  decide +kernel

set_option maxRecDepth 100000 in
theorem lastMany_parsed : ∃ m, ofText lastMany "orders.odx" = .ok m ∧
    (walkedShapes m, decide (m.tree.Ascending m.shapes ∧ AllOrderly m.tree m.shapes)) =
      ([("Switch", 0), ("Receive", 0), ("Delay", 0), ("Send", 1)], true) := by
  refine exists_ok ?_
  rw [lastMany, ofText_ofList]
  decide +kernel

theorem hierarchy_ordered_lastMany : ∃ root m body e,
    readRoot lastMany.toList "orders.odx" = .ok root ∧ ofText lastMany "orders.odx" = .ok m ∧
      (Document.ofXml root).bodies.head? = some body ∧ Outline.Reached body.children 0 e ∧
      Text.lower e.type = "switch" ∧ Unmixed e ∧
      headers (render m) = walkLines m.tree m.shapes := by
  obtain ⟨root, hroot, hview⟩ := lastMany_root
  obtain ⟨body, hbody, htypes⟩ := Option.map_eq_some_iff.mp hview
  obtain ⟨e, rest, hchildren, htype, hrest⟩ := List.map_eq_cons_iff.mp htypes
  obtain rfl := List.map_eq_nil_iff.mp hrest
  obtain ⟨m, hm, hview⟩ := lastMany_parsed
  have hordered := of_decide_eq_true (congrArg Prod.snd hview)
  have hswitch : Text.lower e.type = "switch" := by
    rw [htype]
    decide
  have hreached : Outline.Reached body.children 0 e := by
    rw [hchildren]
    refine Outline.reached_of_append [] [] ?_
    rw [Outline.isSome_ofElement?, htype]
    decide
  have ha := assembled_of_readRoot hroot hm
  have hshown : headers (render m) = walkLines m.tree m.shapes :=
    (Diagnostics.headers_render_eq_iff ha.linked ha.shapes_lt_size).mpr hordered
  obtain ⟨-, hiff, -⟩ := hierarchy_ordered hroot hm
  exact ⟨root, m, body, e, hroot, hm, hbody, hreached, hswitch,
    hiff.mp hshown body hbody 0 e hreached hswitch, hshown⟩

/-- The same containers the other way round. -/
def firstMany : String :=
  withBody "<Element Type='Switch'>
  <Element Type='DecisionBranch'><Property Name='Expression' Value='1'/>
  <Element Type='Delay'/><Element Type='Send'/></Element>
  <Element Type='DecisionBranch'><Property Name='Expression' Value='1'/>
  <Element Type='Receive'/></Element>
  </Element>"

set_option maxRecDepth 100000 in
theorem firstMany_parsed : ∃ m, ofText firstMany "orders.odx" = .ok m ∧
    (walkedShapes m, decide (AllOrderly m.tree m.shapes)) =
      ([("Switch", 0), ("Delay", 0), ("Send", 1), ("Receive", 0)], false) :=
  exists_of_append (by decide +kernel)

/-- The numbers in the case do not ascend, and the hierarchy is not in the order of the walk. -/
theorem hierarchy_firstMany : ∃ m, ofText firstMany "orders.odx" = .ok m ∧
    walkedShapes m = [("Switch", 0), ("Delay", 0), ("Send", 1), ("Receive", 0)] ∧
    headers (render m) ≠ walkLines m.tree m.shapes := by
  obtain ⟨m, hm, hview⟩ := firstMany_parsed
  obtain ⟨hwalk, hmixed⟩ := Prod.mk.inj hview
  obtain ⟨d, ha⟩ := assembled_of_ofText hm
  refine ⟨m, hm, hwalk, fun hshown => of_decide_eq_false hmixed ?_⟩
  exact ((Diagnostics.headers_render_eq_iff ha.linked ha.shapes_lt_size).mp hshown).2

end Orchestration.Model
