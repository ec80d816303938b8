import Orchestration.Model.Assembly
import Orchestration.Proofs.Shape.Correlation

/-!
# Orchestration.Proofs.Model.Assembly

What the tree of an assembled model consists of.

* `Model.layout` — the nodes of a document's shapes with their handles: the declared variables, the
  declared correlation sets, the body.
* `Model.ofDocument` — the model of a document, section by section; `assemble_result` says that
  assembling gives it.
* `Model.Assembled` — a model whose tree is that layout after the correlation sets are bound.
* `Model.assembled_of_ofText` — the model of a text is assembled from some document.
* `Model.Assembled.linked` — its tree is linked, with the model's roots.
-/

namespace Orchestration.Shape

/-- The nodes of sketches without regions and children, the first of which has handle `start`. -/
def standAlone (start : Handle) (path : String) (sequence : Int) :
    List Sketch → List (Handle × Node)
  | [] => []
  | s :: rest =>
    (start, s.node path sequence none) :: standAlone (start + 1) path sequence rest

theorem standAlone_handles (start : Handle) (path : String) (sequence : Int) (ss : List Sketch) :
    (standAlone start path sequence ss).map Prod.fst = List.range' start ss.length := by
  induction ss generalizing start with
  | nil => rfl
  | cons s rest ih => rw [standAlone, List.map_cons, ih, List.length_cons, List.range'_succ]

theorem standAlone_nodes (start : Handle) (path : String) (sequence : Int) (ss : List Sketch) :
    (standAlone start path sequence ss).map Prod.snd =
      ss.map fun s => s.node path sequence none := by
  induction ss generalizing start with
  | nil => rfl
  | cons s rest ih => rw [standAlone, List.map_cons, ih, List.map_cons]

theorem standAlone_stand (start : Handle) (path : String) (sequence : Int) {ss : List Sketch}
    (hs : ∀ s ∈ ss, s.Fresh) :
    Stand (List.range' start ss.length) none (standAlone start path sequence ss) := by
  induction ss generalizing start with
  | nil => exact Stand.nil
  | cons s rest ih =>
    have hfirst : s.Fresh := hs s (by simp)
    have hrest : ∀ s ∈ rest, s.Fresh := fun s h => hs s (by simp [h])
    have hleaf := Stand.leaf (h := start) (hfirst.node_inside path sequence none)
      (hfirst.node_fresh path sequence none)
    exact hleaf.append (ih (start + 1) hrest)

end Orchestration.Shape

namespace Orchestration.Model

open Designer (Document Element)
open Shape (Handle Node Outline Sketch Tree standAlone)

/-- The sketches of the named declarations of one type. -/
def declaredSketches (d : Document) (type : String) : List Sketch :=
  (Designer.named (d.declared type)).filterMap Sketch.ofElement?

/-- The outlines of the first body, if there is one. -/
def bodyOutlines (d : Document) : List Outline :=
  (d.bodies.head?.map fun body => Outline.ofElements body.children).getD []

/-- Adds one declaration. -/
def addDeclared (x : List Handle × Tree) (e : Element) : List Handle × Tree :=
  match Sketch.ofElement? e with
  | none => (x.1, x.2)
  | some s => (x.1 ++ [x.2.size], x.2.sprout s serviceContext serviceSequence none)

theorem foldl_addDeclared (es : List Element) (x : List Handle × Tree) :
    (es.foldl addDeclared x).1 =
        x.1 ++ List.range' x.2.size (es.filterMap Sketch.ofElement?).length ∧
      (es.foldl addDeclared x).2.list =
        x.2.list ++ (es.filterMap Sketch.ofElement?).map
          fun s => s.node serviceContext serviceSequence none := by
  induction es generalizing x with
  | nil => simp
  | cons e rest ih =>
    obtain ⟨hh, hl⟩ := ih (addDeclared x e)
    rw [List.foldl_cons, hh, hl, List.filterMap_cons]
    cases h : Sketch.ofElement? e with
    | none => simp [addDeclared, h]
    | some s =>
      have hsize := Tree.size_eq_of_list
        (x.2.list_sprout s serviceContext serviceSequence none)
      simp only [addDeclared, h, hsize, Tree.list_sprout, List.length_cons, List.range'_succ]
      simp

theorem declare_eq (d : Document) (type : String) (t : Tree) :
    (declare d type t).1 = List.range' t.size (declaredSketches d type).length ∧
      (declare d type t).2.list =
        t.list ++ (declaredSketches d type).map
          fun s => s.node serviceContext serviceSequence none := by
  have h := foldl_addDeclared (Designer.named (d.declared type)) ([], t)
  rw [List.nil_append] at h
  exact h

/-! ## The nodes of a document -/

/-- How many shapes are declared beside the body. -/
def declaredCount (d : Document) : Nat :=
  (declaredSketches d variableType).length + (declaredSketches d correlationType).length

/-- The nodes of a document's shapes with their handles. -/
def layout (d : Document) : List (Handle × Node) :=
  let vs := declaredSketches d variableType
  let cs := declaredSketches d correlationType
  standAlone 0 serviceContext serviceSequence vs ++
    standAlone vs.length serviceContext serviceSequence cs ++
    Outline.laidAll (declaredCount d) "body" 0 none (bodyOutlines d)

/-- The tree of the declarations. -/
def declaredTree (d : Document) : Tree :=
  (declare d correlationType (declare d variableType .empty).2).2

/-- The shapes of a document before the correlation sets are bound. -/
def grownBody (d : Document) : Shape.Grown :=
  (declaredTree d).grow ⟨"body", 0⟩ none (bodyOutlines d)

theorem declaredTree_list (d : Document) :
    (declaredTree d).list =
      ((declaredSketches d variableType) ++ (declaredSketches d correlationType)).map
        fun s => s.node serviceContext serviceSequence none := by
  rw [declaredTree, (declare_eq d correlationType _).2, (declare_eq d variableType _).2,
    List.map_append]
  rfl

theorem declaredTree_size (d : Document) : (declaredTree d).size = declaredCount d := by
  rw [← Tree.length_list, declaredTree_list]
  simp [declaredCount]

theorem grownBody_list (d : Document) :
    (grownBody d).tree.list = (layout d).map Prod.snd := by
  have hl := (Tree.placeAll_eq (declaredTree d) "body" 0 none (bodyOutlines d)).2.2
  rw [declaredTree_size, declaredTree_list] at hl
  rw [layout, List.map_append, List.map_append, Shape.standAlone_nodes, Shape.standAlone_nodes,
    ← List.map_append]
  exact hl

theorem layout_handles (d : Document) :
    (layout d).map Prod.fst = List.range (grownBody d).tree.size := by
  have hlen : (grownBody d).tree.size = (layout d).length := by
    rw [← Tree.length_list, grownBody_list, List.length_map]
  have hh : (layout d).map Prod.fst =
      List.range (declaredCount d + Outline.countAll (bodyOutlines d)) := by
    rw [layout, List.map_append, List.map_append, Shape.standAlone_handles,
      Shape.standAlone_handles, Outline.laidAll_handles, List.range_eq_range',
      ← List.range'_append_1, declaredCount, ← List.range'_append_1]
    simp
  rw [hlen, hh, ← List.length_map, hh, List.length_range]

/-- The variables, the correlation sets and the shapes of the body. -/
def layoutRoots (d : Document) : List Handle :=
  (declare d variableType .empty).1 ++
    (declare d correlationType (declare d variableType .empty).2).1 ++ (grownBody d).handles

theorem declare_variables_handles (d : Document) :
    (declare d variableType .empty).1 =
      List.range' 0 (declaredSketches d variableType).length :=
  (declare_eq d variableType .empty).1

theorem declare_correlations_handles (d : Document) :
    (declare d correlationType (declare d variableType .empty).2).1 =
      List.range' (declaredSketches d variableType).length
        (declaredSketches d correlationType).length := by
  have hsize : (declare d variableType .empty).2.size =
      (declaredSketches d variableType).length := by
    rw [← Tree.length_list, (declare_eq d variableType .empty).2]
    simp [Tree.list, Tree.empty]
  rw [(declare_eq d correlationType _).1, hsize]

theorem grownBody_handles (d : Document) :
    (grownBody d).handles = Outline.handles (declaredCount d) (bodyOutlines d) := by
  have hh := (Tree.placeAll_eq (declaredTree d) "body" 0 none (bodyOutlines d)).1
  rw [declaredTree_size] at hh
  exact hh

theorem declaredSketches_fresh (d : Document) (type : String) :
    ∀ s ∈ declaredSketches d type, s.Fresh := by
  intro s hs
  obtain ⟨e, -, he⟩ := List.mem_filterMap.mp hs
  exact Shape.Form.fresh_of_sketch? (Shape.Form.regular_ofType e.type) he

theorem bodyOutlines_proper (d : Document) : Outline.ProperAll (bodyOutlines d) := by
  unfold bodyOutlines
  cases d.bodies.head? with
  | none => trivial
  | some body => exact Outline.ofElements_proper body.children

theorem layout_stand (d : Document) : Shape.Stand (layoutRoots d) none (layout d) := by
  rw [layoutRoots, declare_variables_handles, declare_correlations_handles, grownBody_handles]
  have hv := Shape.standAlone_stand 0 serviceContext serviceSequence
    (declaredSketches_fresh d variableType)
  have hc := Shape.standAlone_stand (declaredSketches d variableType).length serviceContext
    serviceSequence (declaredSketches_fresh d correlationType)
  have hb := Outline.laidAll_stand (declaredCount d) "body" 0 none _ (bodyOutlines_proper d)
  exact (hv.append hc).append hb

theorem grownBody_linked (d : Document) : (grownBody d).tree.Linked (layoutRoots d) :=
  Tree.linked_of_stand (grownBody_list d) (layout_handles d) (layout_stand d)

theorem grownBody_fresh {d : Document} {h : Handle} {n : Node}
    (hn : (grownBody d).tree.node? h = some n) : n.Fresh :=
  Tree.fresh_of_stand (grownBody_list d) (layout_handles d) (layout_stand d) hn

/-! ## Assembled models -/

/-- A model whose tree holds the shapes of a document, with all correlation sets bound. -/
structure Assembled (d : Document) (m : Model) : Prop where
  declaredVariables : m.declaredVariables = (declare d variableType .empty).1
  declaredCorrelations :
    m.declaredCorrelations = (declare d correlationType (declare d variableType .empty).2).1
  shapes : m.shapes = (grownBody d).handles
  tree : m.tree = ((grownBody d).tree.correlate (m.declaredCorrelations ++ m.shapes)).tree

theorem grownBody_of_no_body {d : Document} (hb : d.bodies.head? = none) :
    grownBody d = ⟨[], 0, declaredTree d⟩ := by
  rw [grownBody, bodyOutlines, hb]
  rfl

theorem type_of_mem_declared {d : Document} {type : String} {e : Element}
    (he : e ∈ d.declared type) : e.type = type := by
  obtain ⟨service, -, he⟩ := List.mem_flatMap.mp he
  exact Element.type_of_mem_select he

theorem kind_of_mem_declaredSketches {d : Document} {type : String} {s : Sketch}
    (hs : s ∈ declaredSketches d type) : (Shape.Form.ofType type).kind? = some s.kind := by
  obtain ⟨e, hm, he⟩ := List.mem_filterMap.mp hs
  rw [← type_of_mem_declared (List.mem_filter.mp hm).1]
  exact Shape.Form.kind_of_sketch? he

theorem declaredTree_no_receive {d : Document} {h : Handle} {n : Node}
    (hn : (declaredTree d).node? h = some n) : n.kind ≠ .receive := by
  rw [Tree.node?_eq_getElem?, declaredTree_list] at hn
  obtain ⟨s, hs, rfl⟩ := List.mem_map.mp (List.mem_of_getElem? hn)
  rcases List.mem_append.mp hs with hs | hs
  · have hk : some Shape.Kind.variableDeclaration = some s.kind := kind_of_mem_declaredSketches hs
    simp [Sketch.node, ← Option.some.inj hk]
  · have hk : some Shape.Kind.correlationDeclaration = some s.kind :=
      kind_of_mem_declaredSketches hs
    simp [Sketch.node, ← Option.some.inj hk]

/-- The model of a document that has a name, section by section. -/
def ofDocument (d : Document) (source : String) : Model :=
  let correlations := (declare d correlationType (declare d variableType .empty).2).1
  { namespaceName := Designer.firstValue d.modules "Name"
    name := Designer.firstValue d.services "Name"
    source
    messages := d.messages
    portTypes := d.portTypes
    ports := d.ports
    declaredVariables := (declare d variableType .empty).1
    declaredCorrelations := correlations
    shapes := (grownBody d).handles
    tree := ((grownBody d).tree.correlate (correlations ++ (grownBody d).handles)).tree }

/-- Without refusals of its sections a document with a name becomes a model. -/
theorem assemble_result (d : Document) (source : String) :
    (assemble noRefusals d source).result =
      if Designer.firstValue d.services "Name" = "" then .error ⟨.unnamed, source⟩
      else .ok (ofDocument d source) := by
  by_cases hname : Designer.firstValue d.services "Name" = ""
  · simp only [assemble, hname, if_true]
    rfl
  · rw [if_neg hname]
    cases hb : d.bodies.head? with
    | none =>
      -- without a body nothing is bound, which is what binding does where no receive stands
      have hg := grownBody_of_no_body hb
      have ht := Tree.correlate_of_no_receive (t := declaredTree d)
        ((declare d correlationType (declare d variableType .empty).2).1 ++ [])
        fun h n hn => declaredTree_no_receive hn
      simp only [ofDocument, hg, ht]
      simp only [assemble, hname, if_false, buildBody, hb]
      rfl
    | some body =>
      have hg : grownBody d =
          (declaredTree d).grow ⟨"body", 0⟩ none (Outline.ofElements body.children) := by
        rw [grownBody, bodyOutlines, hb]
        rfl
      simp only [ofDocument, hg]
      simp only [assemble, hname, if_false, buildBody, hb]
      rfl

theorem assembled_ofDocument (d : Document) (source : String) :
    Assembled d (ofDocument d source) :=
  ⟨rfl, rfl, rfl, by simp only [ofDocument]⟩

theorem assembled_of_assemble {d : Document} {source : String} {m : Model}
    (h : (assemble noRefusals d source).result = .ok m) : Assembled d m := by
  rw [assemble_result] at h
  split at h
  · cases h
  · obtain rfl := Except.ok.inj h
    exact assembled_ofDocument d source

theorem assembled_of_readRoot {text source : String} {root : Xml.Node} {m : Model}
    (hroot : readRoot text.toList source = .ok root) (h : ofText text source = .ok m) :
    Assembled (Document.ofXml root) m := by
  rw [ofText, assembleText, hroot] at h
  exact assembled_of_assemble h

theorem assembled_of_ofText {text source : String} {m : Model}
    (h : Model.ofText text source = .ok m) : ∃ d, Assembled d m := by
  unfold ofText assembleText at h
  split at h
  · cases h
  · next root hroot => exact ⟨Document.ofXml root, assembled_of_assemble h⟩

namespace Assembled

variable {d : Document} {m : Model}

theorem roots_eq (ha : Assembled d m) : m.roots = layoutRoots d := by
  rw [roots, declared, layoutRoots, ha.declaredVariables, ha.declaredCorrelations, ha.shapes]

/-- The tree of an assembled model is linked; its roots are those of the model. -/
theorem linked (ha : Assembled d m) : m.tree.Linked m.roots := by
  rw [ha.tree, ha.roots_eq]
  exact (grownBody_linked d).correlate _

end Assembled

/-! ## A small orchestration -/

theorem ofText_ofList (cs : List Char) (source : String) :
    ofText (String.ofList cs) source = (assembleText noRefusals cs source).result := by
  simp [ofText]

theorem ofText_append (before body after : List Char) (source : String) :
    ofText (String.ofList before ++ String.ofList body ++ String.ofList after) source =
      (assembleText noRefusals (before ++ body ++ after) source).result := by
  simp [ofText]

/-- The text of an orchestration with these elements as its body. -/
def withBody (elements : String) : String :=
  "<?xml version='1.0'?>
  <MetaModel xmlns='http://schemas.microsoft.com/BizTalk/2003/DesignerData'>
  <Element Type='Module'><Element Type='ServiceDeclaration'>
  <Property Name='Name' Value='Orders'/>
  <Element Type='ServiceBody'>" ++ elements ++
  "</Element></Element></Element></MetaModel>#endif"

/-- A correlation set, the receive that initializes it, and a decision around a delay. -/
def sample : String :=
  "<?xml version='1.0'?>
  <MetaModel xmlns='http://schemas.microsoft.com/BizTalk/2003/DesignerData'>
  <Element Type='Module'><Element Type='ServiceDeclaration'>
  <Property Name='Name' Value='Orders'/>
  <Element Type='CorrelationDeclaration'><Property Name='Name' Value='Order'/>
  <Element Type='StatementRef'><Property Name='Ref' Value='r1'/>
  <Property Name='Initializes' Value='True'/></Element></Element>
  <Element Type='ServiceBody'>
  <Element Type='Receive' OID='r1'/>
  <Element Type='Decide'><Element Type='DecisionBranch'>
  <Element Type='Scope'><Element Type='Delay'/></Element></Element></Element>
  </Element></Element></Element></MetaModel>#endif"

theorem exists_ok {α β : Type} {r : Except Failure α} {f : α → β} {b : β}
    (h : r.toOption.map f = some b) : ∃ x, r = .ok x ∧ f x = b := by
  cases r with
  | error e => cases h
  | ok x => exact ⟨x, rfl, Option.some.inj h⟩

theorem exists_of_append {α : Type} {f : Model → α} {a : α} {before body after : List Char}
    {source : String}
    (h : (assembleText noRefusals (before ++ body ++ after) source).result.toOption.map f =
      some a) :
    ∃ m, ofText (String.ofList before ++ String.ofList body ++ String.ofList after) source = .ok m ∧
      f m = a := by
  rw [ofText_append]
  exact exists_ok h

set_option maxRecDepth 100000 in
theorem sample_parsed : ∃ m, ofText sample "orders.odx" = .ok m ∧
    (m.tree.size, (m.tree.node? 1).map fun n => (n.kind, n.payload)) =
      (5, some (.receive, .receive ⟨"", "", "", ""⟩ false ["Order"] [])) := by
  refine exists_ok ?_
  rw [sample, ofText_ofList]
  decide +kernel

end Orchestration.Model
