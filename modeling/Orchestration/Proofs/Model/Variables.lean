import Orchestration.Model.Record
import Orchestration.Proofs.Designer.Document
import Orchestration.Proofs.Model.Index
import Orchestration.Proofs.Model.Tag
import Orchestration.Proofs.Shape.Lift

/-!
# Orchestration.Proofs.Model.Variables

What variables declared beside the body change in a model. They are built first, so every other
shape stands behind them.

* `Model.withoutVariables` — the document without them; `VariablesApart` says that none of them has
  the identifier of another shape.
* `Model.lifts_grownBody` — the shapes of the whole document are those of the reduced one, moved up.
* `Model.target?_lift` — a use of a correlation set refers to the same receive in both.
* `Model.variables_isolated` — the records agree but for the list of variables, and variables that
  cannot be built leave the model of the reduced document.
-/

namespace Orchestration

/-- A value without one of its fields. -/
def Json.without (key : String) : Json → Json
  | .obj fields => .obj (fields.filter fun x => x.1 != key)
  | value => value

namespace Shape

theorem standAlone_length (start : Handle) (path : String) (sequence : Int) (ss : List Sketch) :
    (standAlone start path sequence ss).length = ss.length := by
  simpa using congrArg List.length (standAlone_handles start path sequence ss)

theorem standAlone_moved (k start : Nat) (path : String) (sequence : Int) {ss : List Sketch}
    (hs : ∀ s ∈ ss, s.Fresh) : standAlone (start + k) path sequence ss =
      Outline.movedAll k none (standAlone start path sequence ss) := by
  induction ss generalizing start with
  | nil => rfl
  | cons s rest ih =>
    have hnode : (s.node path sequence none).moved k none = s.node path sequence none := by
      have hpayload := Payload.rename_of_bare (· + k) (hs s (by simp)).bare
      rw [Node.moved, Sketch.node, hpayload]
      rfl
    rw [standAlone, standAlone, Nat.add_right_comm, ih _ fun s h => hs s (by simp [h]),
      Outline.movedAll, Outline.movedAll, List.map_cons, hnode]

end Shape

namespace Model

open Designer (Document Element)
open Shape (Binding Handle Node Outline Sketch Tree standAlone)

/-- The document without the variables declared beside the body. -/
def withoutVariables (d : Document) : Document := d.withoutDeclared variableType

/-- The sketches of everything else that becomes a shape. -/
def otherSketches (d : Document) : List Sketch :=
  declaredSketches d correlationType ++ (Outline.flatAll (bodyOutlines d)).map Outline.sketch

/-- No variable declared beside the body has the identifier of another shape. -/
def VariablesApart (d : Document) : Prop :=
  ∀ v ∈ declaredSketches d variableType, v.oid ≠ "" → ∀ s ∈ otherSketches d, s.oid ≠ v.oid

instance (d : Document) : Decidable (VariablesApart d) :=
  inferInstanceAs (Decidable (∀ v ∈ declaredSketches d variableType, v.oid ≠ "" →
    ∀ s ∈ otherSketches d, s.oid ≠ v.oid))

variable (d : Document)

/-- How many shapes stand before all others. -/
def variableCount : Nat := (declaredSketches d variableType).length

/-! ## The reduced document -/

theorem declared_withoutVariables_of_ne {type : String} (hne : type ≠ variableType) :
    (withoutVariables d).declared type = d.declared type :=
  Document.declared_withoutDeclared_of_ne hne

@[simp] theorem namespace_withoutVariables :
    Designer.firstValue (withoutVariables d).modules "Name" =
      Designer.firstValue d.modules "Name" :=
  d.namespace_withoutDeclared variableType "Name"

@[simp] theorem name_withoutVariables :
    Designer.firstValue (withoutVariables d).services "Name" =
      Designer.firstValue d.services "Name" :=
  d.name_withoutDeclared variableType "Name"

@[simp] theorem messages_withoutVariables : (withoutVariables d).messages = d.messages :=
  Document.messages_withoutDeclared (by decide)

@[simp] theorem portTypes_withoutVariables : (withoutVariables d).portTypes = d.portTypes :=
  Document.portTypes_withoutDeclared

@[simp] theorem ports_withoutVariables : (withoutVariables d).ports = d.ports :=
  Document.ports_withoutDeclared (by decide)

@[simp] theorem bodies_withoutVariables : (withoutVariables d).bodies = d.bodies :=
  Document.bodies_withoutDeclared (by decide)

theorem declaredSketches_withoutVariables :
    declaredSketches (withoutVariables d) variableType = [] := by
  rw [declaredSketches, withoutVariables, Document.declared_withoutDeclared]
  rfl

theorem declaredSketches_withoutVariables_correlations :
    declaredSketches (withoutVariables d) correlationType = declaredSketches d correlationType := by
  rw [declaredSketches, declared_withoutVariables_of_ne d (by decide), declaredSketches]

theorem bodyOutlines_withoutVariables :
    bodyOutlines (withoutVariables d) = bodyOutlines d := by
  rw [bodyOutlines, bodies_withoutVariables, bodyOutlines]

theorem otherSketches_withoutVariables :
    otherSketches (withoutVariables d) = otherSketches d := by
  rw [otherSketches, declaredSketches_withoutVariables_correlations, bodyOutlines_withoutVariables,
    otherSketches]

theorem declaredCount_eq :
    declaredCount d = declaredCount (withoutVariables d) + variableCount d := by
  rw [declaredCount, declaredCount, declaredSketches_withoutVariables,
    declaredSketches_withoutVariables_correlations, variableCount, List.length_nil, Nat.zero_add,
    Nat.add_comm]

/-- First the variables, then everything that the reduced document lays, moved up. -/
theorem layout_eq : layout d =
    standAlone 0 serviceContext serviceSequence (declaredSketches d variableType) ++
      Outline.movedAll (variableCount d) none (layout (withoutVariables d)) := by
  have hcorrelations := Shape.standAlone_moved (variableCount d) 0 serviceContext serviceSequence
    (declaredSketches_fresh d correlationType)
  have hbody := Outline.laidAll_moved (variableCount d) (declaredCount (withoutVariables d))
    "body" 0 none none (bodyOutlines d) (bodyOutlines_proper d)
  rw [Nat.zero_add] at hcorrelations
  rw [Option.map_none, Option.none_or, ← declaredCount_eq] at hbody
  rw [layout, layout, declaredSketches_withoutVariables,
    declaredSketches_withoutVariables_correlations, bodyOutlines_withoutVariables, hbody,
    ← variableCount, hcorrelations, List.append_assoc]
  simp [Outline.movedAll, standAlone]

/-! ## The tree before binding -/

theorem lifts_grownBody :
    Tree.Lifts (variableCount d) (grownBody (withoutVariables d)).tree (grownBody d).tree := by
  let ahead := standAlone 0 serviceContext serviceSequence (declaredSketches d variableType)
  have hlist : (grownBody d).tree.list = ahead.map Prod.snd ++
      (grownBody (withoutVariables d)).tree.list.map (Node.moved (variableCount d) none) := by
    rw [grownBody_list, layout_eq, List.map_append, grownBody_list, Outline.movedAll, List.map_map,
      List.map_map]
    rfl
  have hlength : (ahead.map Prod.snd).length = variableCount d := by
    rw [List.length_map, Shape.standAlone_length, variableCount]
  refine ⟨?_, fun h => ?_⟩
  · rw [← Tree.length_list, hlist, List.length_append, hlength, List.length_map, Tree.length_list,
      Nat.add_comm]
  · rw [Tree.node?_eq_getElem?, hlist, List.getElem?_append_right (by rw [hlength]; omega), hlength,
      Nat.add_sub_cancel, List.getElem?_map, ← Tree.node?_eq_getElem?]

/-- What stands before everything else is a variable. -/
theorem variable_of_lt {h : Handle} {n : Node} (hh : h < variableCount d)
    (hn : (grownBody d).tree.node? h = some n) :
    ∃ v ∈ declaredSketches d variableType, n = v.node serviceContext serviceSequence none := by
  rw [Tree.node?_eq_getElem?, grownBody_list, layout_eq, List.map_append, Shape.standAlone_nodes,
    List.getElem?_append_left (by rwa [List.length_map])] at hn
  obtain ⟨v, hv, rfl⟩ := List.mem_map.mp (List.mem_of_getElem? hn)
  exact ⟨v, hv, rfl⟩

theorem mem_otherSketches {h : Handle} {oid : String}
    (ho : (grownBody (withoutVariables d)).tree.oid? h = some oid) :
    ∃ s ∈ otherSketches d, s.oid = oid := by
  have hoids := layout_map (f := Node.oid) (g := Sketch.oid) (fun _ _ _ _ _ _ => rfl)
    (withoutVariables d)
  rw [declaredSketches_withoutVariables, List.nil_append] at hoids
  have hm : oid ∈ (otherSketches (withoutVariables d)).map Sketch.oid := by
    rw [Tree.oid?_eq_getElem?, grownBody_list, List.map_map] at ho
    rw [otherSketches, List.map_append, List.map_map]
    exact hoids ▸ List.mem_of_getElem? ho
  rw [otherSketches_withoutVariables] at hm
  exact List.mem_map.mp hm

variable {d}

/-- The first shape with an identifier is the same when no variable has it. -/
theorem first_lift (ha : VariablesApart d) {oid : String} (hoid : oid ≠ "") (h : Handle) :
    (grownBody d).tree.First oid (h + variableCount d) ↔
      (grownBody (withoutVariables d)).tree.First oid h := by
  have hl := lifts_grownBody d
  constructor
  · rintro ⟨hcarries, hleast⟩
    refine ⟨(hl.oid? h).symm.trans hcarries, fun h' ho => ?_⟩
    exact Nat.le_of_add_le_add_right (hleast _ ((hl.oid? h').trans ho))
  · rintro ⟨hcarries, hleast⟩
    refine ⟨(hl.oid? h).trans hcarries, fun h' ho => ?_⟩
    rcases Nat.lt_or_ge h' (variableCount d) with hlt | hge
    · -- a variable would share the identifier with the shape at `h`
      obtain ⟨n, hn, hoidn⟩ := Option.map_eq_some_iff.mp ho
      obtain ⟨v, hv, rfl⟩ := variable_of_lt d hlt hn
      obtain rfl : v.oid = oid := hoidn
      obtain ⟨s, hs, he⟩ := mem_otherSketches d hcarries
      exact absurd he (ha v hv hoid s hs)
    · obtain ⟨i, rfl⟩ := Nat.exists_eq_add_of_le' hge
      exact Nat.add_le_add_right (hleast i ((hl.oid? i).symm.trans ho)) _

theorem target?_lift (ha : VariablesApart d) (b : Binding) :
    (grownBody d).tree.target? b =
      ((grownBody (withoutVariables d)).tree.target? b).map (· + variableCount d) := by
  have hl := lifts_grownBody d
  have hi := grownBody_indexed d
  have hi' := grownBody_indexed (withoutVariables d)
  ext h
  rw [Option.map_eq_some_iff, Tree.target?_eq_some_iff, hi.lookup_eq_some_iff]
  simp only [Tree.target?_eq_some_iff, hi'.lookup_eq_some_iff]
  constructor
  · rintro ⟨⟨hne, hfirst⟩, n, hn, hkind⟩
    rcases Nat.lt_or_ge h (variableCount d) with hlt | hge
    · -- variables are no receives
      obtain ⟨v, hv, rfl⟩ := variable_of_lt d hlt hn
      have hvariable : some Shape.Kind.variableDeclaration = some v.kind :=
        kind_of_mem_declaredSketches hv
      have hreceive : v.kind = .receive := hkind
      rw [hreceive] at hvariable
      cases hvariable
    · obtain ⟨i, rfl⟩ := Nat.exists_eq_add_of_le' hge
      rw [hl.node?] at hn
      obtain ⟨n, hn', rfl⟩ := Option.map_eq_some_iff.mp hn
      exact ⟨i, ⟨⟨hne, (first_lift ha hne i).mp hfirst⟩, n, hn', hkind⟩, rfl⟩
  · rintro ⟨i, ⟨⟨hne, hfirst⟩, n, hn, hkind⟩, rfl⟩
    refine ⟨⟨hne, (first_lift ha hne i).mpr hfirst⟩, n.moved (variableCount d) none, ?_, hkind⟩
    rw [hl.node?, hn]
    rfl

/-! ## Models -/

section

variable {m m' : Model}

theorem correlations_lift (hm : Assembled d m) (hm' : Assembled (withoutVariables d) m') :
    m.declaredCorrelations = m'.declaredCorrelations.map (· + variableCount d) := by
  rw [hm.declaredCorrelations, hm'.declaredCorrelations, declare_correlations_handles,
    declare_correlations_handles, declaredSketches_withoutVariables_correlations,
    declaredSketches_withoutVariables, ← variableCount, List.length_nil, ← List.range_eq_range',
    List.range'_eq_map_range]
  simp [Nat.add_comm]

theorem shapes_lift (hm : Assembled d m) (hm' : Assembled (withoutVariables d) m') :
    m.shapes = m'.shapes.map (· + variableCount d) := by
  rw [hm.shapes, hm'.shapes, grownBody_handles, grownBody_handles, bodyOutlines_withoutVariables,
    ← Outline.handles_moved, ← declaredCount_eq]

theorem tree_lift (ha : VariablesApart d) (hm : Assembled d m)
    (hm' : Assembled (withoutVariables d) m') : Tree.Lifts (variableCount d) m'.tree m.tree := by
  have hr := (grownBody_linked (withoutVariables d)).rising
  have hl := (lifts_grownBody d).correlate hr (m'.declaredCorrelations ++ m'.shapes)
    (target?_lift ha)
  rw [List.map_append, ← correlations_lift hm hm', ← shapes_lift hm hm', ← hm.tree,
    ← hm'.tree] at hl
  exact hl

/-- Everything but the variables has the same records. -/
theorem records_lift (ha : VariablesApart d) (hm : Assembled d m)
    (hm' : Assembled (withoutVariables d) m') :
    m.declaredCorrelations.map m.tree.record = m'.declaredCorrelations.map m'.tree.record ∧
      m.shapes.map m.tree.record = m'.shapes.map m'.tree.record := by
  have hl := tree_lift ha hm hm'
  have hrecords : ∀ hs : List Handle, (hs.map (· + variableCount d)).map m.tree.record =
      hs.map m'.tree.record := by
    intro hs
    rw [List.map_map]
    exact List.map_congr_left fun h _ => hl.record hm'.linked.rising h
  rw [correlations_lift hm hm', shapes_lift hm hm']
  exact ⟨hrecords _, hrecords _⟩

end

theorem record_without (m : Model) : m.record.without "service_variables" =
    .obj
      [("namespace", .str m.namespaceName), ("name", .str m.name), ("full_name", .str m.fullName),
        ("messages", .arr (m.messages.map Message.record)),
        ("port_types", .arr (m.portTypes.map PortType.record)),
        ("ports", .arr (m.ports.map Port.record)),
        ("service_correlations", .arr (m.declaredCorrelations.map m.tree.record)),
        ("shapes", .arr (m.shapes.map m.tree.record))] := by
  rw [Model.record, Json.without]
  rfl

/-- The records of both models have all fields but one in common. -/
theorem record_withoutVariables (ha : VariablesApart d) (source : String) :
    (ofDocument d source).record.without "service_variables" =
      (ofDocument (withoutVariables d) source).record.without "service_variables" := by
  obtain ⟨hcorrelations, hshapes⟩ := records_lift ha (assembled_ofDocument d source)
    (assembled_ofDocument (withoutVariables d) source)
  have hnamespace : (ofDocument (withoutVariables d) source).namespaceName =
      (ofDocument d source).namespaceName := namespace_withoutVariables d
  have hname : (ofDocument (withoutVariables d) source).name = (ofDocument d source).name :=
    name_withoutVariables d
  have hmessages : (ofDocument (withoutVariables d) source).messages =
      (ofDocument d source).messages := messages_withoutVariables d
  have hportTypes : (ofDocument (withoutVariables d) source).portTypes =
      (ofDocument d source).portTypes := portTypes_withoutVariables d
  have hports : (ofDocument (withoutVariables d) source).ports = (ofDocument d source).ports :=
    ports_withoutVariables d
  rw [record_without, record_without, hcorrelations, hshapes, fullName, fullName, hnamespace, hname,
    hmessages, hportTypes, hports]

/-! ## Variables that cannot be built -/

/-- The result of a sequence depends on the results of its steps; reports do not matter. -/
theorem Reported.bind_congr {α β : Type} {x y : Reported α} {f g : α → Reported β}
    (h : x.result = y.result) (hfg : ∀ a, (f a).result = (g a).result) :
    (x >>= f).result = (y >>= g).result := by
  change (x.andThen f).result = (y.andThen g).result
  rw [andThen, andThen, h]
  cases y.result with
  | error e => rfl
  | ok a => exact hfg a

theorem Section.build_congr {α : Type} {s : Section} {refusals refusals' : Refusals}
    (h : refusals s = refusals' s) (name source : String) (x : Reported α) :
    s.build refusals name source x = s.build refusals' name source x := by
  rw [build, build, h]

variable (d) in
theorem declare_withoutVariables (t : Tree) :
    declare (withoutVariables d) variableType t = ([], t) := by
  rw [declare, withoutVariables, Document.declared_withoutDeclared]
  rfl

variable (d) in
/-- Refused or absent, there are no variables. -/
theorem buildVariables_of_refused {refusals : Refusals}
    (hrefused : (refusals .declaredVariables).isSome) (t : Tree) :
    (buildVariables refusals d t).result =
      (buildVariables noRefusals (withoutVariables d) t).result := by
  obtain ⟨r, hr⟩ := Option.isSome_iff_exists.mp hrefused
  simp only [buildVariables, hr, noRefusals, declare_withoutVariables]

variable (d) in
theorem assemble_of_refused {refusals : Refusals} (hrefused : (refusals .declaredVariables).isSome)
    (hothers : ∀ s, s ≠ .declaredVariables → refusals s = none) (source : String) :
    (assemble refusals d source).result =
      (assemble noRefusals (withoutVariables d) source).result := by
  have hbuild : ∀ {α : Type} (s : Section), s ≠ .declaredVariables → ∀ (name : String)
      (x : Reported α), s.build refusals name source x = s.build noRefusals name source x :=
    fun s hs name x => Section.build_congr (hothers s hs) name source x
  have hne : correlationType ≠ variableType := by decide
  have hdeclared := declared_withoutVariables_of_ne d hne
  have hbody : ∀ name hs t, buildBody refusals d name source hs t =
      buildBody noRefusals (withoutVariables d) name source hs t := by
    intro name hs t
    rw [buildBody, buildBody, bodies_withoutVariables]
    split
    · rfl
    · simp only [hbuild .shapes (by decide), hbuild .bindings (by decide)]
  unfold assemble
  rw [name_withoutVariables, namespace_withoutVariables]
  by_cases hname : Designer.firstValue d.services "Name" = ""
  · simp only [hname, if_true]
  · simp only [hname, if_false, hbuild .messages (by decide), hbuild .portTypes (by decide),
      hbuild .ports (by decide), hbuild .declaredCorrelations (by decide), hbody,
      messages_withoutVariables, portTypes_withoutVariables, ports_withoutVariables, declareEvents,
      declare, hdeclared]
    exact Reported.bind_congr rfl fun _ =>
      Reported.bind_congr (buildVariables_of_refused d hrefused .empty) fun _ => rfl

/-- Variables declared beside the body do not interfere with the rest. When none of them has the
identifier of another shape, the model has the record of the reduced document's model in everything
but its variables, or the same failure. And when they cannot be built, whatever the cause, the model
is exactly the reduced document's. -/
theorem variables_isolated (d : Document) (source : String) :
    (VariablesApart d →
      (assemble noRefusals d source).result.map
          (fun m => m.record.without "service_variables") =
        (assemble noRefusals (withoutVariables d) source).result.map
          fun m => m.record.without "service_variables") ∧
      ∀ refusals : Refusals, (refusals .declaredVariables).isSome →
        (∀ s, s ≠ .declaredVariables → refusals s = none) →
          (assemble refusals d source).result =
            (assemble noRefusals (withoutVariables d) source).result := by
  refine ⟨fun ha => ?_, fun refusals hrefused hothers =>
    assemble_of_refused d hrefused hothers source⟩
  rw [assemble_result, assemble_result, name_withoutVariables]
  split
  · rfl
  · exact congrArg Except.ok (record_withoutVariables ha source)

/-- An orchestration with a variable, a correlation set and the receive that initializes it. -/
def counted : Document :=
  let name (value : String) : Designer.Property := ⟨some "Name", some value⟩
  let use : Element := ⟨some "StatementRef", none,
    [⟨some "Ref", some "r1"⟩, ⟨some "Initializes", some "True"⟩], []⟩
  let service : Element := ⟨some "ServiceDeclaration", none, [name "Orders"],
    [⟨some "VariableDeclaration", some "v1", [name "Count"], []⟩,
      ⟨some "CorrelationDeclaration", some "c1", [name "Order"], [use]⟩,
      ⟨some "ServiceBody", none, [], [⟨some "Receive", some "r1", [], []⟩]⟩]⟩
  ⟨Designer.designerName "MetaModel", ⟨none, none, [], [⟨some "Module", none, [], [service]⟩]⟩⟩

/-- The receive has handle 2 with the variable and 1 without it. -/
theorem variables_isolated_counted :
    VariablesApart counted ∧
      (assemble noRefusals counted "orders.odx").result.map
          (fun m => m.record.without "service_variables") =
        (assemble noRefusals (withoutVariables counted) "orders.odx").result.map
          (fun m => m.record.without "service_variables") ∧
      (ofDocument counted "orders.odx").shapes = [2] ∧
      (ofDocument (withoutVariables counted) "orders.odx").shapes = [1] ∧
      ∃ refusals : Refusals, (refusals .declaredVariables).isSome ∧
        (assemble refusals counted "orders.odx").result =
          (assemble noRefusals (withoutVariables counted) "orders.odx").result := by
  have hapart : VariablesApart counted := by decide +kernel
  obtain ⟨hrecords, hrefused⟩ := variables_isolated counted "orders.odx"
  let refusals : Refusals := fun s =>
    if s = .declaredVariables then some (.other "broken") else none
  have hothers : ∀ s, s ≠ .declaredVariables → refusals s = none := fun s hs => if_neg hs
  exact ⟨hapart, hrecords hapart, by decide +kernel, by decide +kernel, refusals, rfl,
    hrefused refusals rfl hothers⟩

end Model

end Orchestration
