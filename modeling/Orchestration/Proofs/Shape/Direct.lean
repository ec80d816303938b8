import Orchestration.Proofs.Shape.Record

/-!
# Orchestration.Proofs.Shape.Direct

The records of elements without a tree. `Direct.records` goes down the elements and writes the
records of their shapes at once: there are no handles, no links and no changes to anything that is
written already.

* `Direct.element`, `Direct.records` — the records of an element and of elements side by side,
  each with the next sequence number.
* `Direct.contents` — the containers among child elements, each with the records of its content in
  whatever context it will stand.

Growing a tree from the elements and recording what has grown gives the same.
-/

namespace Orchestration.Shape

open Designer (Element)

namespace Direct

/-- An element that holds shapes, and the records of these shapes under a path. -/
abbrev Container := Element × (String → List Json)

/-- The record of a shape. -/
def close (s : Sketch) (path : String) (sequence : Nat) (fields : List (String × Json))
    (children : List Json) : Json :=
  .obj (s.header path sequence ++ fields ++ [("children", .arr children)])

/-- The fields of a shape without regions. -/
def plainFields (s : Sketch) : List (String × Json) := s.payload.fields fun _ => .null

/-- The text of the first expression directly in a container. -/
def firstExpression? (container : Element) : Option String :=
  container.children.findSome? fun e =>
    if Form.ofType e.type = .expression .expression then some (e.prop "Expression") else none

/-- The fields of a decision. -/
def decideFields (e : Element) (path : Slot → String) (branches : List Container) :
    List (String × Json) :=
  let d := Decision.ofElement e
  let whenTrue := branches[d.whenTrue]?
  let whenFalse := branches[d.whenFalse]?
  let promoted := if Text.blank d.condition then whenTrue.bind (firstExpression? ·.1) else none
  [("expression", .str (promoted.getD d.condition)),
    ("true_branch", .arr ((whenTrue.map (·.2 (path .whenTrue))).getD [])),
    ("false_branch", .arr ((whenFalse.map (·.2 (path .whenFalse))).getD []))]

/-- The records under each key, containers numbered from `number`. -/
def keyedCases (path : Slot → String) (number : Nat) : List Container → List (String × List Json)
  | [] => []
  | c :: rest =>
    match caseKey? c.1 with
    | none => keyedCases path (number + 1) rest
    | some key => (key, c.2 (path (.case number key))) :: keyedCases path (number + 1) rest

/-- The records in the containers without a key. -/
def defaultCases (path : Slot → String) (containers : List Container) : List Json :=
  (containers.filter fun c => (caseKey? c.1).isNone).flatMap (·.2 (path .otherwise))

/-- The fields of a switch; containers with one key share their entry. -/
def switchFields (e : Element) (path : Slot → String) (containers : List Container) :
    List (String × Json) :=
  [("expression", .str (expressionOf e)),
    ("cases", .obj ((grouped (keyedCases path 1 containers)).map fun x => (x.1, .arr x.2))),
    ("default_case", .arr (defaultCases path containers))]

/-- The fields of a listen. -/
def listenFields (path : Slot → String) (containers : List Container) : List (String × Json) :=
  [("branches", .arr ((containers.zipIdx 1).map fun c => .arr (c.1.2 (path (.branch c.2)))))]

/-- The fields of a construct: its maps and then its assignments stand inside. -/
def constructFields (e : Element) (path : Slot → String) : List (String × Json) :=
  let shapes := (e.select ["Transform"]).filterMap Form.transform.sketch? ++
    (e.select ["MessageAssignment"]).filterMap Form.messageAssignment.sketch?
  [("constructed_messages", .strings (references e "MessageRef" "Ref")),
    ("inner_shapes", .arr (shapes.zipIdx.map fun x =>
      close x.1 (path .inner) x.2 (plainFields x.1) []))]

mutual

/-- The record of an element in a context, none for metadata, and the next sequence number. -/
def element (path : String) (next : Nat) : Element → Option Json × Nat
  | ⟨type?, oid?, properties, children⟩ =>
    let e : Element := ⟨type?, oid?, properties, children⟩
    let form := Form.ofType e.type
    match form.sketch? e with
    | none => (none, next)
    | some s =>
      let region := s.regionPath path next
      match form with
      | .decide =>
        (some (close s path next (decideFields e region (contents decisionTypes children)) []),
          next + 1)
      | .switch =>
        (some (close s path next (switchFields e region (contents decisionTypes children)) []),
          next + 1)
      | .listen =>
        (some (close s path next (listenFields region (contents listenTypes children)) []),
          next + 1)
      | .construct => (some (close s path next (constructFields e region) []), next + 1)
      | .messageAssignment => (some (close s path next (plainFields s) []), next + 1)
      | _ =>
        let below := records path (next + 1) children
        (some (close s path next (plainFields s) below.1), below.2)

/-- The records of elements in order, metadata left out. -/
def records (path : String) (next : Nat) : List Element → List Json × Nat
  | [] => ([], next)
  | e :: rest =>
    let (first, next) := element path next e
    let (others, next) := records path next rest
    (first.toList ++ others, next)

/-- The child elements of the given types; what is in each is numbered from zero. -/
def contents (types : List String) : List Element → List Container
  | [] => []
  | ⟨type?, oid?, properties, children⟩ :: rest =>
    let e : Element := ⟨type?, oid?, properties, children⟩
    if e.isOneOf types then (e, fun path => (records path 0 children).1) :: contents types rest
    else contents types rest

end

/-! ## The same recursion on outlines -/

/-- The record of an element read in a form, once its sketch is known. -/
def shape (f : Form) (e : Element) (s : Sketch) (path : String) (next : Nat) : Json × Nat :=
  let region := s.regionPath path next
  match f with
  | .decide =>
    (close s path next (decideFields e region (contents decisionTypes e.children)) [], next + 1)
  | .switch =>
    (close s path next (switchFields e region (contents decisionTypes e.children)) [], next + 1)
  | .listen =>
    (close s path next (listenFields region (contents listenTypes e.children)) [], next + 1)
  | .construct => (close s path next (constructFields e region) [], next + 1)
  | .messageAssignment => (close s path next (plainFields s) [], next + 1)
  | _ =>
    let below := records path (next + 1) e.children
    (close s path next (plainFields s) below.1, below.2)

theorem element_eq (path : String) (next : Nat) (e : Element) :
    element path next e =
      match (Form.ofType e.type).sketch? e with
      | none => (none, next)
      | some s =>
        let r := shape (Form.ofType e.type) e s path next
        (some r.1, r.2) := by
  obtain ⟨type?, oid?, properties, children⟩ := e
  rw [element]
  cases (Form.ofType _).sketch? _ with
  | none => rfl
  | some s =>
    simp only
    split <;> simp_all [shape]

/-- The recursion on an element follows the one on its outline. -/
def Mirrors (e : Element) : Prop :=
  ∀ path next, element path next e =
    ((Outline.ofElement? e).map (Outline.record path next),
      next + ((Outline.ofElement? e).map Outline.width).getD 0)

/-- The same for elements side by side. -/
def MirrorsAll (es : List Element) : Prop :=
  ∀ path next, records path next es =
    (Outline.records path next (Outline.ofElements es),
      next + Outline.widthAll (Outline.ofElements es))

theorem mirrorsAll {es : List Element} (hes : ∀ e ∈ es, Mirrors e) : MirrorsAll es := by
  induction es with
  | nil => exact fun _ _ => rfl
  | cons e rest ih =>
    intro path next
    have hrest := ih fun c hc => hes c (List.mem_cons_of_mem _ hc)
    rw [records, hes e (List.mem_cons_self ..) path next, Outline.ofElements]
    cases ho : Outline.ofElement? e with
    | none => simp [hrest path next]
    | some o => simp [hrest path, Outline.records, Outline.widthAll, Nat.add_assoc]

/-- What an outline's content becomes as the content of a container. -/
def container (c : Element × List Outline) : Container :=
  (c.1, fun path => Outline.records path 0 c.2)

theorem contents_eq {es : List Element} (hes : ∀ c ∈ es, MirrorsAll c.children)
    (types : List String) :
    contents types es = (Outline.containers types es).map container := by
  induction es with
  | nil => rfl
  | cons e rest ih =>
    have hrest := ih fun c hc => hes c (List.mem_cons_of_mem _ hc)
    have he : ∀ path, (records path 0 e.children).1 =
        Outline.records path 0 (Outline.ofElements e.children) :=
      fun path => congrArg Prod.fst (hes e (List.mem_cons_self ..) path 0)
    obtain ⟨type?, oid?, properties, children⟩ := e
    rw [contents, Outline.containers, hrest]
    split
    · simp only [List.map_cons, container, List.cons.injEq, Prod.mk.injEq, true_and, and_true]
      exact funext he
    · rfl

theorem record_mk (s : Sketch) (regions : List (Slot × List Outline)) (children : List Outline)
    (path : String) (next : Nat) :
    (Outline.mk s regions children).record path next =
      close s path next
        (s.payload.fieldsWith
          (regions.map fun r => (r.1, Outline.records (s.regionPath path next r.1) 0 r.2)))
        (Outline.records path (next + 1) children) := by
  rw [Outline.record, Outline.regionRecords_eq]
  rfl

/-! ## One form at a time -/

theorem kind_expression_iff {f : Form} (hf : f.regular = true) :
    f.kind? = some .expression ↔ f = .expression .expression := by
  cases f with
  | expression k => simp [Form.kind?]
  | invoke k | plain k usual =>
    simp only [Form.kind?, Option.some.injEq, reduceCtorEq, iff_false]
    rintro rfl
    simp [Form.regular, Payload.suits] at hf
  | _ => simp [Form.kind?]

theorem complete_kind (f : Form) (e : Element) (s : Sketch) :
    (Outline.complete f e s).sketch.kind = s.kind := by
  cases f <;> rfl

/-- The first expression among outlines is the first among their elements. -/
theorem firstExpression (c : Element) :
    ((Outline.ofElements c.children).find? fun o => o.sketch.kind == .expression).bind
      Outline.expression? = firstExpression? c := by
  rw [firstExpression?]
  induction c.children with
  | nil => rfl
  | cons e rest ih =>
    have hf := Form.regular_ofType e.type
    rw [Outline.ofElements, List.findSome?_cons, ← ih]
    cases ho : Outline.ofElement? e with
    | none =>
      have hne : Form.ofType e.type ≠ .expression .expression := by
        intro he
        simp [Outline.ofElement?_eq, he, Form.sketch?, Form.kind?] at ho
      simp [hne]
    | some o =>
      obtain ⟨s, hs, rfl⟩ := Outline.ofElement?_eq_some ho
      have hkind := Form.kind_of_sketch? hs
      by_cases he : Form.ofType e.type = .expression .expression
      · have hp := Form.payload_of_sketch? hs
        rw [he] at hkind hp ⊢
        have hk : Kind.expression = s.kind := Option.some.inj hkind
        simp [Outline.complete, Outline.expression?, ← hk, hp, Form.payload]
      · have hk : s.kind ≠ .expression := by
          intro hk
          exact he ((kind_expression_iff hf).mp (hk ▸ hkind))
        simp [complete_kind, hk, he]

/-- What a decision takes from the shapes of its true branch it can take from the elements. -/
theorem promoted_eq (condition : String) (i : Nat) {cs : List (Element × List Outline)}
    (hcs : ∀ c ∈ cs, c.2 = Outline.ofElements c.1.children) :
    (Outline.promoted? condition (((cs.map Prod.snd)[i]?).getD [])).bind Outline.expression? =
      if Text.blank condition then ((cs.map container)[i]?).bind (firstExpression? ·.1)
      else none := by
  rw [Outline.promoted?]
  by_cases hb : Text.blank condition = true
  · rw [if_pos hb, if_pos hb, List.getElem?_map, List.getElem?_map]
    cases hc : cs[i]? with
    | none => rfl
    | some c =>
      have hfirst := firstExpression c.1
      rw [← hcs c (List.mem_of_getElem? hc)] at hfirst
      exact hfirst
  · rw [if_neg hb, if_neg hb]
    rfl

theorem decideFields_eq (e : Element) (path : Slot → String) (s : Sketch)
    {cs : List (Element × List Outline)} (hcs : ∀ c ∈ cs, c.2 = Outline.ofElements c.1.children) :
    (Outline.decide s (Decision.ofElement e) (cs.map Prod.snd)).sketch.payload.fieldsWith
        ((Outline.decide s (Decision.ofElement e) (cs.map Prod.snd)).regions.map fun r =>
          (r.1, Outline.records (path r.1) 0 r.2)) =
      decideFields e path (cs.map container) := by
  have hp := promoted_eq (Decision.ofElement e).condition (Decision.ofElement e).whenTrue hcs
  simp only [Outline.decide, Payload.fieldsWith, decideFields]
  rw [hp, List.getElem?_map, List.getElem?_map, List.getElem?_map, List.getElem?_map]
  cases cs[(Decision.ofElement e).whenTrue]? <;> cases cs[(Decision.ofElement e).whenFalse]? <;>
    simp [inSlot, container]

theorem keyed_cases (path : Slot → String) (number : Nat) (cs : List (Element × List Outline)) :
    keyed ((Outline.cases number cs).map fun r => (r.1, Outline.records (path r.1) 0 r.2)) =
      keyedCases path number (cs.map container) := by
  induction cs generalizing number with
  | nil => rfl
  | cons c rest ih =>
    rw [Outline.cases, List.map_cons, List.map_cons, keyedCases, ← ih]
    cases hk : caseKey? c.1 with
    | none => simp [Outline.caseSlot, hk, keyed, container]
    | some key => simp [Outline.caseSlot, hk, keyed, container]

theorem default_cases (path : Slot → String) (number : Nat) (cs : List (Element × List Outline)) :
    inSlot .otherwise
        ((Outline.cases number cs).map fun r => (r.1, Outline.records (path r.1) 0 r.2)) =
      defaultCases path (cs.map container) := by
  induction cs generalizing number with
  | nil => rfl
  | cons c rest ih =>
    have hrest := ih (number + 1)
    cases hk : caseKey? c.1 with
    | none => simp_all [Outline.cases, Outline.caseSlot, inSlot, defaultCases, container]
    | some key => simp_all [Outline.cases, Outline.caseSlot, inSlot, defaultCases, container]

theorem branched_branches (path : Slot → String) (number : Nat)
    (cs : List (Element × List Outline)) :
    (branched ((Outline.branches number cs).map fun r =>
        (r.1, Outline.records (path r.1) 0 r.2))).map Json.arr =
      ((cs.map container).zipIdx number).map fun c => .arr (c.1.2 (path (.branch c.2))) := by
  induction cs generalizing number with
  | nil => rfl
  | cons c rest ih =>
    have hrest := ih (number + 1)
    simp_all [Outline.branches, branched, container]

theorem plainFields_eq {f : Form} {e : Element} {s : Sketch}
    (hf : f ∉ [Form.decide, .switch, .listen, .construct]) (hs : f.sketch? e = some s)
    (rs : List (Slot × List Json)) : s.payload.fieldsWith rs = plainFields s := by
  rw [plainFields, Form.payload_of_sketch? hs]
  cases f with
  | decide | switch | listen | construct => simp at hf
  | transform =>
    obtain ⟨inputs, outputs, he⟩ := Form.transformPayload_eq e
    rw [Form.payload, he]
    rfl
  | _ => rfl

theorem records_leaves (path : String) (next : Nat) {ss : List Sketch}
    (hss : ∀ s ∈ ss, ∀ rs, s.payload.fieldsWith rs = plainFields s) :
    Outline.records path next (ss.map fun s => ⟨s, [], []⟩) =
      (ss.zipIdx next).map fun x => close x.1 path x.2 (plainFields x.1) [] := by
  induction ss generalizing next with
  | nil => rfl
  | cons s rest ih =>
    have hs := hss s (List.mem_cons_self ..)
    have hrest := ih (next + 1) fun s hm => hss s (List.mem_cons_of_mem _ hm)
    rw [List.map_cons, Outline.records, record_mk, hs, Outline.width]
    rw [List.zipIdx_cons, List.map_cons, ← hrest]
    rfl

theorem constructFields_eq (e : Element) (path : Slot → String) {s : Sketch}
    (hs : Form.construct.sketch? e = some s) :
    s.payload.fieldsWith [(.inner, Outline.records (path .inner) 0 (Outline.inner e))] =
      constructFields e path := by
  have hleaves : Outline.inner e =
      ((e.select ["Transform"]).filterMap Form.transform.sketch? ++
        (e.select ["MessageAssignment"]).filterMap Form.messageAssignment.sketch?).map
          fun s => ⟨s, [], []⟩ := by
    simp [Outline.inner, List.map_filterMap]
  rw [Form.payload_of_sketch? hs, hleaves, records_leaves]
  · simp [Form.payload, Payload.fieldsWith, inSlot, constructFields]
  · intro s hm
    rcases List.mem_append.mp hm with hm | hm
    · obtain ⟨c, -, hc⟩ := List.mem_filterMap.mp hm
      exact plainFields_eq (by decide) hc
    · obtain ⟨c, -, hc⟩ := List.mem_filterMap.mp hm
      exact plainFields_eq (by decide) hc

/-! ## All forms -/

theorem shape_eq {f : Form} {e : Element} {s : Sketch} (hs : f.sketch? e = some s)
    (hchildren : MirrorsAll e.children) (hcontents : ∀ c ∈ e.children, MirrorsAll c.children)
    (path : String) (next : Nat) :
    shape f e s path next =
      ((Outline.complete f e s).record path next, next + (Outline.complete f e s).width) := by
  have hselect : ∀ types, (e.select types).map (fun c => (c, Outline.ofElements c.children)) =
      Outline.containers types e.children := fun types => (Outline.containers_eq ..).symm
  have hp := Form.payload_of_sketch? hs
  cases f with
  | decide =>
    have hpairs : ∀ c ∈ Outline.containers decisionTypes e.children,
        c.2 = Outline.ofElements c.1.children := by
      intro c hc
      rw [← hselect] at hc
      obtain ⟨c', -, rfl⟩ := List.mem_map.mp hc
      rfl
    have hbranches : (e.select decisionTypes).map (fun c => Outline.ofElements c.children) =
        (Outline.containers decisionTypes e.children).map Prod.snd := by
      rw [← hselect, List.map_map]
      rfl
    have hfields := decideFields_eq e (s.regionPath path next) s hpairs
    rw [Outline.complete, hbranches, shape, contents_eq hcontents, ← hfields]
    refine Prod.ext (Eq.symm ?_) rfl
    rw [Outline.decide, record_mk]
    rfl
  | switch =>
    rw [Outline.complete, hselect, record_mk, hp, shape, contents_eq hcontents]
    simp only [Form.payload, Payload.fieldsWith, keyed_cases, default_cases, switchFields]
    rfl
  | listen =>
    rw [Outline.complete, hselect, record_mk, hp, shape, contents_eq hcontents]
    simp only [Form.payload, Payload.fieldsWith, branched_branches, listenFields]
    rfl
  | construct =>
    rw [Outline.complete, record_mk, shape, ← constructFields_eq e _ hs]
    rfl
  | messageAssignment =>
    rw [Outline.complete, record_mk, plainFields_eq (by decide) hs, shape]
    rfl
  | expression kind | invoke kind | plain kind usual =>
    rw [Outline.complete, record_mk, plainFields_eq (by simp) hs, shape, hchildren]
    · simp [Outline.width, Nat.add_assoc]
    all_goals simp
  | _ =>
    rw [Outline.complete, record_mk, plainFields_eq (by decide) hs, shape, hchildren]
    · simp [Outline.width, Nat.add_assoc]
    all_goals simp

theorem mirrors (e : Element) : Mirrors e ∧ MirrorsAll e.children := by
  induction e using Designer.Element.rec_children with
  | step e ih =>
    have hchildren : MirrorsAll e.children := mirrorsAll fun c hc => (ih c hc).1
    refine ⟨fun path next => ?_, hchildren⟩
    rw [element_eq, Outline.ofElement?_eq]
    cases hs : (Form.ofType e.type).sketch? e with
    | none => rfl
    | some s => simp [shape_eq hs hchildren fun c hc => (ih c hc).2]

end Direct

/-- Growing shapes from elements, in whatever tree, and recording what has grown gives the records
that the elements have without a tree. -/
theorem Tree.grow_direct (t : Tree) (path : String) (next : Nat) (es : List Element) :
    (t.grow ⟨path, next⟩ none (Outline.ofElements es)).handles.map
        (t.grow ⟨path, next⟩ none (Outline.ofElements es)).tree.record =
      (Direct.records path next es).1 := by
  have hmirrors : Direct.MirrorsAll es := Direct.mirrorsAll fun e _ => (Direct.mirrors e).1
  rw [t.grow_record path next (Outline.ofElements_proper es), hmirrors]

end Orchestration.Shape
