import Orchestration.Proofs.Model.Variables

/-!
# Orchestration.Proofs.Model.Section

The assembly of a document as a run through its sections.

* `Section.step` — what one section adds to a model; `run` — sections one after another.
* `assemble_eq` — the assembly is the run through `sections d`, and its last reports.
* `run_stopped` — a run ends with the first section that stops it; nothing of a later section is
  reported.
* `Reported.Alike` — two runs that differ in what they built, but not in outcome and warnings.
* `assemble_sections` — when there is a model, and which failure there is otherwise.
-/

namespace Orchestration.Model

open Designer (Document)
open Shape (Handle Outline Tree)

/-! ## Sequences of reports -/

namespace Reported

variable {α β γ : Type}

theorem bind_of_ok {x : Reported α} {a : α} (h : x.result = .ok a) (f : α → Reported β) :
    x >>= f = ⟨x.events ++ (f a).events, (f a).result⟩ := by
  change x.andThen f = _
  rw [andThen, h]

theorem bind_of_error {x : Reported α} {e : Failure} (h : x.result = .error e)
    (f : α → Reported β) : x >>= f = ⟨x.events, .error e⟩ := by
  change x.andThen f = _
  rw [andThen, h]

theorem ok_bind (a : α) (f : α → Reported β) : (pure a : Reported α) >>= f = f a :=
  bind_of_ok rfl f

theorem bind_bind (x : Reported α) (f : α → Reported β) (g : β → Reported γ) :
    x >>= f >>= g = x >>= fun a => f a >>= g := by
  cases hx : x.result with
  | error e => rw [bind_of_error hx, bind_of_error hx, bind_of_error rfl]
  | ok a =>
    rw [bind_of_ok hx, bind_of_ok hx]
    cases hf : (f a).result with
    | error e => rw [bind_of_error rfl, bind_of_error hf]
    | ok b => rw [bind_of_ok rfl, bind_of_ok hf, List.append_assoc]

instance : LawfulMonad Reported :=
  LawfulMonad.mk' Reported
    (fun x => by
      cases hx : x.result with
      | error e => exact (bind_of_error hx _).trans (by rw [← hx])
      | ok a => exact (bind_of_ok hx _).trans (by simp [done, ← hx]))
    ok_bind bind_bind

end Reported

/-! ## Sections -/

/-- What a refusal of a section comes to. -/
def Section.failure (s : Section) (name source : String) : Refusal → Failure
  | .known failure => failure
  | .other cause => ⟨.section name s.title cause, source⟩

/-- Whether the refusal of a section ends the assembly. -/
def Section.Stops (refusals : Refusals) (s : Section) : Prop :=
  s ≠ .declaredVariables ∧ (refusals s).isSome

instance (refusals : Refusals) : DecidablePred (Section.Stops refusals) := fun s =>
  inferInstanceAs (Decidable (s ≠ .declaredVariables ∧ (refusals s).isSome))

/-- The sections of a document in the order in which they are built. -/
def sections (d : Document) : List Section :=
  [.messages, .declaredVariables, .portTypes, .ports, .declaredCorrelations] ++
    if d.bodies.isEmpty then [] else [.shapes, .bindings]

def nameOf (d : Document) : String := Designer.firstValue d.services "Name"

/-- The model of a document before any section is built. -/
def blank (d : Document) (source : String) : Model :=
  { namespaceName := Designer.firstValue d.modules "Name"
    name := nameOf d
    source
    messages := []
    portTypes := []
    ports := []
    declaredVariables := []
    declaredCorrelations := []
    shapes := []
    tree := .empty }

theorem Section.build_of_refused {α : Type} {s : Section} {refusals : Refusals} {r : Refusal}
    (h : refusals s = some r) (name source : String) (x : Reported α) :
    s.build refusals name source x = .fail (s.failure name source r) := by
  rw [build, h]
  cases r <;> rfl

theorem Section.build_of_none {α : Type} {s : Section} {refusals : Refusals}
    (h : refusals s = none) (name source : String) (x : Reported α) :
    s.build refusals name source x = x := by
  rw [build, h]

section

variable (refusals : Refusals) (d : Document) (source : String)

/-- Adds a section to a model that has the earlier ones. -/
def Section.step (m : Model) (s : Section) : Reported Model :=
  match s with
  | .messages => do
    let messages ← s.build refusals (nameOf d) source (.done d.messages)
    return { m with messages }
  | .declaredVariables => do
    let (hs, t) ← buildVariables refusals d m.tree
    return { m with declaredVariables := hs, tree := t }
  | .portTypes => do
    let portTypes ← s.build refusals (nameOf d) source (.done d.portTypes)
    return { m with portTypes }
  | .ports => do
    let ports ← s.build refusals (nameOf d) source (.done d.ports)
    return { m with ports }
  | .declaredCorrelations => do
    let (hs, t) ← s.build refusals (nameOf d) source
      ⟨declareEvents d correlationType, .ok (declare d correlationType m.tree)⟩
    return { m with declaredCorrelations := hs, tree := t }
  | .shapes => do
    let elements := (d.bodies.head?.map Designer.Element.children).getD []
    let grown ← s.build refusals (nameOf d) source
      ⟨Shape.Trace.ofElements elements,
        .ok (m.tree.grow ⟨"body", 0⟩ none (Outline.ofElements elements))⟩
    return { m with shapes := grown.handles, tree := grown.tree }
  | .bindings => do
    let bound := m.tree.correlate (m.declaredCorrelations ++ m.shapes)
    let (hs, t) ← s.build refusals (nameOf d) source ⟨bound.events, .ok (m.shapes, bound.tree)⟩
    return { m with shapes := hs, tree := t }

/-- Adds sections one after another. -/
def run (m : Model) (ss : List Section) : Reported Model :=
  ss.foldlM (Section.step refusals d source) m

/-- The reports about a model that is complete. -/
def closing (m : Model) : List Event :=
  (if d.bodies.isEmpty then
    [.warning s!"No service body found in orchestration '{nameOf d}'"] else []) ++ [m.summary]

theorem assemble_eq (hname : nameOf d ≠ "") :
    assemble refusals d source =
      run refusals d source (blank d source) (sections d) >>= fun m =>
        ⟨closing d m, .ok m⟩ := by
  rw [assemble.eq_1 refusals d source, ← nameOf, if_neg hname]
  cases hb : d.bodies with
  | nil =>
    simp only [run, sections, closing, hb, List.isEmpty_nil, if_true, List.append_nil,
      List.foldlM_cons, List.foldlM_nil, Section.step, buildBody, List.head?_nil, bind_assoc,
      pure_bind]
    rfl
  | cons body rest =>
    simp only [run, sections, closing, hb, List.isEmpty_cons, Bool.false_eq_true, if_false,
      List.cons_append, List.nil_append, List.foldlM_cons, List.foldlM_nil, Section.step, buildBody,
      List.head?_cons, Option.map_some, Option.getD_some, bind_assoc, pure_bind]
    rfl

end

/-! ## Where a run ends -/

variable {refusals : Refusals} (d : Document) (source : String)

theorem Section.step_of_stops {s : Section} {r : Refusal} (hs : s ≠ .declaredVariables)
    (hr : refusals s = some r) (m : Model) :
    s.step refusals d source m = .fail (s.failure (nameOf d) source r) := by
  cases s with
  | declaredVariables => exact absurd rfl hs
  | _ =>
    simp only [step, build_of_refused hr]
    rfl

theorem buildVariables_ok (t : Tree) : ∃ x, (buildVariables refusals d t).result = .ok x := by
  unfold buildVariables
  cases refusals .declaredVariables with
  | none => exact ⟨_, rfl⟩
  | some r => exact ⟨_, rfl⟩

theorem Section.step_ok {s : Section} (hs : ¬ s.Stops refusals) (m : Model) :
    ∃ m', (s.step refusals d source m).result = .ok m' := by
  cases s with
  | declaredVariables =>
    obtain ⟨x, hx⟩ := buildVariables_ok d m.tree
    rw [step, Reported.bind_of_ok hx]
    exact ⟨_, rfl⟩
  | _ =>
    have hnone := Option.not_isSome_iff_eq_none.mp fun hr => hs ⟨by decide, hr⟩
    simp only [step, build_of_none hnone]
    exact ⟨_, rfl⟩

theorem run_cons (m : Model) (s : Section) (ss : List Section) :
    run refusals d source m (s :: ss) =
      s.step refusals d source m >>= fun m => run refusals d source m ss :=
  List.foldlM_cons

theorem run_append (m : Model) (ss ss' : List Section) :
    run refusals d source m (ss ++ ss') =
      run refusals d source m ss >>= fun m => run refusals d source m ss' :=
  List.foldlM_append

theorem run_ok {ss : List Section} (hss : ∀ s ∈ ss, ¬ s.Stops refusals) (m : Model) :
    ∃ m', (run refusals d source m ss).result = .ok m' := by
  induction ss generalizing m with
  | nil => exact ⟨m, rfl⟩
  | cons s rest ih =>
    obtain ⟨m', hm'⟩ := Section.step_ok d source (hss s (by simp)) m
    rw [run_cons, Reported.bind_of_ok hm']
    exact ih (fun s hs => hss s (by simp [hs])) m'

/-- The first section that stops a run ends it. -/
theorem run_stopped {before : List Section} (hbefore : ∀ s ∈ before, ¬ s.Stops refusals)
    {s : Section} {r : Refusal} (hs : s ≠ .declaredVariables) (hr : refusals s = some r)
    (after : List Section) (m : Model) :
    run refusals d source m (before ++ s :: after) =
      ⟨(run refusals d source m before).events, .error (s.failure (nameOf d) source r)⟩ := by
  obtain ⟨m', hm'⟩ := run_ok d source hbefore m
  have hstop := Section.step_of_stops d source hs hr m'
  have herror := congrArg Reported.result hstop
  rw [run_append, Reported.bind_of_ok hm', run_cons, Reported.bind_of_error herror, hstop,
    Reported.fail, List.append_nil]

/-! ## Warnings -/

variable {d source}

def warnings (events : List Event) : List Event := events.filter fun e => e.level == .warning

theorem warnings_append (events events' : List Event) :
    warnings (events ++ events') = warnings events ++ warnings events' :=
  List.filter_append ..

theorem warnings_declareEvents (type : String) : warnings (declareEvents d type) = [] := by
  refine List.filter_eq_nil_iff.mpr fun e he => ?_
  obtain ⟨x, -, hx⟩ := List.mem_flatMap.mp he
  simp only [List.mem_cons, List.not_mem_nil, or_false] at hx
  rcases hx with rfl | rfl <;> exact Bool.false_ne_true

theorem warnings_correlate (t : Tree) (roots : List Handle) :
    warnings (t.correlate roots).events = [] := by
  have hrun : ∀ (bs : List Shape.Binding) (c : Shape.Correlated), warnings c.events = [] →
      warnings (bs.foldl Shape.Correlated.step c).events = [] := by
    intro bs
    induction bs with
    | nil => exact fun _ hc => hc
    | cons b rest ih =>
      refine fun c hc => ih _ ?_
      unfold Shape.Correlated.step
      split
      · rw [warnings_append, hc]
        rfl
      · split
        · exact hc
        · rw [warnings_append, hc]
          rfl
  exact hrun _ _ rfl

/-- Two sequences of reports with the same warnings that end with the same failure or with none. -/
structure Reported.Alike {α : Type} (x y : Reported α) : Prop where
  warnings : warnings x.events = warnings y.events
  outcome : x.result.map (fun _ => ()) = y.result.map fun _ => ()

theorem Reported.Alike.bind {α β : Type} {x y : Reported α} {f g : α → Reported β}
    (h : x.Alike y) (hfg : ∀ a b, (f a).Alike (g b)) : (x >>= f).Alike (y >>= g) := by
  obtain ⟨hwarnings, houtcome⟩ := h
  cases hx : x.result with
  | error e =>
    cases hy : y.result with
    | error e' =>
      rw [hx, hy] at houtcome
      rw [bind_of_error hx, bind_of_error hy]
      exact ⟨hwarnings, by cases houtcome; rfl⟩
    | ok b => simp [hx, hy, Except.map] at houtcome
  | ok a =>
    cases hy : y.result with
    | error e' => simp [hx, hy, Except.map] at houtcome
    | ok b =>
      obtain ⟨hw, ho⟩ := hfg a b
      rw [bind_of_ok hx, bind_of_ok hy]
      exact ⟨by rw [warnings_append, warnings_append, hwarnings, hw], ho⟩

theorem Section.step_congr {s : Section} (hs : s ≠ .declaredVariables) {refusals' : Refusals}
    (h : refusals s = refusals' s) (m : Model) :
    s.step refusals d source m = s.step refusals' d source m := by
  cases s with
  | declaredVariables => exact absurd rfl hs
  | _ => rw [step, build_congr h, step]

/-- But for the variables no section warns of what the sections before it have built. -/
theorem Section.step_alike {s : Section} (hs : s ≠ .declaredVariables) (m m' : Model) :
    (s.step refusals d source m).Alike (s.step refusals d source m') := by
  have hbuild : ∀ {α : Type} {x y : Reported α} {f g : α → Model}, x.Alike y →
      (s.build refusals (nameOf d) source x >>= fun a => pure (f a)).Alike
        (s.build refusals (nameOf d) source y >>= fun a => pure (g a)) := by
    intro α x y f g hxy
    refine Reported.Alike.bind ?_ fun _ _ => ⟨rfl, rfl⟩
    cases hr : refusals s with
    | none => rwa [build_of_none hr, build_of_none hr]
    | some r =>
      rw [build_of_refused hr, build_of_refused hr]
      exact ⟨rfl, rfl⟩
  cases s with
  | declaredVariables => exact absurd rfl hs
  | messages => exact hbuild ⟨rfl, rfl⟩
  | portTypes => exact hbuild ⟨rfl, rfl⟩
  | ports => exact hbuild ⟨rfl, rfl⟩
  | declaredCorrelations => exact hbuild ⟨rfl, rfl⟩
  | shapes => exact hbuild ⟨rfl, rfl⟩
  | bindings =>
    refine hbuild ⟨?_, rfl⟩
    rw [warnings_correlate, warnings_correlate]

theorem run_alike {refusals' : Refusals} {ss : List Section}
    (hss : ∀ s ∈ ss, s ≠ .declaredVariables ∧ refusals s = refusals' s) (m m' : Model) :
    (run refusals d source m ss).Alike (run refusals' d source m' ss) := by
  induction ss generalizing m m' with
  | nil => exact ⟨rfl, rfl⟩
  | cons s rest ih =>
    obtain ⟨hs, h⟩ := hss s (by simp)
    rw [run_cons, run_cons, Section.step_congr hs h]
    exact (Section.step_alike hs m m').bind (ih fun s hs => hss s (by simp [hs]))

/-- The refusals without that of the variables. -/
def sparing (refusals : Refusals) : Refusals := fun s =>
  if s = .declaredVariables then none else refusals s

theorem sparing_of_ne {s : Section} (hs : s ≠ .declaredVariables) :
    refusals s = sparing refusals s := (if_neg hs).symm

/-- What is reported of variables that cannot be built. -/
def variablesWarning (r : Refusal) : Event :=
  .warning s!"Failed to parse service-level variable declarations: {r.cause}"

/-- From the variables on, a refusal of them is one more warning. -/
theorem variables_alike {r : Refusal} (hr : refusals .declaredVariables = some r)
    {f g : Model → Reported Model} (hfg : ∀ m m', (f m).Alike (g m')) (m : Model) :
    let x := Section.declaredVariables.step refusals d source m >>= f
    let y := Section.declaredVariables.step (sparing refusals) d source m >>= g
    warnings x.events = variablesWarning r :: warnings y.events ∧
      x.result.map (fun _ => ()) = y.result.map fun _ => () := by
  have hrefused : buildVariables refusals d m.tree = ⟨[variablesWarning r], .ok ([], m.tree)⟩ := by
    rw [buildVariables, hr]
    rfl
  have hspared : buildVariables (sparing refusals) d m.tree =
      ⟨declareEvents d variableType, .ok (declare d variableType m.tree)⟩ := rfl
  simp only [Section.step, bind_assoc, pure_bind]
  rw [hrefused, hspared, Reported.bind_of_ok rfl, Reported.bind_of_ok rfl]
  obtain ⟨hwarnings, houtcome⟩ := hfg { m with declaredVariables := [], tree := m.tree }
    { m with declaredVariables := (declare d variableType m.tree).1
             tree := (declare d variableType m.tree).2 }
  refine ⟨?_, houtcome⟩
  rw [warnings_append, warnings_append, warnings_declareEvents, hwarnings]
  rfl

/-! ## The assembly -/

theorem closing_alike (m m' : Model) :
    Reported.Alike ⟨closing d m, .ok m⟩ ⟨closing d m', .ok m'⟩ := by
  refine ⟨?_, rfl⟩
  rw [closing, closing, warnings_append, warnings_append]
  rfl

theorem assemble_sparing (hname : nameOf d ≠ "") {r : Refusal}
    (hr : refusals .declaredVariables = some r) :
    warnings (assemble refusals d source).events =
        (if (refusals .messages).isSome then [] else [variablesWarning r]) ++
          warnings (assemble (sparing refusals) d source).events ∧
      (assemble refusals d source).result.map (fun _ => ()) =
        (assemble (sparing refusals) d source).result.map fun _ => () := by
  obtain ⟨rest, hsections, hrest⟩ : ∃ rest,
      sections d = .messages :: .declaredVariables :: rest ∧ ∀ s ∈ rest, s ≠ .declaredVariables := by
    refine ⟨_, rfl, ?_⟩
    split <;> decide
  have hlater : ∀ m m', ((run refusals d source m rest) >>= fun m =>
        (⟨closing d m, .ok m⟩ : Reported Model)).Alike
      ((run (sparing refusals) d source m' rest) >>= fun m => ⟨closing d m, .ok m⟩) :=
    fun m m' => (run_alike (fun s hs => ⟨hrest s hs, sparing_of_ne (hrest s hs)⟩) m m').bind
      closing_alike
  have hne : Section.messages ≠ .declaredVariables := by decide
  rw [assemble_eq _ _ _ hname, assemble_eq _ _ _ hname, hsections]
  simp only [run_cons, bind_assoc]
  rw [← Section.step_congr hne (sparing_of_ne hne)]
  cases hm : refusals .messages with
  | some r' =>
    have hstop := Section.step_of_stops d source hne hm (blank d source)
    have herror := congrArg Reported.result hstop
    rw [Reported.bind_of_error herror, Reported.bind_of_error herror]
    exact ⟨rfl, rfl⟩
  | none =>
    have hstep : Section.messages.step refusals d source (blank d source) =
        pure { blank d source with messages := d.messages } := by
      rw [Section.step, Section.build_of_none hm]
      rfl
    rw [hstep, pure_bind, pure_bind]
    exact variables_alike hr hlater _

theorem exists_first_stop {ss : List Section} (h : ¬ ∀ s ∈ ss, ¬ s.Stops refusals) :
    ∃ before s after, ss = before ++ s :: after ∧ (∀ s' ∈ before, ¬ s'.Stops refusals) ∧
      s.Stops refusals := by
  have hsome : (ss.find? fun s => decide (s.Stops refusals)).isSome := by
    rw [List.find?_isSome]
    simpa using h
  obtain ⟨s, hs⟩ := Option.isSome_iff_exists.mp hsome
  obtain ⟨hstops, before, after, hsplit, hbefore⟩ := List.find?_eq_some_iff_append.mp hs
  exact ⟨before, s, after, hsplit, by simpa using hbefore, by simpa using hstops⟩

variable (source) in
theorem assemble_complete (hname : nameOf d ≠ "") (h : ∀ s ∈ sections d, ¬ s.Stops refusals) :
    ∃ m, (assemble refusals d source).result = .ok m := by
  obtain ⟨m, hm⟩ := run_ok d source h (blank d source)
  rw [assemble_eq refusals d source hname, Reported.bind_of_ok hm]
  exact ⟨m, rfl⟩

variable (source) in
theorem assemble_stopped (hname : nameOf d ≠ "") {before after : List Section} {s : Section}
    (hsplit : sections d = before ++ s :: after) (hbefore : ∀ s' ∈ before, ¬ s'.Stops refusals)
    {r : Refusal} (hs : s ≠ .declaredVariables) (hr : refusals s = some r) :
    assemble refusals d source =
      ⟨(run refusals d source (blank d source) before).events,
        .error (s.failure (nameOf d) source r)⟩ := by
  have hrun := run_stopped d source hbefore hs hr after (blank d source)
  rw [assemble_eq refusals d source hname, hsplit, hrun, Reported.bind_of_error rfl]

/-- For every document that has a name, whatever sections are refused and why. There is a model
exactly when no section but that of the variables is refused. Otherwise the first refused section
of the others decides: its failure is that of the assembly, and what is reported is what the
sections before it report. Refused variables change nothing in this; they are one more warning,
unless the assembly has ended before them. -/
theorem assemble_sections (hname : nameOf d ≠ "") (refusals : Refusals) (source : String) :
    ((∃ m, (assemble refusals d source).result = .ok m) ↔
        ∀ s ∈ sections d, ¬ s.Stops refusals) ∧
      (∀ f, (assemble refusals d source).result = .error f →
        ∃ before s after r, sections d = before ++ s :: after ∧
          (∀ s' ∈ before, ¬ s'.Stops refusals) ∧ s ≠ .declaredVariables ∧ refusals s = some r ∧
          f = s.failure (nameOf d) source r ∧
          (assemble refusals d source).events =
            (run refusals d source (blank d source) before).events) ∧
      ∀ r, refusals .declaredVariables = some r →
        warnings (assemble refusals d source).events =
            (if (refusals .messages).isSome then [] else [variablesWarning r]) ++
              warnings (assemble (sparing refusals) d source).events ∧
          (assemble refusals d source).result.map (fun _ => ()) =
            (assemble (sparing refusals) d source).result.map fun _ => () := by
  refine ⟨?_, ?_, fun r hr => assemble_sparing hname hr⟩
  · refine ⟨fun ⟨m, hm⟩ s hmem ⟨hs, hsome⟩ => ?_, assemble_complete source hname⟩
    have hstop : ¬ ∀ s ∈ sections d, ¬ s.Stops refusals := fun h => h s hmem ⟨hs, hsome⟩
    obtain ⟨before, s, after, hsplit, hbefore, hs, hsome⟩ := exists_first_stop hstop
    obtain ⟨r, hr⟩ := Option.isSome_iff_exists.mp hsome
    rw [assemble_stopped source hname hsplit hbefore hs hr] at hm
    cases hm
  · intro f hf
    have hstop : ¬ ∀ s ∈ sections d, ¬ s.Stops refusals := fun h => by
      obtain ⟨m, hm⟩ := assemble_complete source hname h
      rw [hf] at hm
      cases hm
    obtain ⟨before, s, after, hsplit, hbefore, hs, hsome⟩ := exists_first_stop hstop
    obtain ⟨r, hr⟩ := Option.isSome_iff_exists.mp hsome
    have heq := assemble_stopped source hname hsplit hbefore hs hr
    rw [heq] at hf ⊢
    exact ⟨before, s, after, r, hsplit, hbefore, hs, hr, (Except.error.inj hf).symm, rfl⟩

/-- Variables, ports and the body are refused, the first of them with a failure of their own. -/
def threeRefusals : Refusals
  | .declaredVariables => some (.known ⟨.malformed, "inner"⟩)
  | .ports => some (.other "no port")
  | .shapes => some (.other "no shape")
  | _ => none

/-- The ports decide, and the variables are one warning more than without their refusal. -/
theorem assemble_sections_counted :
    nameOf counted ≠ "" ∧ (¬ ∃ m, (assemble threeRefusals counted "orders.odx").result = .ok m) ∧
      (assemble threeRefusals counted "orders.odx").result.map (fun _ => ()) =
        .error ⟨.section "Orders" "ports" "no port", "orders.odx"⟩ ∧
      warnings (assemble threeRefusals counted "orders.odx").events =
        [.warning ("Failed to parse service-level variable declarations: " ++
          "Failed to parse XML in orchestration file 'inner'")] := by
  have hname : nameOf counted ≠ "" := by decide +kernel
  obtain ⟨hmodel, -, hvariables⟩ := assemble_sections hname threeRefusals "orders.odx"
  obtain ⟨hwarnings, -⟩ := hvariables _ rfl
  have hports : Section.ports ∈ sections counted := by decide +kernel
  refine ⟨hname, fun h => hmodel.mp h .ports hports (by decide), by decide +kernel, ?_⟩
  rw [hwarnings]
  decide +kernel

end Orchestration.Model
