import Mathlib.Data.List.Nodup
import Orchestration.Proofs.Shape.Reading

/-!
# Orchestration.Proofs.Shape.Decision

How the branches of a decision are told apart.

* `Taken` — the branch that is taken when the condition holds, and the other branches.
* `Tree.Condition` — where the condition of a decision comes from.
* `Tree.Decided` — the node of a decision: its condition and its two slots.
* `Tree.read_decide` — how a decision that is read at any depth is divided.
-/

namespace Orchestration.Shape

open Designer (Element)

/-! ## The branches -/

/-- The first branch with a condition is taken when the condition holds, without any condition the
first branch of all. -/
inductive Taken : List Element → Element → List Element → Prop where
  | conditioned {before after : List Element} {b : Element} :
      (∀ c ∈ before, Text.blank (expressionOf c) = true) → Text.blank (expressionOf b) = false →
      Taken (before ++ b :: after) b (before ++ after)
  | first {b : Element} {rest : List Element} :
      (∀ c ∈ b :: rest, Text.blank (expressionOf c) = true) → Taken (b :: rest) b rest

theorem exists_taken {bs : List Element} (h : bs ≠ []) : ∃ b others, Taken bs b others := by
  by_cases hall : ∀ c ∈ bs, Text.blank (expressionOf c) = true
  · cases bs with
    | nil => exact absurd rfl h
    | cons b rest => exact ⟨b, rest, .first hall⟩
  · have hany : (bs.find? fun c => !Text.blank (expressionOf c)).isSome = true := by
      simpa using hall
    obtain ⟨b, hfind⟩ := Option.isSome_iff_exists.mp hany
    obtain ⟨hb, before, after, rfl, hbefore⟩ := List.find?_eq_some_iff_append.mp hfind
    exact ⟨b, before ++ after, .conditioned (by simpa using hbefore) (by simpa using hb)⟩

theorem findIdx?_blank {bs : List Element}
    (h : ∀ c ∈ bs, Text.blank (expressionOf c) = true) :
    bs.findIdx? (fun c => !Text.blank (expressionOf c)) = none := by
  simpa [List.findIdx?_eq_none_iff] using h

theorem findIdx?_conditioned {before : List Element} {b : Element} (after : List Element)
    (hbefore : ∀ c ∈ before, Text.blank (expressionOf c) = true)
    (hb : Text.blank (expressionOf b) = false) :
    (before ++ b :: after).findIdx? (fun c => !Text.blank (expressionOf c)) =
      some before.length := by
  rw [List.findIdx?_append, findIdx?_blank hbefore, List.findIdx?_cons]
  simp [hb]

/-- Where the branch that is taken has no condition, none has. -/
theorem Taken.blank {bs others : List Element} {b : Element} (h : Taken bs b others)
    (hb : Text.blank (expressionOf b) = true) : ∀ c ∈ bs, Text.blank (expressionOf c) = true := by
  cases h with
  | conditioned _ hb' => simp [hb] at hb'
  | first hall => exact hall

theorem Taken.unique {bs others others' : List Element} {b b' : Element} (h : Taken bs b others)
    (h' : Taken bs b' others') : b = b' ∧ others = others' := by
  -- both ways to cut the list do so at its first condition
  cases h with
  | @conditioned before after _ hbefore hb =>
    generalize hbs : before ++ b :: after = bs at h'
    cases h' with
    | @conditioned before' after' _ hbefore' hb' =>
      have hlength : some before.length = some before'.length := by
        rw [← findIdx?_conditioned after hbefore hb, hbs,
          findIdx?_conditioned after' hbefore' hb']
      obtain ⟨rfl, hrest⟩ := List.append_inj hbs (Option.some.inj hlength)
      obtain ⟨rfl, rfl⟩ := List.cons.inj hrest
      exact ⟨rfl, rfl⟩
    | first hall =>
      have hblank := hall b (by simp [← hbs])
      simp [hb] at hblank
  | first hall =>
    generalize hbs : b :: others = bs at h'
    cases h' with
    | @conditioned before' after' _ _ hb' =>
      have hblank := hall b' (by simp [hbs])
      simp [hb'] at hblank
    | first _ => exact List.cons.inj hbs

/-- No branch is lost between the two. -/
theorem Taken.perm {bs others : List Element} {b : Element} (h : Taken bs b others) :
    bs.Perm (b :: others) := by
  cases h with
  | conditioned _ _ => exact List.perm_middle
  | first _ => exact List.Perm.refl _

namespace Decision

variable {e b : Element} {others : List Element}

theorem ofElement_blank (h : ∀ c ∈ e.select decisionTypes, Text.blank (expressionOf c) = true) :
    ofElement e = ⟨nestedExpression e, none, (e.select decisionTypes).length⟩ := by
  have hnone := findIdx?_blank h
  rw [decisionTypes] at hnone ⊢
  rw [ofElement, List.findIdx?_map, Function.comp_def, hnone, List.length_map]
  rfl

theorem ofElement_conditioned {before after : List Element}
    (he : e.select decisionTypes = before ++ b :: after)
    (hbefore : ∀ c ∈ before, Text.blank (expressionOf c) = true)
    (hb : Text.blank (expressionOf b) = false) :
    ofElement e =
      ⟨expressionOf b, some before.length, (e.select decisionTypes).length⟩ := by
  have hfirst := findIdx?_conditioned after hbefore hb
  rw [← he] at hfirst
  have hcondition : ((e.select decisionTypes).map expressionOf)[before.length]? =
      some (expressionOf b) := by
    rw [he]
    simp
  rw [decisionTypes] at hfirst hcondition ⊢
  rw [ofElement, List.findIdx?_map, Function.comp_def, hfirst, Option.bind_some, hcondition,
    List.length_map]
  rfl

theorem condition_of_taken (h : Taken (e.select decisionTypes) b others)
    (hb : Text.blank (expressionOf b) = false) : (ofElement e).condition = expressionOf b := by
  generalize hbs : e.select decisionTypes = bs at h
  cases h with
  | conditioned hbefore _ => rw [ofElement_conditioned hbs hbefore hb]
  | first hall => simp [hall b (List.mem_cons_self ..)] at hb

/-- The indices of a decision point to the branch that is taken and to the first of the others. -/
theorem branches_of_taken (h : Taken (e.select decisionTypes) b others) :
    (e.select decisionTypes)[(ofElement e).whenTrue]? = some b ∧
      (e.select decisionTypes)[(ofElement e).whenFalse]? = others.head? := by
  generalize hbs : e.select decisionTypes = bs at h
  cases h with
  | @conditioned before after _ hbefore hb =>
    have hd := ofElement_conditioned hbs hbefore hb
    cases before with
    | nil => simp [hd, whenTrue, whenFalse, List.head?_eq_getElem?]
    | cons c rest => simp [hd, whenTrue, whenFalse]
  | first hall =>
    have hd := ofElement_blank (e := e) (by rwa [hbs])
    simp [hd, whenTrue, whenFalse, List.head?_eq_getElem?]

end Decision

theorem Form.ofType_decide {type : String}
    (h : Text.lower type ∈ ["decision", "decide", "if", "ifelse"]) : ofType type = .decide := by
  have hrows : ∀ name ∈ ["decision", "decide", "if", "ifelse"], (name, Form.decide) ∈ table := by
    decide
  exact ofType_of_mem_table (hrows _ h)

/-! ## The condition -/

namespace Tree

/-- The condition of a decision: that of the first branch with one; without any that of the
expression beside the branches; and when this is blank that of the first expression directly in the
branch that is taken, if there is one. -/
inductive Condition (t : Tree) (e : Element) (whenTrue : List Handle) : String → Prop where
  | branch {b : Element} {others : List Element} :
      Taken (e.select decisionTypes) b others → Text.blank (expressionOf b) = false →
      Condition t e whenTrue (expressionOf b)
  | beside :
      (∀ c ∈ e.select decisionTypes, Text.blank (expressionOf c) = true) →
      (Text.blank (nestedExpression e) = false ∨
        ∀ n ∈ t.resolve whenTrue, n.kind ≠ .expression) →
      Condition t e whenTrue (nestedExpression e)
  | promoted {n : Node} {text : String} :
      (∀ c ∈ e.select decisionTypes, Text.blank (expressionOf c) = true) →
      Text.blank (nestedExpression e) = true →
      (t.resolve whenTrue).find? (fun n => n.kind == .expression) = some n →
      n.payload = .expression text → Condition t e whenTrue text

variable {t : Tree} {owner : Handle}

/-- The node of an expression has the expression's text. -/
theorem Carries.exists_expression {o : Outline} {h : Handle} (hc : t.Carries owner o h)
    (ho : o.Proper) : ∃ n, t.node? h = some n ∧ n.kind = o.sketch.kind ∧
      (n.kind = .expression →
        ∃ text, o.expression? = some text ∧ n.payload = .expression text) := by
  obtain ⟨path, sequence, regions, children, uses, hn⟩ := hc
  refine ⟨_, hn, rfl, fun hk => ?_⟩
  have hkind : o.sketch.kind = .expression := hk
  have hsuits := ho.fresh.suits
  rw [hkind] at hsuits
  obtain ⟨text, hp⟩ := Payload.expression_of_suits hsuits
  refine ⟨text, by simp [Outline.expression?, hkind, hp], ?_⟩
  have hfurnish : (Payload.expression text).furnish regions = .expression text :=
    Payload.furnish_of_put (fun slot _ => by cases slot <;> rfl) regions
  simp only [Node.bindAll, Sketch.owner, hp, hfurnish]
  exact Payload.bindAll_of_not_receive uses (by simp)

/-- The first expression among outlines and the first among their nodes are the same. -/
theorem find_expression {os : List Outline} {hs : List Handle}
    (h : List.Forall₂ (t.Carries owner) os hs) (hos : ∀ o ∈ os, o.Proper) :
    (∀ o ∈ os, o.sketch.kind ≠ .expression) ∧ (∀ n ∈ t.resolve hs, n.kind ≠ .expression) ∨
      ∃ o n text, os.find? (fun o => o.sketch.kind == .expression) = some o ∧
        (t.resolve hs).find? (fun n => n.kind == .expression) = some n ∧
        o.expression? = some text ∧ n.payload = .expression text := by
  induction h with
  | nil => exact .inl ⟨by simp, by simp [resolve]⟩
  | @cons o c os hs hfirst hrest ih =>
    obtain ⟨n, hn, hkind, hexpression⟩ := hfirst.exists_expression (hos o (by simp))
    have hresolve : t.resolve (c :: hs) = n :: t.resolve hs := by simp [resolve, hn]
    rw [hresolve]
    by_cases hk : n.kind = .expression
    · obtain ⟨text, ho, hp⟩ := hexpression hk
      exact .inr ⟨o, n, text, by simp [← hkind, hk], by simp [hk], ho, hp⟩
    · have hko : o.sketch.kind ≠ .expression := hkind ▸ hk
      rcases ih fun o ho => hos o (by simp [ho]) with ⟨hno, hnn⟩ | ⟨o', n', text, ho', hn', hrest⟩
      · exact .inl ⟨by simpa [hko] using hno, by simpa [hk] using hnn⟩
      · exact .inr ⟨o', n', text, by simpa [hko] using ho', by simpa [hk] using hn', hrest⟩

/-- The condition that the outline of a decision has. -/
def conditionOf (e : Element) (os : List Outline) : String :=
  ((Outline.promoted? (Decision.ofElement e).condition os).bind Outline.expression?).getD
    (Decision.ofElement e).condition

/-- Without a condition among the branches. -/
theorem condition_blank {e : Element} {os : List Outline} {whenTrue : List Handle}
    (hblank : ∀ c ∈ e.select decisionTypes, Text.blank (expressionOf c) = true)
    (h : List.Forall₂ (t.Carries owner) os whenTrue) (hos : ∀ o ∈ os, o.Proper) :
    t.Condition e whenTrue (conditionOf e os) := by
  unfold conditionOf
  rw [Decision.ofElement_blank hblank]
  cases hbeside : Text.blank (nestedExpression e) with
  | false =>
    have hnone : Outline.promoted? (nestedExpression e) os = none := by
      simp [Outline.promoted?, hbeside]
    rw [hnone]
    exact .beside hblank (.inl hbeside)
  | true =>
    have hfind : Outline.promoted? (nestedExpression e) os =
        os.find? fun o => o.sketch.kind == .expression := by
      simp [Outline.promoted?, hbeside]
    rw [hfind]
    rcases find_expression h hos with ⟨hno, hnn⟩ | ⟨o, n, text, ho, hn, hexpression, hp⟩
    · have hnone : os.find? (fun o => o.sketch.kind == .expression) = none := by simpa using hno
      rw [hnone]
      exact .beside hblank (.inr hnn)
    · rw [ho, Option.bind_some, hexpression]
      exact .promoted hblank hbeside hn hp

theorem condition_of_taken {e b : Element} {others : List Element} {os : List Outline}
    {whenTrue : List Handle} (htaken : Taken (e.select decisionTypes) b others)
    (h : List.Forall₂ (t.Carries owner) os whenTrue) (hos : ∀ o ∈ os, o.Proper) :
    t.Condition e whenTrue (conditionOf e os) := by
  cases hb : Text.blank (expressionOf b) with
  | true => exact condition_blank (htaken.blank hb) h hos
  | false =>
    have hnone : Outline.promoted? (expressionOf b) os = none := by simp [Outline.promoted?, hb]
    unfold conditionOf
    rw [Decision.condition_of_taken htaken hb, hnone]
    exact .branch htaken hb

/-! ## The node -/

/-- The slots of a decision: the content of the branch that is taken when the condition holds, and
that of the first of the others. -/
inductive Divides (t : Tree) (owner : Handle) (e : Element) :
    List Handle → List Handle → Prop where
  | none : e.select decisionTypes = [] → Divides t owner e [] []
  | branches {b : Element} {others : List Element} {whenTrue whenFalse : List Handle} :
      Taken (e.select decisionTypes) b others → t.Renders owner b.children whenTrue →
      t.Renders owner ((others.take 1).flatMap Element.children) whenFalse →
      Divides t owner e whenTrue whenFalse

/-- The node of a decision, its condition and its two slots. -/
structure Decided (t : Tree) (h : Handle) (e : Element) (n : Node) (condition : String)
    (whenTrue whenFalse : List Handle) : Prop where
  node : t.node? h = some n
  payload : n.payload = .decide condition whenTrue whenFalse
  condition : t.Condition e whenTrue condition
  divides : t.Divides h e whenTrue whenFalse
  nodup : (whenTrue ++ whenFalse).Nodup
  parent : ∀ c ∈ whenTrue ++ whenFalse, ∃ m, t.node? c = some m ∧ m.parent = some h

theorem Renders.eq_nil {hs : List Handle} (h : t.Renders owner [] hs) : hs = [] := by
  cases h.shows
  rfl

/-- The region of a sort that there is once, or not at all. -/
theorem renders_slot {regions : List (Slot × List Outline)} {rs : List (Slot × List Handle)}
    (h : List.Forall₂ (t.Region owner) regions rs) {slot : Slot} {b? : Option Element}
    (hone : (regions.filter fun r => r.1 == slot) =
      b?.toList.map fun b => (slot, Outline.ofElements b.children)) :
    t.Renders owner (b?.toList.flatMap Element.children) (inSlot slot rs) := by
  have hregions := regions_filter h slot
  rw [hone] at hregions
  unfold inSlot
  generalize rs.filter (fun r => r.1 == slot) = kept at hregions
  cases b? with
  | none =>
    cases hregions
    exact renders_of_lodges ⟨0, "", rfl, by simp [Keeps, Outline.ofElements, Outline.laidAll]⟩
  | some b =>
    cases hregions with
    | cons hfirst hrest =>
      cases hrest
      simpa using renders_of_lodges hfirst.lodges

/-- What the outline of a decision gives its node. -/
theorem Furnished.decided {h : Handle} {e : Element} {s : Sketch} {n : Node}
    {rs : List (Slot × List Handle)} {chosen other : Option Element}
    (hchosen : (e.select decisionTypes)[(Decision.ofElement e).whenTrue]? = chosen)
    (hother : (e.select decisionTypes)[(Decision.ofElement e).whenFalse]? = other)
    (hf : t.Furnished h (Outline.decide s (Decision.ofElement e)
      ((e.select decisionTypes).map fun c => Outline.ofElements c.children)) n rs) :
    n.payload = .decide
        (conditionOf e (Outline.ofElements (chosen.toList.flatMap Element.children)))
        (inSlot .whenTrue rs) (inSlot .whenFalse rs) ∧
      t.Renders h (chosen.toList.flatMap Element.children) (inSlot .whenTrue rs) ∧
      t.Renders h (other.toList.flatMap Element.children) (inSlot .whenFalse rs) := by
  have hshapes : ((chosen.map fun c => Outline.ofElements c.children).getD []) =
      Outline.ofElements (chosen.toList.flatMap Element.children) := by
    cases chosen <;> simp [Outline.ofElements]
  obtain ⟨uses, hp⟩ := hf.payload
  refine ⟨?_, renders_slot hf.regions ?_, renders_slot hf.regions ?_⟩
  · rw [hp, Outline.decide, Payload.furnish_decide, Payload.bindAll_of_not_receive uses (by simp),
      List.getElem?_map, hchosen, hshapes]
    rfl
  · cases chosen <;> simp [Outline.decide, hchosen, List.filter_map, Function.comp_def]
  · cases other <;> simp [Outline.decide, hother, List.filter_map, Function.comp_def]

theorem read_decided (t : Tree) (c : Context) {parent : Option Handle} (es : List Element)
    (roots : List Handle) (hparent : ∀ p, parent = some p → p < t.size) {i : Nat} {e : Element}
    (h : Outline.Reached es i e) (he : Form.ofType e.type = .decide) :
    ∃ n condition whenTrue whenFalse,
      (t.read c parent es roots).Decided (t.size + i) e n condition whenTrue whenFalse := by
  obtain ⟨n, s, rs, -, hproper, hf⟩ := t.read_reached c es roots hparent h he
  have hnodup := hf.handles_nodup hproper
  have hmembers := hf.exists_parent hproper
  by_cases hnone : e.select decisionTypes = []
  · have hempty : ∀ k : Nat, (e.select decisionTypes)[k]? = none := by simp [hnone]
    obtain ⟨hp, hwhenTrue, hwhenFalse⟩ := hf.decided (hempty _) (hempty _)
    rw [hp, Payload.handles_decide] at hnodup hmembers
    have hcondition := condition_blank (e := e) (by simp [hnone]) hwhenTrue.lodges.carries
      (by simp [Outline.ofElements])
    refine ⟨n, _, _, _, hf.node, hp, hcondition, ?_, hnodup, hmembers⟩
    rw [hwhenTrue.eq_nil, hwhenFalse.eq_nil]
    exact .none hnone
  · obtain ⟨b, others, htaken⟩ := exists_taken hnone
    obtain ⟨htrue, hfalse⟩ := Decision.branches_of_taken htaken
    obtain ⟨hp, hwhenTrue, hwhenFalse⟩ := hf.decided htrue hfalse
    rw [hp, Payload.handles_decide] at hnodup hmembers
    rw [Option.toList_some, List.flatMap_singleton] at hwhenTrue hp
    have hcondition := condition_of_taken htaken hwhenTrue.lodges.carries
      ((Outline.properAll_iff _).mp (Outline.ofElements_proper _))
    exact ⟨n, _, _, _, hf.node, hp, hcondition,
      .branches htaken hwhenTrue (by rwa [List.take_one]), hnodup, hmembers⟩

theorem Condition.eq_nested {e : Element} {condition : String} (h : t.Condition e [] condition)
    (he : e.select decisionTypes = []) : condition = nestedExpression e := by
  cases h with
  | branch htaken _ =>
    rw [he] at htaken
    simpa using htaken.perm
  | beside _ _ => rfl
  | promoted _ _ hfind _ => simp [resolve] at hfind

namespace Decided

variable {h : Handle} {e b : Element} {n : Node} {condition : String}
  {whenTrue whenFalse : List Handle} {others : List Element}

theorem renders (hd : t.Decided h e n condition whenTrue whenFalse)
    (htaken : Taken (e.select decisionTypes) b others) :
    t.Renders h b.children whenTrue ∧
      t.Renders h ((others.take 1).flatMap Element.children) whenFalse := by
  cases hd.divides with
  | none hnone =>
    rw [hnone] at htaken
    cases htaken.perm.nil_eq
  | branches htaken' hwhenTrue hwhenFalse =>
    obtain ⟨rfl, rfl⟩ := htaken.unique htaken'
    exact ⟨hwhenTrue, hwhenFalse⟩

/-- What the slots do not hold is what stands in the branches beyond the two. -/
theorem conserves (hd : t.Decided h e n condition whenTrue whenFalse)
    (htaken : Taken (e.select decisionTypes) b others) :
    (whenTrue ++ whenFalse).length + (sketches ((others.drop 1).flatMap Element.children)).length =
      (sketches ((e.select decisionTypes).flatMap Element.children)).length := by
  obtain ⟨hwhenTrue, hwhenFalse⟩ := hd.renders htaken
  have hall : (sketches ((e.select decisionTypes).flatMap Element.children)).length =
      (sketches ((b :: others).flatMap Element.children)).length :=
    ((htaken.perm.flatMap_right _).filterMap _).length_eq
  have hothers : (sketches (others.flatMap Element.children)).length =
      (sketches ((others.take 1).flatMap Element.children)).length +
        (sketches ((others.drop 1).flatMap Element.children)).length := by
    rw [← List.length_append, ← sketches_append, ← List.flatMap_append, List.take_append_drop]
  rw [hall, List.flatMap_cons, sketches_append, List.length_append, List.length_append, hothers,
    hwhenTrue.shows.length, hwhenFalse.shows.length, Nat.add_assoc]

/-- Of two branches no shape is lost. -/
theorem exists_handle (hd : t.Decided h e n condition whenTrue whenFalse)
    (hlength : (e.select decisionTypes).length ≤ 2) (hb : b ∈ e.select decisionTypes) {c : Element}
    (hc : c ∈ b.children) {s : Sketch} (hs : Sketch.ofElement? c = some s) :
    ∃ x ∈ whenTrue ++ whenFalse, ∃ n', t.node? x = some n' ∧ n'.Depicts s := by
  obtain ⟨b', others, htaken⟩ := exists_taken (List.ne_nil_of_mem hb)
  obtain ⟨hwhenTrue, hwhenFalse⟩ := hd.renders htaken
  have hone : others.take 1 = others := by
    have hperm := htaken.perm.length_eq
    rw [List.length_cons] at hperm
    exact List.take_of_length_le (by omega)
  rw [hone] at hwhenFalse
  rcases List.mem_cons.mp (htaken.perm.mem_iff.mp hb) with rfl | hother
  · obtain ⟨x, hx, hn⟩ := hwhenTrue.shows.exists_handle hc hs
    exact ⟨x, List.mem_append_left _ hx, hn⟩
  · obtain ⟨x, hx, hn⟩ :=
      hwhenFalse.shows.exists_handle (List.mem_flatMap.mpr ⟨b, hother, hc⟩) hs
    exact ⟨x, List.mem_append_right _ hx, hn⟩

end Decided

/-- A decision takes the first branch with a condition, else the first branch, and of two branches
the other one when the condition does not hold; its slots have no shape in common. -/
theorem read_decide (t : Tree) (c : Context) {parent : Option Handle} (es : List Element)
    (roots : List Handle) (hparent : ∀ p, parent = some p → p < t.size) {i : Nat} {e : Element}
    (h : Outline.Reached es i e)
    (he : Text.lower e.type ∈ ["decision", "decide", "if", "ifelse"]) :
    ∃ n condition whenTrue whenFalse,
      (t.read c parent es roots).node? (t.size + i) = some n ∧
      n.payload = .decide condition whenTrue whenFalse ∧
      (t.read c parent es roots).Condition e whenTrue condition ∧
      (e.select decisionTypes = [] ∧ whenTrue = [] ∧ whenFalse = [] ∧
          condition = nestedExpression e ∨
        ∃ b others, Taken (e.select decisionTypes) b others ∧
          (t.read c parent es roots).Renders (t.size + i) b.children whenTrue ∧
          (others.length ≤ 1 → (t.read c parent es roots).Renders (t.size + i)
            (others.flatMap Element.children) whenFalse)) ∧
      whenTrue.Disjoint whenFalse ∧
      ∀ c' ∈ whenTrue ++ whenFalse, ∃ m, (t.read c parent es roots).node? c' = some m ∧
        m.parent = some (t.size + i) := by
  obtain ⟨n, condition, whenTrue, whenFalse, hd⟩ :=
    t.read_decided c es roots hparent h (Form.ofType_decide he)
  refine ⟨n, condition, whenTrue, whenFalse, hd.node, hd.payload, hd.condition, ?_,
    List.disjoint_of_nodup_append hd.nodup, hd.parent⟩
  have hcondition := hd.condition
  cases hd.divides with
  | none hnone => exact .inl ⟨hnone, rfl, rfl, hcondition.eq_nested hnone⟩
  | @branches b others _ _ htaken hwhenTrue hwhenFalse =>
    refine .inr ⟨b, others, htaken, hwhenTrue, fun hlength => ?_⟩
    rwa [List.take_of_length_le hlength] at hwhenFalse

/-- An element with an expression of its own. -/
def stated (type text : String) : Element :=
  ⟨some type, none, [⟨some "Expression", some text⟩], []⟩

/-- A branch without a condition. -/
def plainBranch : Element := untold "DecisionBranch" [untold "Delay" []]

/-- A branch whose condition is nested in it. -/
def statedBranch : Element :=
  untold "DecisionBranch" [stated "Expression" "x > 1", untold "Delay" []]

def choice : Element := untold "If" [plainBranch, statedBranch]

/-- What is read when the decision stands in a scope. -/
def choiceTree : Tree := empty.read ⟨"body", 0⟩ none [untold "Scope" [choice]] []

/-- The second branch is taken, for it has the condition. -/
theorem read_decide_choice :
    (∀ p, (none : Option Handle) = some p → p < empty.size) ∧
      Outline.Reached [untold "Scope" [choice]] 1 choice ∧
      Text.lower choice.type ∈ ["decision", "decide", "if", "ifelse"] ∧
      choiceTree.Condition choice [2, 3] "x > 1" ∧
      choiceTree.Renders 1 statedBranch.children [2, 3] ∧
      choiceTree.Renders 1 plainBranch.children [4] := by
  have hreached : Outline.Reached [untold "Scope" [choice]] 1 choice := ⟨_, rfl, rfl⟩
  have htype : Text.lower choice.type ∈ ["decision", "decide", "if", "ifelse"] := by decide
  obtain ⟨n, condition, whenTrue, whenFalse, hn, hp, hcondition, hslots, -⟩ :=
    read_decide empty ⟨"body", 0⟩ [untold "Scope" [choice]] [] (lt_of_no_parent _) hreached
      htype
  have hnode : (choiceTree.node? 1).map Node.payload = some (.decide "x > 1" [2, 3] [4]) := by
    decide +kernel
  have hn' : choiceTree.node? 1 = some n := hn
  rw [hn', Option.map_some, hp] at hnode
  obtain ⟨rfl, rfl, rfl⟩ := Payload.decide.inj (Option.some.inj hnode)
  refine ⟨lt_of_no_parent _, hreached, htype, hcondition, ?_⟩
  rcases hslots with ⟨hnone, -⟩ | ⟨b, others, htaken, hwhenTrue, hwhenFalse⟩
  · cases hnone
  · have hsecond : Taken ([plainBranch] ++ statedBranch :: []) statedBranch ([plainBranch] ++ []) :=
      .conditioned (by decide) (by decide)
    obtain ⟨rfl, rfl⟩ := htaken.unique hsecond
    have hother := hwhenFalse (Nat.le_refl 1)
    rw [List.append_nil, List.flatMap_singleton] at hother
    exact ⟨hwhenTrue, hother⟩

end Tree

end Orchestration.Shape
