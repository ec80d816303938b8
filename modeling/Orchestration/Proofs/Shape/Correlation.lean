import Orchestration.Proofs.Shape.Walk
import Orchestration.Shape.Correlation

/-!
# Orchestration.Proofs.Shape.Correlation

What binding correlation sets does to a tree, in closed form.

* `Node.bindAll` — a node after some uses have been entered into it.
* `Tree.target?` — the receive that a use refers to.
* `Correlated.node?_run` — after a run over some uses every node is what it was, with the uses that
  refer to it entered in order; the index is unchanged.
* `Payload.bindAll_receive` — a receive then lists the names of these uses, each at its first
  place.
-/

namespace Orchestration.Shape

/-! ## One list of names -/

/-- Enters a name that is not there yet at the end of a list. -/
def enterName (names : List String) (name : String) : List String :=
  if names.contains name then names else names ++ [name]

/-- Names are entered at their first places, those that are there already left out. -/
theorem foldl_enterName (names seen : List String) :
    names.foldl enterName seen =
      seen ++ (names.filter fun name => !seen.contains name).eraseDups := by
  induction names generalizing seen with
  | nil => simp
  | cons name rest ih =>
    rw [List.foldl_cons, ih]
    by_cases h : seen.contains name = true
    · simp only [enterName, h, if_true, Bool.not_true, Bool.false_eq_true, not_false_eq_true,
        List.filter_cons_of_neg]
    · have hfilter : (rest.filter fun x => !(seen ++ [name]).contains x) =
          (rest.filter fun x => !seen.contains x).filter fun x => !x == name := by
        rw [List.filter_filter]
        refine List.filter_congr fun x _ => ?_
        simp [List.contains_eq_mem, Bool.and_comm, beq_eq_decide]
      simp only [enterName, h, if_false, Bool.false_eq_true]
      rw [hfilter, List.filter_cons_of_pos (by simpa using h), List.eraseDups_cons,
        List.append_assoc]
      rfl

/-! ## One node -/

namespace Payload

/-- Enters a use unless it is listed already. -/
def enter (p : Payload) (b : Binding) : Payload := if p.uses b then p else p.bind b

/-- The names of the uses in one of the two roles. -/
def namesIn (role : Bool) (bs : List Binding) : List String :=
  (bs.filter fun b => b.ref.initializes == role).map Binding.name

theorem bind_of_not_receive (b : Binding) {p : Payload}
    (h : ∀ x activate initializes follows, p ≠ .receive x activate initializes follows) :
    p.bind b = p := by
  cases p with
  | receive x activate initializes follows => exact absurd rfl (h x activate initializes follows)
  | _ => rfl

theorem enter_receive (b : Binding) (x : Exchange) (activate : Bool)
    (initializes follows : List String) :
    (Payload.receive x activate initializes follows).enter b =
      if b.ref.initializes then .receive x activate (enterName initializes b.name) follows
      else .receive x activate initializes (enterName follows b.name) := by
  cases hr : b.ref.initializes with
  | true =>
    simp only [enter, uses, bind, hr, enterName, if_true]
    split <;> rfl
  | false =>
    simp only [enter, uses, bind, hr, enterName, Bool.false_eq_true, if_false]
    split <;> rfl

theorem enter_of_not_receive (b : Binding) {p : Payload}
    (h : ∀ x activate initializes follows, p ≠ .receive x activate initializes follows) :
    p.enter b = p := by
  unfold enter
  rw [bind_of_not_receive b h, ite_self]

theorem bindAll_receive (bs : List Binding) (x : Exchange) (activate : Bool)
    (initializes follows : List String) :
    bs.foldl enter (.receive x activate initializes follows) =
      .receive x activate ((namesIn true bs).foldl enterName initializes)
        ((namesIn false bs).foldl enterName follows) := by
  induction bs generalizing initializes follows with
  | nil => rfl
  | cons b rest ih =>
    rw [List.foldl_cons, enter_receive]
    cases h : b.ref.initializes with
    | true => simp [namesIn, h, ih]
    | false => simp [namesIn, h, ih]

theorem bindAll_of_not_receive (bs : List Binding) {p : Payload}
    (h : ∀ x activate initializes follows, p ≠ .receive x activate initializes follows) :
    bs.foldl enter p = p := by
  induction bs with
  | nil => rfl
  | cons b rest ih => rw [List.foldl_cons, enter_of_not_receive b h, ih]

theorem handles_bindAll (bs : List Binding) (p : Payload) :
    (bs.foldl enter p).handles = p.handles := by
  cases p with
  | receive x activate initializes follows =>
    rw [bindAll_receive]
    rfl
  | _ => rw [bindAll_of_not_receive bs (by simp)]

end Payload

namespace Node

/-- A node after some uses have been entered. -/
def bindAll (bs : List Binding) (n : Node) : Node :=
  { n with payload := bs.foldl Payload.enter n.payload }

/-- Entering uses changes receives only, and nothing of them but the two lists of names. -/
theorem bindAll_cases (bs : List Binding) (n : Node) :
    n.bindAll bs = n ∨
      ∃ x activate initializes follows initializes' follows',
        n.payload = .receive x activate initializes follows ∧
        n.bindAll bs = { n with payload := .receive x activate initializes' follows' } := by
  by_cases h : ∃ x activate initializes follows,
      n.payload = .receive x activate initializes follows
  · obtain ⟨x, activate, initializes, follows, hp⟩ := h
    have he := Payload.bindAll_receive bs x activate initializes follows
    exact .inr ⟨x, activate, initializes, follows, _, _, hp, by rw [bindAll, hp, he]⟩
  · refine .inl ?_
    rw [bindAll, Payload.bindAll_of_not_receive]
    intro x activate initializes follows hp
    exact h ⟨x, activate, initializes, follows, hp⟩

theorem bindAll_inside (bs : List Binding) (n : Node) : (n.bindAll bs).inside = n.inside := by
  rcases n.bindAll_cases bs with h | ⟨_, _, _, _, _, _, hp, h⟩
  · rw [h]
  · rw [h, inside, inside, hp]
    rfl

theorem bindAll_fits (bs : List Binding) {n : Node} (hn : n.Fits) : (n.bindAll bs).Fits := by
  refine ⟨?_, hn.childless⟩
  rcases n.bindAll_cases bs with h | ⟨_, _, _, _, _, _, hp, h⟩
  · rw [h]
    exact hn.suits
  · have hs := hn.suits
    rw [hp] at hs
    rw [h]
    exact hs

theorem bindAll_bindings (bs : List Binding) (n : Node) :
    (n.bindAll bs).bindings = n.bindings := by
  rcases n.bindAll_cases bs with h | ⟨_, _, _, _, _, _, hp, h⟩
  · rw [h]
  · rw [h, bindings, bindings, hp]

end Node

/-! ## A run over some uses -/

namespace Tree

variable {t : Tree}

/-- The handle of the receive that a use refers to. -/
def target? (t : Tree) (b : Binding) : Option Handle := (t.receiver? b).map Prod.fst

/-- Those of the uses that refer to a handle. -/
def usesOf (t : Tree) (bs : List Binding) (h : Handle) : List Binding :=
  bs.filter fun b => t.target? b == some h

theorem receiver?_eq_some_iff {b : Binding} {h : Handle} {n : Node} :
    t.receiver? b = some (h, n) ↔
      t.lookup b.ref.statement = some h ∧ t.node? h = some n ∧ n.kind = .receive := by
  simp only [receiver?, Option.bind_eq_some_iff, Option.map_eq_some_iff, Option.filter_eq_some_iff,
    beq_iff_eq, Prod.mk.injEq]
  constructor
  · rintro ⟨h', hl, n', ⟨hn, hk⟩, rfl, rfl⟩
    exact ⟨hl, hn, hk⟩
  · rintro ⟨hl, hn, hk⟩
    exact ⟨h, hl, n, ⟨hn, hk⟩, rfl, rfl⟩

theorem target?_eq_some_iff {b : Binding} {h : Handle} :
    t.target? b = some h ↔
      t.lookup b.ref.statement = some h ∧ ∃ n, t.node? h = some n ∧ n.kind = .receive := by
  simp only [target?, Option.map_eq_some_iff, Prod.exists, receiver?_eq_some_iff]
  constructor
  · rintro ⟨h', n, ⟨hl, hn, hk⟩, rfl⟩
    exact ⟨hl, n, hn, hk⟩
  · rintro ⟨hl, n, hn, hk⟩
    exact ⟨h, n, ⟨hl, hn, hk⟩, rfl⟩

theorem target?_congr {t' : Tree} (hindex : t'.index = t.index)
    (hkind : ∀ h, (t'.node? h).map Node.kind = (t.node? h).map Node.kind) (b : Binding) :
    t'.target? b = t.target? b := by
  have hiff : ∀ h, t'.target? b = some h ↔ t.target? b = some h := by
    intro h
    rw [target?_eq_some_iff, target?_eq_some_iff, lookup, lookup, hindex]
    have hk := hkind h
    refine and_congr_right fun _ => ?_
    simp only [← Option.map_eq_some_iff (f := Node.kind), hk]
  exact Option.ext hiff

end Tree

namespace Correlated

theorem step_index (c : Correlated) (b : Binding) : (c.step b).tree.index = c.tree.index := by
  unfold step
  split
  · rfl
  · split <;> rfl

theorem step_size (c : Correlated) (b : Binding) : (c.step b).tree.size = c.tree.size := by
  unfold step
  split
  · rfl
  · split
    · rfl
    · exact Tree.size_update ..

/-- One step enters a use into the receive that it refers to, if any. -/
theorem step_node? (c : Correlated) (b : Binding) (h : Handle) :
    (c.step b).tree.node? h =
      (c.tree.node? h).map (Node.bindAll (c.tree.usesOf [b] h)) := by
  have hnone : ∀ o : Option Node, o.map (Node.bindAll []) = o := by
    intro o
    cases o <;> rfl
  cases hr : c.tree.receiver? b with
  | none =>
    have hu : c.tree.usesOf [b] h = [] := by simp [Tree.usesOf, Tree.target?, hr]
    have hs : (c.step b).tree = c.tree := by simp [step, hr]
    rw [hs, hu, hnone]
  | some r =>
    obtain ⟨h', n⟩ := r
    have hn : c.tree.node? h' = some n := (Tree.receiver?_eq_some_iff.mp hr).2.1
    have htarget : c.tree.target? b = some h' := by simp [Tree.target?, hr]
    by_cases hh : h' = h
    · subst hh
      have hu : c.tree.usesOf [b] h' = [b] := by simp [Tree.usesOf, htarget]
      have hb : n.bindAll [b] = { n with payload := n.payload.enter b } := rfl
      rw [hu, hn, Option.map_some, hb]
      by_cases huse : n.payload.uses b = true
      · simp [step, hr, huse, Payload.enter, hn]
      · simp [step, hr, huse, Payload.enter, Tree.node?_update, hn]
    · have hu : c.tree.usesOf [b] h = [] := by simp [Tree.usesOf, htarget, hh]
      rw [hu, hnone]
      by_cases huse : n.payload.uses b = true
      · simp [step, hr, huse]
      · simp [step, hr, huse, Tree.node?_update, hh]

theorem step_target? (c : Correlated) (b b' : Binding) :
    (c.step b).tree.target? b' = c.tree.target? b' := by
  refine Tree.target?_congr (c.step_index b) (fun h => ?_) b'
  rw [step_node?, Option.map_map]
  rfl

/-- A run enters every use into the receive that it refers to, in order. -/
theorem node?_run (c : Correlated) (bs : List Binding) (h : Handle) :
    (bs.foldl step c).tree.node? h =
      (c.tree.node? h).map (Node.bindAll (c.tree.usesOf bs h)) := by
  induction bs generalizing c with
  | nil => cases hn : c.tree.node? h <;> simp [hn, Tree.usesOf, Node.bindAll]
  | cons b rest ih =>
    have hrest : (c.step b).tree.usesOf rest h = c.tree.usesOf rest h := by
      simp [Tree.usesOf, step_target?]
    have hcons : c.tree.usesOf (b :: rest) h = c.tree.usesOf [b] h ++ c.tree.usesOf rest h := by
      rw [Tree.usesOf, Tree.usesOf, Tree.usesOf, ← List.filter_append]
      rfl
    rw [List.foldl_cons, ih, step_node?, Option.map_map, hrest, hcons]
    congr 1
    funext n
    simp [Node.bindAll]

theorem run_index (c : Correlated) (bs : List Binding) :
    (bs.foldl step c).tree.index = c.tree.index := by
  induction bs generalizing c with
  | nil => rfl
  | cons b rest ih => rw [List.foldl_cons, ih, step_index]

theorem run_size (c : Correlated) (bs : List Binding) :
    (bs.foldl step c).tree.size = c.tree.size := by
  induction bs generalizing c with
  | nil => rfl
  | cons b rest ih => rw [List.foldl_cons, ih, step_size]

end Correlated

/-! ## Binding every set below some roots -/

namespace Tree

/-- The uses declared below some roots. -/
def declaredUses (t : Tree) (roots : List Handle) : List Binding := t.bindings (t.walk roots)

theorem correlate_node? (t : Tree) (roots : List Handle) (h : Handle) :
    (t.correlate roots).tree.node? h =
      (t.node? h).map (Node.bindAll (t.usesOf (t.declaredUses roots) h)) :=
  Correlated.node?_run ⟨t, 0, []⟩ (t.declaredUses roots) h

@[simp] theorem correlate_index (t : Tree) (roots : List Handle) :
    (t.correlate roots).tree.index = t.index :=
  Correlated.run_index ⟨t, 0, []⟩ (t.declaredUses roots)

@[simp] theorem correlate_size (t : Tree) (roots : List Handle) :
    (t.correlate roots).tree.size = t.size :=
  Correlated.run_size ⟨t, 0, []⟩ (t.declaredUses roots)

theorem correlate_of_no_receive {t : Tree} (roots : List Handle)
    (hk : ∀ h n, t.node? h = some n → n.kind ≠ .receive) : (t.correlate roots).tree = t := by
  have hnone : ∀ b, t.receiver? b = none := by
    intro b
    rw [Option.eq_none_iff_forall_not_mem]
    rintro ⟨h, n⟩ hr
    obtain ⟨-, hn, hkind⟩ := receiver?_eq_some_iff.mp hr
    exact hk h n hn hkind
  have hrun : ∀ (bs : List Binding) (c : Correlated), c.tree = t →
      (bs.foldl Correlated.step c).tree = t := by
    intro bs
    induction bs with
    | nil => exact fun _ hc => hc
    | cons b rest ih =>
      intro c hc
      refine ih (c.step b) ?_
      simp [Correlated.step, hc, hnone]
  exact hrun _ _ rfl

theorem Linked.correlate {t : Tree} {roots : List Handle} (hl : t.Linked roots)
    (hs : List Handle) : (t.correlate hs).tree.Linked roots :=
  hl.map (fun h => Node.bindAll (t.usesOf (t.declaredUses hs) h)) (t.correlate_size hs)
    (t.correlate_node? hs) (fun _ => Node.bindAll_inside _) (fun _ _ => rfl)
    (fun _ _ => Node.bindAll_fits _)

@[simp] theorem correlate_inside (t : Tree) (roots : List Handle) :
    (t.correlate roots).tree.inside = t.inside := by
  funext h
  simp [inside, correlate_node?, Function.comp_def, Node.bindAll_inside]

@[simp] theorem correlate_walk (t : Tree) (roots hs : List Handle) :
    (t.correlate roots).tree.walk hs = t.walk hs :=
  walk_congr (t.correlate_size roots) (t.correlate_inside roots) hs

theorem correlate_declaredUses (t : Tree) (roots hs : List Handle) :
    (t.correlate roots).tree.declaredUses hs = t.declaredUses hs := by
  have hb : ∀ h, ((t.correlate roots).tree.node? h).map Node.bindings =
      (t.node? h).map Node.bindings := by
    intro h
    simp [correlate_node?, Function.comp_def, Node.bindAll_bindings]
  rw [declaredUses, declaredUses, bindings, bindings, correlate_walk, flatMap_resolve,
    flatMap_resolve]
  simp only [hb]

theorem correlate_target? (t : Tree) (roots : List Handle) (b : Binding) :
    (t.correlate roots).tree.target? b = t.target? b := by
  refine target?_congr (t.correlate_index roots) (fun h => ?_) b
  rw [correlate_node?, Option.map_map]
  rfl

end Tree

end Orchestration.Shape
