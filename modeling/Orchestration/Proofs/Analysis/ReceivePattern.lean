import Orchestration.Analysis.ReceivePattern
import Orchestration.Proofs.Model.Correlation
import Orchestration.Proofs.Shape.Ancestry

/-!
# Orchestration.Proofs.Analysis.ReceivePattern

The pattern of a model, told by the receives that start it.

* `Model.starting`, `Model.waiting`, `Model.following` — the receives that start an orchestration,
  the other ones, and those of the others that follow a correlation set.
* `ReceivePattern.ofModel_of_none`, `ofModel_of_one`, `ofModel_of_several` — the pattern for each
  number of starting receives.
* `ReceivePattern.accounts_ofModel` — a pattern names all of these receives and no other ones.
* `ReceivePattern.convoy_shares` — which of the others of a convoy follow a set of its trigger.
-/

namespace Orchestration

open Shape (Handle Kind Node Tree)

namespace Model

/-- The receives that start the orchestration, in the order of the walk. -/
def starting (m : Model) : List Handle :=
  m.allHandles.filter fun h => (m.tree.node? h).any Node.isActivating

/-- The receives that do not start it. -/
def waiting (m : Model) : List Handle :=
  m.allHandles.filter fun h =>
    (m.tree.node? h).any fun n => n.kind == .receive && !n.isActivating

/-- The correlation sets that a receive lists as initialized (`true`) or as followed (`false`). -/
def listed (m : Model) (role : Bool) (h : Handle) : List String :=
  match (m.tree.node? h).map Node.payload with
  | some (.receive _ _ initializes follows) => if role then initializes else follows
  | _ => []

/-- The receives that do not start the orchestration and follow some set. -/
def following (m : Model) : List Handle := m.waiting.filter fun h => !(m.listed false h).isEmpty

/-- One listen is the innermost one around every starting receive. -/
def InOneListen (m : Model) : Prop := ∃ l, ∀ h ∈ m.starting, m.tree.Innermost .listen l h

/-- Every starting receive stands below some parallel. -/
def InParallels (m : Model) : Prop :=
  ∀ h ∈ m.starting, ∃ p, m.tree.HasKind .parallel p ∧ m.tree.Contains p h

variable {m : Model} {h : Handle}

theorem mem_starting : h ∈ m.starting ↔
    h ∈ m.allHandles ∧ ∃ n, m.tree.node? h = some n ∧ n.isActivating = true := by
  simp [starting, Option.any_eq_true]

theorem mem_waiting : h ∈ m.waiting ↔ h ∈ m.allHandles ∧
    ∃ n, m.tree.node? h = some n ∧ n.kind = .receive ∧ n.isActivating = false := by
  simp [waiting, Option.any_eq_true]

theorem mem_following : h ∈ m.following ↔ h ∈ m.waiting ∧ m.listed false h ≠ [] := by
  simp [following]

theorem hasKind_of_starting (hh : h ∈ m.starting) : m.tree.HasKind .receive h := by
  obtain ⟨-, n, hn, ha⟩ := mem_starting.mp hh
  rw [Node.isActivating, Bool.and_eq_true, beq_iff_eq] at ha
  exact ⟨n, hn, ha.1⟩

theorem hasKind_of_waiting (hh : h ∈ m.waiting) : m.tree.HasKind .receive h := by
  obtain ⟨-, n, hn, hk, -⟩ := mem_waiting.mp hh
  exact ⟨n, hn, hk⟩

theorem Assembled.mem_listed {d : Designer.Document} (ha : Assembled d m)
    (hk : m.tree.HasKind .receive h) (role : Bool) (name : String) :
    name ∈ m.listed role h ↔ name ∈ m.references role h := by
  obtain ⟨n, hn, hk⟩ := hk
  obtain ⟨x, activate, hp⟩ := ha.receive_payload hn hk
  have hlisted : m.listed role h = (m.references role h).eraseDups := by
    rw [listed, hn, Option.map_some, hp]
    cases role <;> rfl
  rw [hlisted, List.mem_eraseDups]

end Model

namespace ReceivePattern

variable {m : Model} {t : Tree} {roots : List Handle}

/-! ## Receivers -/

theorem handle_of_receiver? {h : Handle} {r : Receiver} (hr : receiver? t h = some r) :
    r.handle = h := by
  obtain ⟨n, -, hr⟩ := Option.bind_eq_some_iff.mp hr
  split at hr
  · split at hr
    · rw [← Option.some.inj hr]
    · cases hr
  · cases hr

theorem any_activate (t : Tree) (h : Handle) :
    (receiver? t h).any Receiver.activate = (t.node? h).any Node.isActivating := by
  cases hn : t.node? h with
  | none => simp [receiver?, hn]
  | some n =>
    by_cases hk : n.kind = .receive
    · cases hp : n.payload <;> simp [receiver?, hn, hk, hp, Node.isActivating]
    · simp [receiver?, hn, hk, Node.isActivating]

theorem map_handle_filter (t : Tree) (p : Receiver → Bool) (hs : List Handle) :
    ((hs.filterMap (receiver? t)).filter p).map Receiver.handle =
      hs.filter fun h => (receiver? t h).any p := by
  induction hs with
  | nil => rfl
  | cons h rest ih =>
    cases hr : receiver? t h with
    | none => simp [hr, ih]
    | some r =>
      have hh := handle_of_receiver? hr
      by_cases hp : p r = true
      · simp [hr, hp, ih, hh]
      · simp [hr, hp, ih]

theorem starting_eq (m : Model) :
    ((receivers m).filter Receiver.activate).map Receiver.handle = m.starting := by
  simp only [receivers, map_handle_filter, any_activate, Model.starting]

theorem any_follower (m : Model) (h : Handle) :
    (receiver? m.tree h).any (fun r => !r.activate && !r.follows.isEmpty) =
      (((m.tree.node? h).any fun n => n.kind == .receive && !n.isActivating) &&
        !(m.listed false h).isEmpty) := by
  cases hn : m.tree.node? h with
  | none => simp [receiver?, hn]
  | some n =>
    by_cases hk : n.kind = .receive
    · cases hp : n.payload <;> simp [receiver?, hn, hk, hp, Node.isActivating, Model.listed]
    · simp [receiver?, hn, hk]

theorem following_eq (m : Model) :
    ((receivers m).filter fun r => !r.activate && !r.follows.isEmpty).map Receiver.handle =
      m.following := by
  simp only [receivers, map_handle_filter, any_follower, Model.following, Model.waiting,
    List.filter_filter, Bool.and_comm]

theorem initializes_eq {m : Model} {r : Receiver} (hr : r ∈ receivers m) :
    r.initializes = m.listed true r.handle := by
  obtain ⟨h, -, hr⟩ := List.mem_filterMap.mp hr
  rw [handle_of_receiver? hr]
  obtain ⟨n, hn, hr⟩ := Option.bind_eq_some_iff.mp hr
  split at hr
  · split at hr
    · next hp =>
      rw [← Option.some.inj hr, Model.listed, hn, Option.map_some, hp]
      rfl
    · cases hr
  · cases hr

/-! ## The pattern by the number of starting receives -/

theorem ofModel_of_none (hs : m.starting = []) : ofModel m = .callable := by
  rw [← starting_eq, List.map_eq_nil_iff] at hs
  rw [ofModel, hs]

theorem ofModel_of_one {r : Handle} (hs : m.starting = [r]) :
    ofModel m = if m.listed true r = [] ∨ m.following = [] then .single r
      else .convoy r m.following := by
  rw [← starting_eq] at hs
  obtain ⟨receiver, hfilter, rfl⟩ := List.map_eq_singleton_iff.mp hs
  have hmem : receiver ∈ receivers m := by
    have hin : receiver ∈ (receivers m).filter Receiver.activate := by simp [hfilter]
    exact (List.mem_filter.mp hin).1
  rw [ofModel, hfilter]
  simp only [ofSingle, initializes_eq hmem, Bool.or_eq_true, List.isEmpty_iff, ← following_eq,
    List.map_eq_nil_iff]

theorem ofModel_of_several {r : Handle} {others : List Handle} (hs : m.starting = r :: others)
    (ho : others ≠ []) : ofModel m = ofSeveral m.tree r others := by
  rw [← starting_eq] at hs
  obtain ⟨receiver, rest, hfilter, rfl, rfl⟩ := List.map_eq_cons_iff.mp hs
  rw [ofModel, hfilter]
  cases rest with
  | nil => exact absurd rfl ho
  | cons second rest => rfl

theorem shareListen_iff (hl : t.Linked roots) (r : Handle) (others : List Handle) :
    shareListen t (r :: others) = true ↔
      ∃ l, ∀ h ∈ r :: others, t.Innermost .listen l h := by
  simp only [← hl.findAncestor_eq_some_iff, List.forall_mem_cons]
  rw [shareListen, List.map_cons]
  cases hf : t.findAncestor r .listen with
  | none => simp
  | some l => simp

theorem allParallel_iff (hl : t.Linked roots) (hs : List Handle) :
    allParallel t hs = true ↔ ∀ h ∈ hs, ∃ p, t.HasKind .parallel p ∧ t.Contains p h := by
  simp only [allParallel, List.all_eq_true, hl.findAncestor_isSome_iff]

theorem ne_empty_of_append {a b : String} (hb : b ≠ "") : a ++ b ≠ "" :=
  fun h => hb (String.append_eq_empty_iff.mp h).2

theorem isValid_iff (p : ReceivePattern) : p.isValid = true ↔ p.error = "" := by
  cases p with
  | parallel t others =>
    exact iff_of_false Bool.false_ne_true (ne_empty_of_append (by decide))
  | sequential t others =>
    exact iff_of_false Bool.false_ne_true (ne_empty_of_append (by decide))
  | callable | single | convoy | listen => exact iff_of_true rfl rfl

/-! ## Every starting receive -/

/-- What a pattern tells of the receives of its model. -/
structure Accounts (m : Model) (p : ReceivePattern) : Prop where
  /-- The first of the starting receives becomes the trigger. -/
  primary : p.primary? = m.starting.head?
  callable : m.starting = [] ↔ p = .callable
  unused : m.starting = [] → p.secondary = []
  one : ∀ r, m.starting = [r] →
    p = .single r ∧ p.secondary = [] ∨ p = .convoy r m.following ∧ p.secondary = m.following
  /-- Another receive that follows a set of the only trigger makes a convoy. -/
  shared : ∀ r, m.starting = [r] → ∀ s ∈ m.waiting, ∀ name ∈ m.listed false s,
    name ∈ m.listed true r → p = .convoy r m.following
  convoy : ∀ r others, p = .convoy r others → m.starting = [r] ∧ m.listed true r ≠ [] ∧
    others ≠ [] ∧ others.Nodup ∧ others.Sublist m.allHandles ∧
    ∀ s ∈ others, s ∈ m.waiting ∧ m.listed false s ≠ []
  several : 2 ≤ m.starting.length → p.primary?.toList ++ p.secondary = m.starting
  /-- Several triggers that do not wait in one listen stand below parallels, or else run one after
  the other. -/
  verdict : ∀ r others, m.starting = r :: others → others ≠ [] →
    p = .listen r others ∨
      (p = .parallel r others ∨ p = .sequential r others) ∧ (p = .parallel r others ↔ m.InParallels)
  valid : p.isValid = true ↔ p.error = ""

/-- The verdict on a model, told by the places of its receives. -/
inductive Classified (m : Model) : ReceivePattern → Prop where
  | callable : m.starting = [] → Classified m .callable
  | single {r : Handle} : m.starting = [r] → m.listed true r = [] ∨ m.following = [] →
      Classified m (.single r)
  | convoy {r : Handle} : m.starting = [r] → m.listed true r ≠ [] → m.following ≠ [] →
      Classified m (.convoy r m.following)
  | listen {r : Handle} {others : List Handle} : m.starting = r :: others → others ≠ [] →
      m.InOneListen → Classified m (.listen r others)
  | parallel {r : Handle} {others : List Handle} : m.starting = r :: others → others ≠ [] →
      ¬ m.InOneListen → m.InParallels → Classified m (.parallel r others)
  | sequential {r : Handle} {others : List Handle} : m.starting = r :: others → others ≠ [] →
      ¬ m.InOneListen → ¬ m.InParallels → Classified m (.sequential r others)

theorem classified_ofModel (hl : m.tree.Linked m.roots) : Classified m (ofModel m) := by
  cases hs : m.starting with
  | nil =>
    rw [ofModel_of_none hs]
    exact .callable hs
  | cons r others =>
    by_cases ho : others = []
    · subst ho
      rw [ofModel_of_one hs]
      split
      · next hnone => exact .single hs hnone
      · next hsome =>
        rw [not_or] at hsome
        exact .convoy hs hsome.1 hsome.2
    · have hshare : shareListen m.tree (r :: others) = true ↔ m.InOneListen := by
        rw [shareListen_iff hl, ← hs]
        rfl
      have hall : allParallel m.tree (r :: others) = true ↔ m.InParallels := by
        rw [allParallel_iff hl, ← hs]
        rfl
      rw [ofModel_of_several hs ho, ofSeveral]
      split
      · next hone => exact .listen hs ho (hshare.mp hone)
      · next hone =>
        split
        · next hp => exact .parallel hs ho (mt hshare.mpr hone) (hall.mp hp)
        · next hp => exact .sequential hs ho (mt hshare.mpr hone) (mt hall.mpr hp)

theorem Classified.accounts {p : ReceivePattern} (hc : Classified m p) (hw : m.allHandles.Nodup) :
    Accounts m p where
  primary := by cases hc <;> simp_all [primary?]
  callable := by cases hc <;> simp_all
  unused := by cases hc <;> simp_all [secondary]
  one := by cases hc <;> simp_all [secondary]
  shared := by
    intro r hr s hs name hfollowed hinit
    have hsome : m.following ≠ [] := List.ne_nil_of_mem
      (Model.mem_following.mpr ⟨hs, List.ne_nil_of_mem hfollowed⟩)
    cases hc <;> simp_all
  convoy := by
    rintro r others rfl
    cases hc with
    | convoy hr hinit hsome =>
      refine ⟨hr, hinit, hsome, ?_, ?_, fun s hs => Model.mem_following.mp hs⟩
      · exact (hw.filter _).filter _
      · exact List.filter_sublist.trans List.filter_sublist
  several := by cases hc <;> simp_all [primary?, secondary]
  verdict := by
    intro r others hr ho
    cases hc with
    | callable hs => cases hs.symm.trans hr
    | single hs | convoy hs => exact absurd (List.cons.inj (hs.symm.trans hr)).2.symm ho
    | listen hs =>
      obtain ⟨rfl, rfl⟩ := List.cons.inj (hs.symm.trans hr)
      exact .inl rfl
    | parallel hs _ _ hp =>
      obtain ⟨rfl, rfl⟩ := List.cons.inj (hs.symm.trans hr)
      exact .inr ⟨.inl rfl, iff_of_true rfl hp⟩
    | sequential hs _ _ hp =>
      obtain ⟨rfl, rfl⟩ := List.cons.inj (hs.symm.trans hr)
      exact .inr ⟨.inr rfl, iff_of_false (fun he => by cases he) hp⟩
  valid := p.isValid_iff

theorem accounts_ofModel {text source : String} (h : Model.ofText text source = .ok m) :
    Accounts m (ofModel m) := by
  obtain ⟨d, hd⟩ := Model.assembled_of_ofText h
  exact (classified_ofModel hd.linked).accounts hd.linked.walk_nodup

/-- Two starting receives in the branches of a parallel, one of them inside a scope. -/
def inParallel : String :=
  Model.withBody "<Element Type='Parallel'>
  <Element Type='ParallelBranch'>
  <Element Type='Receive'><Property Name='Activate' Value='True'/></Element></Element>
  <Element Type='ParallelBranch'><Element Type='Scope'>
  <Element Type='Receive'><Property Name='Activate' Value='True'/></Element></Element></Element>
  </Element>"

set_option maxRecDepth 100000 in
theorem inParallel_parsed : ∃ m, Model.ofText inParallel "orders.odx" = .ok m ∧
    (m.starting, ofModel m) = ([2, 5], .parallel 2 [5]) :=
  Model.exists_of_append (by decide +kernel)

theorem accounts_inParallel : ∃ m, Model.ofText inParallel "orders.odx" = .ok m ∧
    Accounts m (ofModel m) ∧ (ofModel m).isValid = false ∧
    ∃ p q, m.tree.HasKind .parallel p ∧ m.tree.Contains p 2 ∧ m.tree.HasKind .parallel q ∧
      m.tree.Contains q 5 := by
  obtain ⟨m, hm, hv⟩ := inParallel_parsed
  obtain ⟨hs, hp⟩ := Prod.mk.inj hv
  have ha := accounts_ofModel hm
  rcases ha.verdict 2 [5] hs (by decide) with hlisten | ⟨-, hparallel⟩
  · cases hp.symm.trans hlisten
  · have hall := hparallel.mp hp
    obtain ⟨p, hp2, hc2⟩ := hall 2 (by rw [hs]; decide)
    obtain ⟨q, hq5, hc5⟩ := hall 5 (by rw [hs]; decide)
    exact ⟨m, hm, ha, by rw [hp]; rfl, p, q, hp2, hc2, hq5, hc5⟩

/-! ## Convoys -/

/-- The others of a convoy are those receives that follow some set. Such a receive shares a set with
the trigger exactly when some declaration refers to the receive as following and some declaration of
the same name refers to the trigger as initializing. -/
theorem convoy_shares {text source : String} (h : Model.ofText text source = .ok m) {r : Handle}
    {others : List Handle} (hp : ofModel m = .convoy r others) :
    m.starting = [r] ∧ m.listed true r ≠ [] ∧ others = m.following ∧ others ≠ [] ∧
      ∀ s ∈ others, m.references false s ≠ [] ∧
        ((∃ name ∈ m.listed false s, name ∈ m.listed true r) ↔
          ∃ name ∈ m.references false s, name ∈ m.references true r) := by
  obtain ⟨d, hd⟩ := Model.assembled_of_ofText h
  have hc := classified_ofModel hd.linked
  rw [hp] at hc
  cases hc with
  | convoy hr hinit hsome =>
    refine ⟨hr, hinit, rfl, hsome, fun s hs => ?_⟩
    obtain ⟨hw, hfollowed⟩ := Model.mem_following.mp hs
    have hstarts : r ∈ m.starting := by simp [hr]
    have hfollows := hd.mem_listed (Model.hasKind_of_waiting hw) false
    have hinits := hd.mem_listed (Model.hasKind_of_starting hstarts) true
    refine ⟨?_, by simp only [hfollows, hinits]⟩
    obtain ⟨name, hname⟩ := List.exists_mem_of_ne_nil _ hfollowed
    exact List.ne_nil_of_mem ((hfollows name).mp hname)

/-- What there is to see of a trigger 0 and a receive 2: the sets that are declared for them, and
those that they list. -/
structure Pair where
  pattern : ReceivePattern
  declared : List String × List String
  listed : List String × List String
  deriving DecidableEq

def Pair.ofModel (m : Model) : Pair where
  pattern := ReceivePattern.ofModel m
  declared := (m.references true 0, m.references false 2)
  listed := (m.listed true 0, m.listed false 2)

/-- A receive that starts the orchestration and a send, each with a set of its own. Another receive
follows the set of the first one. -/
def triggersSet : String :=
  Model.withBody "<Element Type='Receive' OID='a'><Property Name='Activate' Value='True'/></Element>
  <Element Type='Send' OID='b'/><Element Type='Receive' OID='c'/>
  <Element Type='CorrelationDeclaration'><Property Name='Name' Value='Order'/>
  <Element Type='StatementRef'><Property Name='Ref' Value='a'/>
  <Property Name='Initializes' Value='True'/></Element>
  <Element Type='StatementRef'><Property Name='Ref' Value='c'/></Element></Element>
  <Element Type='CorrelationDeclaration'><Property Name='Name' Value='Stock'/>
  <Element Type='StatementRef'><Property Name='Ref' Value='b'/>
  <Property Name='Initializes' Value='True'/></Element></Element>"

set_option maxRecDepth 100000 in
theorem triggersSet_parsed : ∃ m, Model.ofText triggersSet "orders.odx" = .ok m ∧
    Pair.ofModel m = ⟨.convoy 0 [2], (["Order"], ["Order"]), (["Order"], ["Order"])⟩ :=
  Model.exists_of_append (by decide +kernel)

theorem convoy_triggersSet : ∃ m, Model.ofText triggersSet "orders.odx" = .ok m ∧
    ofModel m = .convoy 0 [2] ∧ "Order" ∈ m.references false 2 ∧ "Order" ∈ m.references true 0 ∧
    ∃ name ∈ m.listed false 2, name ∈ m.listed true 0 := by
  obtain ⟨m, hm, hv⟩ := triggersSet_parsed
  obtain ⟨hp, hdeclared, -⟩ := Pair.mk.inj hv
  obtain ⟨hinit, hfollow⟩ := Prod.mk.inj hdeclared
  have hfollowed : "Order" ∈ m.references false 2 := by simp [hfollow]
  have hinitialized : "Order" ∈ m.references true 0 := by simp [hinit]
  obtain ⟨-, -, -, -, hshares⟩ := convoy_shares hm hp
  obtain ⟨-, hshared⟩ := hshares 2 (by decide)
  exact ⟨m, hm, hp, hfollowed, hinitialized, hshared.mpr ⟨"Order", hfollowed, hinitialized⟩⟩

/-- The same, but the other receive follows the set of the send. -/
def sendersSet : String :=
  Model.withBody "<Element Type='Receive' OID='a'><Property Name='Activate' Value='True'/></Element>
  <Element Type='Send' OID='b'/><Element Type='Receive' OID='c'/>
  <Element Type='CorrelationDeclaration'><Property Name='Name' Value='Order'/>
  <Element Type='StatementRef'><Property Name='Ref' Value='a'/>
  <Property Name='Initializes' Value='True'/></Element></Element>
  <Element Type='CorrelationDeclaration'><Property Name='Name' Value='Stock'/>
  <Element Type='StatementRef'><Property Name='Ref' Value='b'/>
  <Property Name='Initializes' Value='True'/></Element>
  <Element Type='StatementRef'><Property Name='Ref' Value='c'/></Element></Element>"

set_option maxRecDepth 100000 in
theorem sendersSet_parsed : ∃ m, Model.ofText sendersSet "orders.odx" = .ok m ∧
    Pair.ofModel m = ⟨.convoy 0 [2], (["Order"], ["Stock"]), (["Order"], ["Stock"])⟩ :=
  Model.exists_of_append (by decide +kernel)

/-- The two receives have no set in common, but make a convoy. -/
theorem convoy_sendersSet : ∃ m, Model.ofText sendersSet "orders.odx" = .ok m ∧
    ofModel m = .convoy 0 [2] ∧ ¬ ∃ name ∈ m.listed false 2, name ∈ m.listed true 0 := by
  obtain ⟨m, hm, hv⟩ := sendersSet_parsed
  obtain ⟨hp, -, hlisted⟩ := Pair.mk.inj hv
  obtain ⟨hinit, hfollow⟩ := Prod.mk.inj hlisted
  refine ⟨m, hm, hp, ?_⟩
  rw [hinit, hfollow]
  decide

end ReceivePattern

end Orchestration
