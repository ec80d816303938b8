import Orchestration.Proofs.Analysis.ReceivePattern

/-!
# Orchestration.Proofs.Analysis.Listen

Starting receives that wait for each other in a listen.

* `Model.Races` — all of them stand in branches of one listen, no two in the same branch.
* `ReceivePattern.listen_sound` — the pattern of a listen has one listen closest around all of them.
  They race exactly when no branch holds two of them.
* `ReceivePattern.listen_iff_of_races` — starting receives that race have this pattern exactly when
  none of them waits in another listen inside the branches.
-/

namespace Orchestration

open Shape (Handle Kind Node Tree)

namespace Model

/-- All starting receives stand in branches of a listen, each in one of its own. -/
structure Races (m : Model) (l : Handle) : Prop where
  listen : m.tree.HasKind .listen l
  inside : ∀ r ∈ m.starting, ∃ i, m.tree.InBranch l i r
  apart : ∀ i, ∀ r ∈ m.starting, ∀ s ∈ m.starting,
    m.tree.InBranch l i r → m.tree.InBranch l i s → r = s

/-- No branch holds two starting receives, unless they wait in another listen inside it. -/
def BranchesApart (m : Model) : Prop :=
  ∀ l i, ∀ r ∈ m.starting, ∀ s ∈ m.starting, m.tree.Innermost .listen l r →
    m.tree.Innermost .listen l s → m.tree.InBranch l i r → m.tree.InBranch l i s → r = s

variable {m : Model} {l : Handle}

theorem races_of_branchesApart (hl : m.tree.Linked m.roots) (ha : m.BranchesApart)
    (hk : m.tree.HasKind .listen l) (hi : ∀ r ∈ m.starting, m.tree.Innermost .listen l r) :
    m.Races l where
  listen := hk
  inside := fun r hr => hl.exists_inBranch hk (hi r hr).contains
  apart := fun i r hr s hs => ha l i r hr s hs (hi r hr) (hi s hs)

theorem Races.contains (hr : m.Races l) {s : Handle} (hs : s ∈ m.starting) :
    m.tree.Contains l s := by
  obtain ⟨i, hi⟩ := hr.inside s hs
  exact hi.contains

/-- Receives that race have the listen in common, but nothing inside it. -/
theorem Races.not_contains (hr : m.Races l) (hl : m.tree.Linked m.roots)
    (htwo : 2 ≤ m.starting.length) {p : Handle} (hp : m.tree.Contains l p) :
    ∃ r ∈ m.starting, ¬ m.tree.Contains p r := by
  obtain ⟨i, hi⟩ := hl.exists_inBranch hr.listen hp
  by_contra hall
  push Not at hall
  -- everything inside `p` stands in the one branch that holds `p`
  match hs : m.starting with
  | [] | [_] => simp [hs] at htwo
  | r :: s :: rest =>
    have hrm : r ∈ m.starting := by simp [hs]
    have hsm : s ∈ m.starting := by simp [hs]
    have hsame : r = s :=
      hr.apart i r hrm s hsm (hi.within (hall r hrm)) (hi.within (hall s hsm))
    have hnodup : m.starting.Nodup := hl.walk_nodup.filter _
    simp [hs, hsame] at hnodup

theorem Races.eq_of_innermost (hr : m.Races l) (hl : m.tree.Linked m.roots)
    (htwo : 2 ≤ m.starting.length) {l' : Handle}
    (hi : ∀ r ∈ m.starting, m.tree.Innermost .listen l' r) : l = l' := by
  obtain ⟨r, hrm⟩ := List.exists_mem_of_length_pos (Nat.lt_of_lt_of_le Nat.two_pos htwo)
  refine ((hi r hrm).least l hr.listen (hr.contains hrm)).resolve_right fun hdeeper => ?_
  obtain ⟨s, hsm, hout⟩ := hr.not_contains hl htwo hdeeper
  exact hout (hi s hsm).contains

end Model

namespace ReceivePattern

variable {text source : String} {m : Model}

theorem ofModel_eq_listen_iff (hl : m.tree.Linked m.roots) {r : Handle} {others : List Handle} :
    ofModel m = .listen r others ↔ m.starting = r :: others ∧ others ≠ [] ∧ m.InOneListen := by
  constructor
  · intro hp
    have hc := classified_ofModel hl
    rw [hp] at hc
    cases hc with
    | listen hs ho hone => exact ⟨hs, ho, hone⟩
  · rintro ⟨hs, ho, hone⟩
    rw [ofModel_of_several hs ho, ofSeveral, if_pos]
    rw [shareListen_iff hl, ← hs]
    exact hone

theorem two_le_starting {r : Handle} {others : List Handle} (hs : m.starting = r :: others)
    (ho : others ≠ []) : 2 ≤ m.starting.length := by
  rw [hs, List.length_cons]
  exact Nat.succ_le_succ (List.length_pos_of_ne_nil ho)

/-- Receives with the pattern of a listen wait in one listen, which no other listen separates them
from. They race exactly when branches are apart. -/
theorem listen_sound (h : Model.ofText text source = .ok m) {r : Handle} {others : List Handle}
    (hp : ofModel m = .listen r others) :
    m.starting = r :: others ∧ others ≠ [] ∧ ∃ l, m.tree.HasKind .listen l ∧
      (∀ s ∈ m.starting, m.tree.Innermost .listen l s ∧
        ∃ i, m.tree.InBranch l i s ∧ ∀ j, m.tree.InBranch l j s → j = i) ∧
      ((∃ l', m.Races l') ↔ m.BranchesApart) := by
  obtain ⟨d, hd⟩ := Model.assembled_of_ofText h
  have hl := hd.linked
  obtain ⟨hs, ho, l, hone⟩ := (ofModel_eq_listen_iff hl).mp hp
  have hk : m.tree.HasKind .listen l := (hone r (by simp [hs])).kind
  refine ⟨hs, ho, l, hk, fun s hs => ⟨hone s hs, ?_⟩, ?_, fun ha => ?_⟩
  · obtain ⟨i, hi⟩ := hl.exists_inBranch hk (hone s hs).contains
    exact ⟨i, hi, fun j hj => hl.inBranch_unique hj hi⟩
  · rintro ⟨l', hr⟩ b i x hx y hy hbx - hxi hyi
    -- both `l'` and `b` are the listen `l`
    obtain rfl := hr.eq_of_innermost hl (two_le_starting hs ho) hone
    have hsame : b = l' := hl.innermost_unique hbx (hone x hx)
    subst hsame
    exact hr.apart i x hx y hy hxi hyi
  · exact ⟨l, Model.races_of_branchesApart hl ha hk hone⟩

/-- What there is to see of a node 0 around the starting receives: its kind, and the branches of it
that they stand in. -/
structure View where
  pattern : ReceivePattern
  starting : List Handle
  kind : Option Kind
  places : List (Option Nat)
  deriving DecidableEq

def View.ofModel (m : Model) : View where
  pattern := ReceivePattern.ofModel m
  starting := m.starting
  kind := (m.tree.node? 0).map Node.kind
  places := m.starting.map (m.tree.branch? 0)

/-- Two receives that the view shows in different branches race. -/
theorem races_of_view (hl : m.tree.Linked m.roots) {p : ReceivePattern} {r s i j : Nat}
    (hv : View.ofModel m = ⟨p, [r, s], some .listen, [some i, some j]⟩) (hij : i ≠ j) :
    m.Races 0 := by
  obtain ⟨-, hs, hk, hp⟩ := View.mk.inj hv
  obtain ⟨n, hn, hk⟩ := Option.map_eq_some_iff.mp hk
  simp only [hs, List.map_cons, List.map_nil, List.cons.injEq, hl.branch?_eq_some_iff, and_true]
    at hp
  obtain ⟨hr, hs'⟩ := hp
  refine ⟨⟨n, hn, hk⟩, ?_, ?_⟩
  · simp only [hs, List.forall_mem_cons]
    exact ⟨⟨i, hr⟩, ⟨j, hs'⟩, by simp⟩
  · intro k x hx y hy hxk hyk
    have hplace : ∀ z ∈ m.starting, m.tree.InBranch 0 k z → z = r ∧ k = i ∨ z = s ∧ k = j := by
      intro z hz hzk
      rw [hs, List.mem_cons, List.mem_singleton] at hz
      rcases hz with rfl | rfl
      · exact .inl ⟨rfl, hl.inBranch_unique hzk hr⟩
      · exact .inr ⟨rfl, hl.inBranch_unique hzk hs'⟩
    rcases hplace x hx hxk with ⟨rfl, rfl⟩ | ⟨rfl, rfl⟩
    · exact ((hplace y hy hyk).resolve_right fun hy => hij hy.2).1.symm
    · exact ((hplace y hy hyk).resolve_left fun hy => hij hy.2.symm).1.symm

/-- Two starting receives in the branches of a listen, the first beside another listen and the
second in a scope. -/
def race : String :=
  Model.withBody "<Element Type='Listen'>
  <Element Type='Task'><Element Type='Receive'><Property Name='Activate' Value='True'/></Element>
  <Element Type='Listen'/></Element>
  <Element Type='Task'><Element Type='Scope'>
  <Element Type='Receive'><Property Name='Activate' Value='True'/></Element></Element></Element>
  </Element>"

set_option maxRecDepth 100000 in
theorem race_parsed : ∃ m, Model.ofText race "orders.odx" = .ok m ∧
    View.ofModel m = ⟨.listen 1 [4], [1, 4], some .listen, [some 0, some 1]⟩ :=
  Model.exists_of_append (by decide +kernel)

theorem listen_sound_race : ∃ m, Model.ofText race "orders.odx" = .ok m ∧
    ofModel m = .listen 1 [4] ∧ m.BranchesApart ∧
    ∃ l, m.tree.Innermost .listen l 1 ∧ m.tree.Innermost .listen l 4 := by
  obtain ⟨m, hm, hv⟩ := race_parsed
  obtain ⟨hp, hs, -, -⟩ := View.mk.inj hv
  obtain ⟨d, hd⟩ := Model.assembled_of_ofText hm
  have hr : m.Races 0 := races_of_view hd.linked hv (by decide)
  obtain ⟨-, -, l, -, hone, hraces⟩ := listen_sound hm hp
  rw [hs] at hone
  exact ⟨m, hm, hp, hraces.mp ⟨0, hr⟩, l, (hone 1 (by decide)).1, (hone 4 (by decide)).1⟩

/-- Two starting receives, one after the other in the only branch of a listen. -/
def oneBranch : String :=
  Model.withBody "<Element Type='Listen'>
  <Element Type='Task'><Element Type='Receive'><Property Name='Activate' Value='True'/></Element>
  <Element Type='Receive'><Property Name='Activate' Value='True'/></Element></Element>
  </Element>"

set_option maxRecDepth 100000 in
theorem oneBranch_parsed : ∃ m, Model.ofText oneBranch "orders.odx" = .ok m ∧
    View.ofModel m = ⟨.listen 1 [2], [1, 2], some .listen, [some 0, some 0]⟩ :=
  Model.exists_of_append (by decide +kernel)

/-- The two receives race in no listen, but have the pattern of a listen. -/
theorem listen_oneBranch : ∃ m, Model.ofText oneBranch "orders.odx" = .ok m ∧
    ofModel m = .listen 1 [2] ∧ ¬ ∃ l, m.Races l := by
  obtain ⟨m, hm, hv⟩ := oneBranch_parsed
  obtain ⟨hp, hs, -, hplaces⟩ := View.mk.inj hv
  obtain ⟨d, hd⟩ := Model.assembled_of_ofText hm
  refine ⟨m, hm, hp, ?_⟩
  rintro ⟨l, hr⟩
  have h1 : (1 : Handle) ∈ m.starting := by rw [hs]; decide
  have h2 : (2 : Handle) ∈ m.starting := by rw [hs]; decide
  -- only the node 0 can contain the receive 1
  obtain rfl : l = 0 := Nat.lt_one_iff.mp (hd.linked.rising.lt_of_contains (hr.contains h1))
  simp only [hs, List.map_cons, List.map_nil, List.cons.injEq, hd.linked.branch?_eq_some_iff,
    and_true] at hplaces
  exact absurd (hr.apart 0 1 h1 2 h2 hplaces.1 hplaces.2) (by decide)

theorem listen_iff_of_races (h : Model.ofText text source = .ok m)
    (htwo : 2 ≤ m.starting.length) {l : Handle} (hr : m.Races l) :
    (∃ r others, m.starting = r :: others ∧ ofModel m = .listen r others) ↔
      ∀ p, m.tree.HasKind .listen p → m.tree.Contains l p →
        ∀ s ∈ m.starting, ¬ m.tree.Contains p s := by
  obtain ⟨d, hd⟩ := Model.assembled_of_ofText h
  have hl := hd.linked
  constructor
  · rintro ⟨r, others, hs, hp⟩ p hk hlp s hsm hps
    obtain ⟨-, -, l', hone⟩ := (ofModel_eq_listen_iff hl).mp hp
    -- the listen that the search finds is `l` itself
    obtain rfl := hr.eq_of_innermost hl htwo hone
    have hlt : l < p := hl.rising.lt_of_contains hlp
    rcases (hone s hsm).least p hk hps with rfl | hpl
    · exact Nat.lt_irrefl _ hlt
    · exact Nat.lt_asymm hlt (hl.rising.lt_of_contains hpl)
  · intro hnone
    match hs : m.starting with
    | [] | [_] => simp [hs] at htwo
    | r :: s :: rest =>
      refine ⟨r, s :: rest, rfl, (ofModel_eq_listen_iff hl).mpr ⟨hs, by simp, l, ?_⟩⟩
      intro x hx
      refine ⟨hr.listen, hr.contains hx, fun b hb hbx => ?_⟩
      rcases hl.contains_total hbx (hr.contains hx) with rfl | hbl | hlb
      · exact .inl rfl
      · exact .inr hbl
      · exact absurd hbx (hnone b hb hlb x hx)

theorem listen_race : ∃ m, Model.ofText race "orders.odx" = .ok m ∧
    2 ≤ m.starting.length ∧ m.Races 0 ∧ ofModel m = .listen 1 [4] ∧
    ∀ p, m.tree.HasKind .listen p → m.tree.Contains 0 p →
      ¬ m.tree.Contains p 1 ∧ ¬ m.tree.Contains p 4 := by
  obtain ⟨m, hm, hv⟩ := race_parsed
  obtain ⟨hp, hs, -, -⟩ := View.mk.inj hv
  obtain ⟨d, hd⟩ := Model.assembled_of_ofText hm
  have hr : m.Races 0 := races_of_view hd.linked hv (by decide)
  have htwo : 2 ≤ m.starting.length := by rw [hs]; decide
  have hnone := (listen_iff_of_races hm htwo hr).mp ⟨1, [4], hs, hp⟩
  rw [hs] at hnone
  exact ⟨m, hm, htwo, hr, hp,
    fun p hk hc => ⟨hnone p hk hc 1 (by decide), hnone p hk hc 4 (by decide)⟩⟩

/-- Two starting receives in the branches of a listen, the second of them in a listen of its
own. -/
def nestedListen : String :=
  Model.withBody "<Element Type='Listen'>
  <Element Type='Task'><Element Type='Receive'><Property Name='Activate' Value='True'/></Element>
  </Element>
  <Element Type='Task'><Element Type='Listen'><Element Type='Task'>
  <Element Type='Receive'><Property Name='Activate' Value='True'/></Element>
  </Element></Element></Element></Element>"

set_option maxRecDepth 100000 in
theorem nestedListen_parsed : ∃ m, Model.ofText nestedListen "orders.odx" = .ok m ∧
    View.ofModel m = ⟨.sequential 1 [3], [1, 3], some .listen, [some 0, some 1]⟩ :=
  Model.exists_of_append (by decide +kernel)

/-- The two receives race, but count as sequential ones. -/
theorem races_nestedListen : ∃ m, Model.ofText nestedListen "orders.odx" = .ok m ∧
    m.Races 0 ∧ m.starting = [1, 3] ∧ ofModel m = .sequential 1 [3] := by
  obtain ⟨m, hm, hv⟩ := nestedListen_parsed
  obtain ⟨hp, hs, -, -⟩ := View.mk.inj hv
  obtain ⟨d, hd⟩ := Model.assembled_of_ofText hm
  exact ⟨m, hm, races_of_view hd.linked hv (by decide), hs, hp⟩

end ReceivePattern

end Orchestration
