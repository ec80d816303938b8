import Orchestration.Proofs.Settings.Entry
import Orchestration.Proofs.Yaml.Order

/-!
# Orchestration.Proofs.Settings.Change

What the entries of a mapping change in the usual settings.

* `Mentions` — the entries set a threshold.
* `Overridden` — settings that are as the entries say, and usual where these say nothing.
* `overridden_of_run` — entries with different keys give such settings.
* `Overridden.unique`, `Overridden.reordered` — there is no choice, and order does not matter.
-/

namespace Orchestration.Settings

open Text (Wide)
open Yaml (Value)

/-! ## Thresholds -/

theorem label_injective {p q : Pattern} (h : p.label = q.label) : p = q := by
  have hp : Pattern.ofLabel? p.label = some p := ofLabel?_eq_some_iff.mpr rfl
  have hq : Pattern.ofLabel? p.label = some q := ofLabel?_eq_some_iff.mpr (congrArg Wide.whole h)
  exact Option.some.inj (hp.symm.trans hq)

theorem measureLabel_injective {x y : Measure} (h : x.label = y.label) : x = y := by
  cases x <;> cases y <;> first | rfl | simp [Measure.label] at h

@[simp] theorem set_self (t : Thresholds) (p : Pattern) (x : Measure) (n : Nat) :
    t.set p x n p x = n := if_pos ⟨rfl, rfl⟩

theorem set_of_ne (t : Thresholds) {p q : Pattern} {x y : Measure} (n : Nat)
    (h : q = p → y ≠ x) : t.set p x n q y = t q y := if_neg fun ⟨hq, hy⟩ => h hq hy

/-- Two pairs whose keys are not the same text. -/
def KeysDiffer (e e' : Value × Value) : Prop := ∀ s, e.1 = .str s → e'.1 ≠ .str s

section

variable {p : Pattern} {x : Measure} {n : Nat} {inner patterns : List (Value × Value)}
  {t t' : Thresholds}

theorem thresholds_given (hkeys : inner.Pairwise KeysDiffer)
    (hx : (Value.str x.label, Value.int n) ∈ inner)
    (h : inner.foldlM (setThreshold p) t = .ok t') : t' p x = n := by
  refine foldlM_effect (fun t => t p x) (P := (· = n)) hkeys hx ?_ ?_ h
  · intro t t' h
    obtain ⟨y, -, k, he, rfl⟩ := setThreshold_ok_iff.mp h
    obtain ⟨hlabel, hk⟩ := Prod.mk.inj he
    obtain rfl := measureLabel_injective (Wide.whole.inj (Value.str.inj hlabel))
    obtain rfl := Int.ofNat.inj (Value.int.inj hk)
    exact set_self ..
  · intro e _ he t t' h
    obtain ⟨y, -, k, rfl, rfl⟩ := setThreshold_ok_iff.mp h
    refine set_of_ne t k fun _ hxy => ?_
    exact he x.label rfl (congrArg (fun x => Value.str (Measure.label x)) hxy.symm)

theorem thresholds_kept {q : Pattern}
    (hx : q = p → ∀ n : Nat, (Value.str x.label, Value.int n) ∉ inner)
    (h : inner.foldlM (setThreshold p) t = .ok t') : t' q x = t q x := by
  refine foldlM_frame (fun t => t q x) (fun e he t t' h => ?_) h
  obtain ⟨y, -, k, rfl, rfl⟩ := setThreshold_ok_iff.mp h
  refine set_of_ne t k fun hq hxy => ?_
  subst hxy
  exact hx hq k he

/-- The patterns of a mapping set a threshold. -/
def Sets (patterns : List (Value × Value)) (p : Pattern) (x : Measure) (n : Nat) : Prop :=
  ∃ inner, (Value.str p.label, Value.mapping inner) ∈ patterns ∧
    (Value.str x.label, Value.int n) ∈ inner

theorem patterns_given (hkeys : patterns.Pairwise KeysDiffer)
    (hinner : ∀ k inner, (k, Value.mapping inner) ∈ patterns → inner.Pairwise KeysDiffer)
    (hx : Sets patterns p x n) (h : patterns.foldlM setPattern t = .ok t') : t' p x = n := by
  obtain ⟨inner, hmem, hx⟩ := hx
  refine foldlM_effect (fun t => t p x) (P := (· = n)) hkeys hmem ?_ ?_ h
  · intro t t' h
    obtain ⟨q, inner', he, h⟩ := setPattern_ok_iff.mp h
    obtain ⟨hlabel, hv⟩ := Prod.mk.inj he
    obtain rfl := label_injective (Wide.whole.inj (Value.str.inj hlabel))
    obtain rfl := Value.mapping.inj hv
    exact thresholds_given (hinner _ _ hmem) hx h
  · intro e _ he t t' h
    obtain ⟨q, inner', rfl, hinner'⟩ := setPattern_ok_iff.mp h
    refine thresholds_kept (fun hpq => ?_) hinner'
    subst hpq
    exact absurd rfl (he _ rfl)

theorem patterns_kept (hx : ∀ n, ¬ Sets patterns p x n)
    (h : patterns.foldlM setPattern t = .ok t') : t' p x = t p x := by
  refine foldlM_frame (fun t => t p x) (fun e he t t' h => ?_) h
  obtain ⟨q, inner, rfl, hinner⟩ := setPattern_ok_iff.mp h
  refine thresholds_kept (fun hpq n hn => ?_) hinner
  subst hpq
  exact hx n ⟨inner, he, hn⟩

end

/-- The entries of settings set a threshold. -/
def Mentions (entries : List (Wide × Value)) (p : Pattern) (x : Measure) (n : Nat) : Prop :=
  ∃ patterns, (.whole "pattern_thresholds", Value.mapping patterns) ∈ entries ∧ Sets patterns p x n

/-- Settings that are as the entries say, and usual where these say nothing. -/
structure Overridden (entries : List (Wide × Value)) (s : Settings) : Prop where
  supported : ∀ v, (.whole "supported_shapes", v) ∈ entries → TypeNames v s.supported
  limited : ∀ v, (.whole "partially_supported_shapes", v) ∈ entries → TypeNames v s.limited
  exampleLimit : ∀ v, (.whole "unsupported_example_limit", v) ∈ entries → v = .int s.exampleLimit
  sourcePattern : ∀ v, (.whole "source_pattern", v) ∈ entries → v = .str s.sourcePattern
  threshold : ∀ p x n, Mentions entries p x n → s.thresholds p x = n
  usualSupported :
    (∀ v, (.whole "supported_shapes", v) ∉ entries) → s.supported = Settings.usual.supported
  usualLimited :
    (∀ v, (.whole "partially_supported_shapes", v) ∉ entries) →
      s.limited = Settings.usual.limited
  usualExampleLimit :
    (∀ v, (.whole "unsupported_example_limit", v) ∉ entries) →
      s.exampleLimit = Settings.usual.exampleLimit
  usualSourcePattern :
    (∀ v, (.whole "source_pattern", v) ∉ entries) →
      s.sourcePattern = Settings.usual.sourcePattern
  usualThreshold : ∀ p x, (∀ n, ¬ Mentions entries p x n) →
    s.thresholds p x = Settings.usual.thresholds p x
  usualTiers : s.tiers = Settings.usual.tiers

/-- What an entry with a key does to settings. -/
structure Step.Effect (s : Settings) (key : Wide) (v : Value) (s' : Settings) : Prop where
  supported : key = "supported_shapes" → TypeNames v s'.supported
  limited : key = "partially_supported_shapes" → TypeNames v s'.limited
  exampleLimit : key = "unsupported_example_limit" → v = .int s'.exampleLimit
  sourcePattern : key = "source_pattern" → v = .str s'.sourcePattern
  thresholds : key = "pattern_thresholds" →
    ∃ patterns, v = .mapping patterns ∧ patterns.foldlM setPattern s.thresholds = .ok s'.thresholds
  keptSupported : key ≠ "supported_shapes" → s'.supported = s.supported
  keptLimited : key ≠ "partially_supported_shapes" → s'.limited = s.limited
  keptExampleLimit : key ≠ "unsupported_example_limit" → s'.exampleLimit = s.exampleLimit
  keptSourcePattern : key ≠ "source_pattern" → s'.sourcePattern = s.sourcePattern
  keptThresholds : key ≠ "pattern_thresholds" → s'.thresholds = s.thresholds
  keptTiers : s'.tiers = s.tiers

theorem Step.effect {s s' : Settings} {e : Wide × Value} (h : Step s e s') :
    Step.Effect s e.1 e.2 s' := by
  constructor <;> cases h <;> intros <;> first | rfl | assumption | simp_all

section

variable {entries : List (Wide × Value)} {s : Settings}

theorem pairwise_keys (h : Value.Sound (.mapping (keyed entries))) :
    entries.Pairwise fun e e' => e.1 ≠ e'.1 := by
  have hkeys := h.apart
  rw [Yaml.Apart, keyed, List.map_map, List.pairwise_map] at hkeys
  exact hkeys.imp fun hne heq => hne _ rfl (congrArg Value.str heq.symm)

theorem pairwise_keysDiffer {pairs : List (Value × Value)} (h : Value.Sound (.mapping pairs)) :
    pairs.Pairwise KeysDiffer := by
  have hkeys := h.apart
  rwa [Yaml.Apart, List.pairwise_map] at hkeys

variable {β : Type} (look : Settings → β) {key : Wide}

theorem run_given (hkeys : entries.Pairwise fun e e' => e.1 ≠ e'.1)
    (hknown : ∀ e ∈ entries, e.1 ∈ overridable) (h : entries.foldlM setEntry .usual = .ok s)
    {v : Value} (hv : (key, v) ∈ entries) {P : β → Prop}
    (heffect : ∀ s s', Step.Effect s key v s' → P (look s'))
    (hframe : ∀ s k w s', Step.Effect s k w s' → k ≠ key → look s' = look s) : P (look s) := by
  refine foldlM_effect look hkeys hv (fun s s' h => ?_) (fun e he hne s s' h => ?_) h
  · exact heffect s s' ((setEntry_ok_iff (hknown _ hv)).mp h).effect
  · exact hframe s e.1 e.2 s' ((setEntry_ok_iff (hknown e he)).mp h).effect (Ne.symm hne)

theorem run_kept (hknown : ∀ e ∈ entries, e.1 ∈ overridable)
    (h : entries.foldlM setEntry .usual = .ok s)
    (hframe : ∀ s v s' k, (k, v) ∈ entries → Step.Effect s k v s' → look s' = look s) :
    look s = look .usual :=
  foldlM_frame look (fun e he s s' h =>
    hframe s e.2 s' e.1 he ((setEntry_ok_iff (hknown e he)).mp h).effect) h

theorem overridden_of_run (hsound : Value.Sound (.mapping (keyed entries)))
    (hknown : ∀ e ∈ entries, e.1 ∈ overridable)
    (h : entries.foldlM setEntry .usual = .ok s) : Overridden entries s := by
  have hkeys := pairwise_keys hsound
  have hne : ∀ {key k : Wide} {v : Value}, (∀ v, (key, v) ∉ entries) → (k, v) ∈ entries →
      k ≠ key := fun hnone hmem hk => hnone _ (hk ▸ hmem)
  refine ⟨fun v hv => ?_, fun v hv => ?_, fun v hv => ?_, fun v hv => ?_, fun p x n hx => ?_,
    fun hnone => ?_, fun hnone => ?_, fun hnone => ?_, fun hnone => ?_, fun p x hnone => ?_, ?_⟩
  · exact run_given Settings.supported hkeys hknown h hv
      (fun _ _ h => h.supported rfl) fun _ _ _ _ h => h.keptSupported
  · exact run_given Settings.limited hkeys hknown h hv
      (fun _ _ h => h.limited rfl) fun _ _ _ _ h => h.keptLimited
  · exact run_given Settings.exampleLimit (P := fun n => v = .int n) hkeys hknown h hv
      (fun _ _ h => h.exampleLimit rfl) fun _ _ _ _ h => h.keptExampleLimit
  · exact run_given Settings.sourcePattern (P := fun s => v = .str s) hkeys hknown h hv
      (fun _ _ h => h.sourcePattern rfl) fun _ _ _ _ h => h.keptSourcePattern
  · obtain ⟨patterns, hv, hx⟩ := hx
    have hpatterns : Value.Sound (.mapping patterns) :=
      hsound.inner (List.mem_map_of_mem (f := fun e => (Value.str e.1, e.2)) hv)
    refine run_given (fun s => s.thresholds p x) (P := (· = n)) hkeys hknown h hv
      (fun s s' h => ?_) fun _ _ _ _ h hne => congrFun (congrFun (h.keptThresholds hne) p) x
    obtain ⟨patterns', he, hrun⟩ := h.thresholds rfl
    obtain rfl := Value.mapping.inj he
    exact patterns_given (pairwise_keysDiffer hpatterns)
      (fun k inner hk => pairwise_keysDiffer (hpatterns.inner hk)) hx hrun
  · exact run_kept Settings.supported hknown h
      fun _ _ _ _ hmem h => h.keptSupported (hne hnone hmem)
  · exact run_kept Settings.limited hknown h
      fun _ _ _ _ hmem h => h.keptLimited (hne hnone hmem)
  · exact run_kept Settings.exampleLimit hknown h
      fun _ _ _ _ hmem h => h.keptExampleLimit (hne hnone hmem)
  · exact run_kept Settings.sourcePattern hknown h
      fun _ _ _ _ hmem h => h.keptSourcePattern (hne hnone hmem)
  · refine run_kept (fun s => s.thresholds p x) hknown h fun s v s' k hmem h => ?_
    by_cases hk : k = "pattern_thresholds"
    · obtain ⟨patterns, rfl, hrun⟩ := h.thresholds hk
      exact patterns_kept (fun n hx => hnone n ⟨patterns, hk ▸ hmem, hx⟩) hrun
    · exact congrFun (congrFun (h.keptThresholds hk) p) x
  · exact run_kept Settings.tiers hknown h fun _ _ _ _ _ h => h.keptTiers

end

theorem TypeNames.unique {v : Value} {names names' : List Wide} (h : TypeNames v names)
    (h' : TypeNames v names') : names = names' := by
  have hnames := names?_eq_some_iff.mpr h
  exact Option.some.inj (hnames.symm.trans (names?_eq_some_iff.mpr h'))

/-- What the entries say, or what is usual where they say nothing, leaves no choice. -/
theorem Overridden.unique {entries : List (Wide × Value)} {s s' : Settings}
    (h : Overridden entries s) (h' : Overridden entries s') : s = s' := by
  have hsame : ∀ {β : Type} {key : Wide} {P : Value → β → Prop} {a b usual : β},
      (∀ {v a b}, P v a → P v b → a = b) → (∀ v, (key, v) ∈ entries → P v a) →
      (∀ v, (key, v) ∈ entries → P v b) → ((∀ v, (key, v) ∉ entries) → a = usual) →
      ((∀ v, (key, v) ∉ entries) → b = usual) → a = b := by
    intro β key P a b usual hP ha hb hna hnb
    by_cases hv : ∃ v, (key, v) ∈ entries
    · obtain ⟨v, hv⟩ := hv
      exact hP (ha v hv) (hb v hv)
    · rw [not_exists] at hv
      rw [hna hv, hnb hv]
  have hsupported := hsame (P := TypeNames) TypeNames.unique h.supported h'.supported
    h.usualSupported h'.usualSupported
  have hlimited := hsame (P := TypeNames) TypeNames.unique h.limited h'.limited h.usualLimited
    h'.usualLimited
  have hlimit := hsame (P := fun v n => v = .int (n : Nat))
    (fun ha hb => Int.ofNat.inj (Value.int.inj (ha.symm.trans hb)))
    h.exampleLimit h'.exampleLimit h.usualExampleLimit h'.usualExampleLimit
  have hpattern := hsame (P := fun v s => v = .str s)
    (fun ha hb => Value.str.inj (ha.symm.trans hb))
    h.sourcePattern h'.sourcePattern h.usualSourcePattern h'.usualSourcePattern
  have hthresholds : s.thresholds = s'.thresholds := by
    funext p x
    by_cases hx : ∃ n, Mentions entries p x n
    · obtain ⟨n, hn⟩ := hx
      rw [h.threshold p x n hn, h'.threshold p x n hn]
    · rw [not_exists] at hx
      rw [h.usualThreshold p x hx, h'.usualThreshold p x hx]
  have htiers := h.usualTiers.trans h'.usualTiers.symm
  obtain ⟨pattern, supported, limited, limit, thresholds, tiers⟩ := s
  rw [Settings.mk.injEq]
  exact ⟨hpattern, hsupported, hlimited, hlimit, hthresholds, htiers⟩

/-! ## The order of keys -/

variable {n : Nat} {v v' : Value}

theorem TypeNames.isFlat {names : List Wide} (h : TypeNames v names) : v.IsFlat := by
  cases h <;> exact nofun

theorem ThresholdEntry.reordered {p : Pattern} {k : Value} (h : ThresholdEntry p (k, v))
    (hv : Value.Reordered n v v') : ThresholdEntry p (k, v') := by
  cases h with
  | intro x m hx =>
    obtain rfl := hv.eq_of_flat nofun
    exact .intro x m hx

theorem PatternEntry.reordered {k : Value} (h : PatternEntry (k, v))
    (hv : Value.Reordered n v v') : PatternEntry (k, v') := by
  cases h with
  | intro p inner hinner =>
    obtain ⟨inner', rfl, -⟩ := hv.pairs
    refine .intro p inner' fun e he => ?_
    obtain ⟨inner₁, hinner₁, hback⟩ := hv.symm.pairs
    obtain rfl := Value.mapping.inj hinner₁
    obtain ⟨w, m, hw, hwe⟩ := hback e.1 e.2 he
    exact (hinner _ hw).reordered hwe.symm

theorem Acceptable.reordered {key : Wide} (h : Acceptable (key, v))
    (hv : Value.Reordered n v v') : Acceptable (key, v') := by
  cases h with
  | supported hnames =>
    obtain rfl := hv.eq_of_flat hnames.isFlat
    exact .supported hnames
  | limited hnames =>
    obtain rfl := hv.eq_of_flat hnames.isFlat
    exact .limited hnames
  | exampleLimit m =>
    obtain rfl := hv.eq_of_flat nofun
    exact .exampleLimit m
  | sourcePattern htext =>
    obtain rfl := hv.eq_of_flat nofun
    exact .sourcePattern htext
  | thresholds hpatterns =>
    obtain ⟨patterns', rfl, -⟩ := hv.pairs
    refine .thresholds fun e he => ?_
    obtain ⟨patterns₁, hpatterns₁, hback⟩ := hv.symm.pairs
    obtain rfl := Value.mapping.inj hpatterns₁
    obtain ⟨w, m, hw, hwe⟩ := hback e.1 e.2 he
    exact (hpatterns _ hw).reordered hwe.symm

section

variable {entries entries' : List (Wide × Value)}

theorem mem_keyed {key : Wide} : (Value.str key, v) ∈ keyed entries ↔ (key, v) ∈ entries := by
  simp [keyed]

variable (h : Value.Reordered n (.mapping (keyed entries)) (.mapping (keyed entries')))

include h

theorem exists_entry {key : Wide} (hv : (key, v) ∈ entries) :
    ∃ v' m, (key, v') ∈ entries' ∧ Value.Reordered m v v' := by
  obtain ⟨es, hes, hpairs⟩ := h.pairs
  obtain rfl := Value.mapping.inj hes
  obtain ⟨v', m, hv', hvv'⟩ := hpairs _ _ (mem_keyed.mpr hv)
  exact ⟨v', m, mem_keyed.mp hv', hvv'⟩

theorem acceptable_reordered (ha : ∀ e ∈ entries, Acceptable e) : ∀ e ∈ entries', Acceptable e := by
  intro e he
  obtain ⟨v, m, hv, hve⟩ := exists_entry h.symm (show (e.1, e.2) ∈ entries' from he)
  exact (ha _ hv).reordered hve.symm

theorem mentions_reordered {p : Pattern} {x : Measure} {k : Nat} (hx : Mentions entries p x k) :
    Mentions entries' p x k := by
  obtain ⟨patterns, hpatterns, inner, hinner, hx⟩ := hx
  obtain ⟨v, m, hv, hvv⟩ := exists_entry h hpatterns
  obtain ⟨patterns', rfl, hpairs⟩ := hvv.pairs
  obtain ⟨w, m', hw, hww⟩ := hpairs _ _ hinner
  obtain ⟨inner', rfl, hpairs'⟩ := hww.pairs
  obtain ⟨u, m'', hu, huu⟩ := hpairs' _ _ hx
  obtain rfl := huu.eq_of_flat nofun
  exact ⟨patterns', hv, inner', hw, hu⟩

theorem Overridden.reordered {s : Settings} (hs : Overridden entries s) : Overridden entries' s := by
  have hback : ∀ {key v}, (key, v) ∈ entries' → ∃ w m, (key, w) ∈ entries ∧ Value.Reordered m w v :=
    fun hv => by
      obtain ⟨w, m, hw, hvw⟩ := exists_entry h.symm hv
      exact ⟨w, m, hw, hvw.symm⟩
  have hnone : ∀ {key}, (∀ v, (key, v) ∉ entries') → ∀ v, (key, v) ∉ entries := fun hnone v hv => by
    obtain ⟨w, -, hw, -⟩ := exists_entry h hv
    exact hnone w hw
  refine ⟨fun v hv => ?_, fun v hv => ?_, fun v hv => ?_, fun v hv => ?_, fun p x k hx => ?_,
    fun hn => hs.usualSupported (hnone hn), fun hn => hs.usualLimited (hnone hn),
    fun hn => hs.usualExampleLimit (hnone hn), fun hn => hs.usualSourcePattern (hnone hn),
    fun p x hn => hs.usualThreshold p x fun k hk => hn k (mentions_reordered h hk), hs.usualTiers⟩
  · obtain ⟨w, m, hw, hwv⟩ := hback hv
    have hnames := hs.supported w hw
    obtain rfl := hwv.eq_of_flat hnames.isFlat
    exact hnames
  · obtain ⟨w, m, hw, hwv⟩ := hback hv
    have hnames := hs.limited w hw
    obtain rfl := hwv.eq_of_flat hnames.isFlat
    exact hnames
  · obtain ⟨w, m, hw, hwv⟩ := hback hv
    obtain rfl := hs.exampleLimit w hw
    exact hwv.eq_of_flat nofun
  · obtain ⟨w, m, hw, hwv⟩ := hback hv
    obtain rfl := hs.sourcePattern w hw
    exact hwv.eq_of_flat nofun
  · exact hs.threshold p x k (mentions_reordered h.symm hx)

end

end Orchestration.Settings
