import Orchestration.Proofs.Settings.Entry

/-!
# Orchestration.Proofs.Settings.Refusal

How a mapping is refused.

* `TooLong`, `LongKey` — numbers that cannot be shown, as keys.
* `setThreshold_tooLong_iff`, `setPattern_tooLong_iff`, `setEntry_tooLong_iff` — which thresholds,
  patterns and entries are refused because of such a key.
* `override_tooLong_iff` — a mapping is, when nothing is wrong before that key.
* `override_error` — every other refusal is a failure of the settings.
-/

namespace Orchestration.Settings

open Text (Wide)
open Yaml (Value)

/-! ## Causes -/

/-- A key that is a number with too many digits to be shown. -/
def TooLong (key : Value) : Prop :=
  ∃ n : Int, key = .int n ∧ Text.Numeral.longest < (toString n.natAbs).length

/-- Among the patterns or their thresholds there is a key that cannot be shown. -/
def LongKey (entries : List (Wide × Value)) : Prop :=
  ∃ patterns, (.whole "pattern_thresholds", Value.mapping patterns) ∈ entries ∧
    ∃ e ∈ patterns, TooLong e.1 ∨ ∃ inner, e.2 = .mapping inner ∧ ∃ x ∈ inner, TooLong x.1

theorem display?_eq_none_iff {key : Value} : key.display? = none ↔ TooLong key := by
  constructor
  · intro h
    cases key with
    | int n =>
      simp only [Value.display?] at h
      split at h
      · next hlong => exact ⟨n, rfl, hlong⟩
      · cases h
    | _ => cases h
  · rintro ⟨n, rfl, hlong⟩
    exact if_pos hlong

theorem TooLong.keyText?_eq_none {key : Value} (h : TooLong key) : keyText? key = none := by
  obtain ⟨n, rfl, -⟩ := h
  rfl

theorem unknown_eq_keyTooLong_iff {key : Value} {problem : Wide → SettingsProblem}
    (hproblem : ∀ s, problem s ≠ .keyTooLong) :
    unknown key problem = .keyTooLong ↔ TooLong key := by
  unfold unknown
  rw [← display?_eq_none_iff]
  split
  · next shown hshown => simp [hshown, hproblem]
  · next hnone => simp [hnone]

theorem setThreshold_tooLong_iff (p : Pattern) (t : Thresholds) (e : Value × Value) :
    setThreshold p t e = .error .keyTooLong ↔ TooLong e.1 := by
  have hunknown : unknown e.1 (fun shown => .unknownThreshold shown p.label) = .keyTooLong ↔
      TooLong e.1 := unknown_eq_keyTooLong_iff nofun
  constructor
  · intro h
    unfold setThreshold at h
    split at h
    · exact hunknown.mp (Except.error.inj h)
    · split at h
      · cases h
      · cases h
  · intro h
    rw [setThreshold, h.keyText?_eq_none]
    exact congrArg Except.error (hunknown.mpr h)

/-- A pattern that cannot be shown, or that has a threshold before which all is well and which
cannot be shown. -/
inductive LongPattern : Value × Value → Prop where
  | key {k v : Value} : TooLong k → LongPattern (k, v)
  | threshold {p : Pattern} {inner : List (Value × Value)} :
    FirstBad (ThresholdEntry p) (fun e => TooLong e.1) inner →
      LongPattern (.str p.label, .mapping inner)

theorem setPattern_tooLong_iff (t : Thresholds) (e : Value × Value) :
    setPattern t e = .error .keyTooLong ↔ LongPattern e := by
  have hunknown : ∀ key, unknown key .unknownPattern = .keyTooLong ↔ TooLong key := fun key =>
    unknown_eq_keyTooLong_iff nofun
  have hinner : ∀ (p : Pattern) (inner : List (Value × Value)),
      inner.foldlM (setThreshold p) t = .error .keyTooLong ↔
        FirstBad (ThresholdEntry p) (fun e => TooLong e.1) inner := fun p inner =>
    foldlM_error_iff (fun e _ t => setThreshold_succeeds_iff p t e)
      (fun e _ t => setThreshold_tooLong_iff p t e) t
  constructor
  · intro h
    unfold setPattern at h
    split at h
    · exact .key ((hunknown e.1).mp (Except.error.inj h))
    · next p hp =>
      obtain ⟨s, hs, hlabel⟩ := Option.bind_eq_some_iff.mp hp
      obtain rfl := ofLabel?_eq_some_iff.mp hlabel
      split at h
      · next inner hv =>
        have he : e = (.str p.label, .mapping inner) := Prod.ext (keyText?_eq_some_iff.mp hs) hv
        exact he ▸ .threshold ((hinner p inner).mp h)
      · cases h
  · intro h
    cases h with
    | key hkey =>
      rw [setPattern, hkey.keyText?_eq_none]
      exact congrArg Except.error ((hunknown _).mpr hkey)
    | @threshold p inner hfirst =>
      have hlabel : Pattern.ofLabel? p.label = some p := ofLabel?_eq_some_iff.mpr rfl
      rw [setPattern, keyText?, Option.bind_some, hlabel]
      exact (hinner p inner).mpr hfirst

/-- An entry with patterns of which the first one that is not acceptable cannot be shown. -/
inductive LongEntry : Wide × Value → Prop where
  | patterns {patterns : List (Value × Value)} :
    FirstBad PatternEntry LongPattern patterns →
      LongEntry ("pattern_thresholds", .mapping patterns)

theorem LongEntry.longKey {entries : List (Wide × Value)} {e : Wide × Value}
    (h : LongEntry e) (he : e ∈ entries) : LongKey entries := by
  cases h with
  | @patterns patterns hpatterns =>
    obtain ⟨x, hx, hlong⟩ := hpatterns.exists_mem
    refine ⟨patterns, he, x, hx, ?_⟩
    cases hlong with
    | key hkey => exact .inl hkey
    | @threshold p inner hinner => exact .inr ⟨inner, rfl, hinner.exists_mem⟩

theorem setEntry_tooLong_iff (s : Settings) {e : Wide × Value} (he : e.1 ∈ overridable) :
    setEntry s e = .error .keyTooLong ↔ LongEntry e := by
  have hpatterns : ∀ patterns : List (Value × Value),
      patterns.foldlM setPattern s.thresholds = .error .keyTooLong ↔
        FirstBad PatternEntry LongPattern patterns := fun patterns =>
    foldlM_error_iff (fun e _ t => setPattern_succeeds_iff t e)
      (fun e _ t => setPattern_tooLong_iff t e) s.thresholds
  constructor
  · intro h
    obtain ⟨key, v⟩ := e
    rcases mem_overridable.mp he with rfl | rfl | rfl | rfl | rfl
    · rw [setEntry_supported] at h
      split at h <;> cases h
    · rw [setEntry_limited] at h
      split at h <;> cases h
    · rw [setEntry_exampleLimit] at h
      split at h <;> cases h
    · rw [setEntry_sourcePattern] at h
      split at h <;> cases h
    · rw [setEntry_thresholds] at h
      split at h
      · next patterns =>
        refine .patterns ((hpatterns patterns).mp ?_)
        cases ht : patterns.foldlM setPattern s.thresholds with
        | ok t =>
          rw [ht] at h
          cases h
        | error problem =>
          rw [ht] at h
          exact congrArg Except.error (Except.error.inj h)
      · cases h
  · intro h
    cases h with
    | patterns hfirst =>
      rw [setEntry_thresholds]
      exact congrArg (Except.map _) ((hpatterns _).mpr hfirst)

theorem foldlM_setEntry_tooLong_iff {entries : List (Wide × Value)}
    (hknown : ∀ e ∈ entries, e.1 ∈ overridable) (s : Settings) :
    entries.foldlM setEntry s = .error .keyTooLong ↔ FirstBad Acceptable LongEntry entries :=
  foldlM_error_iff (f := setEntry) (fun e he s => setEntry_succeeds_iff s (hknown e he))
    (fun e he s => setEntry_tooLong_iff s (hknown e he)) s

/-- Everything but a key that cannot be shown is a failure of the settings. -/
theorem refusal_cases (path : String) (problem : SettingsProblem) :
    (problem = .keyTooLong ∧ refusal path problem = .settings .outOfRange) ∨
      refusal path problem = .failure ⟨.settings problem, path⟩ := by
  cases problem with
  | keyTooLong => exact .inl ⟨rfl, rfl⟩
  | _ => exact .inr rfl

/-! ## Refusals -/

/-- A mapping with keys that are all known is refused as a whole for a key that cannot be shown
exactly when that key is what is wrong first. -/
theorem override_tooLong_iff {entries : List (Wide × Value)} (path : String) :
    override path (.mapping (keyed entries)) = .error (.settings .outOfRange) ↔
      (∀ e ∈ entries, e.1 ∈ overridable) ∧ FirstBad Acceptable LongEntry entries := by
  rw [override_keyed]
  split
  · next hknown =>
    rw [← foldlM_setEntry_tooLong_iff hknown .usual, and_iff_right hknown]
    cases entries.foldlM setEntry .usual with
    | ok s => exact iff_of_false (fun h => nomatch h) (fun h => nomatch h)
    | error problem =>
      rcases refusal_cases path problem with ⟨rfl, hrefusal⟩ | hrefusal
      · exact iff_of_true (congrArg Except.error hrefusal) rfl
      · constructor
        · intro h
          cases hrefusal.symm.trans (Except.error.inj h)
        · intro h
          obtain rfl := Except.error.inj h
          cases hrefusal
  · next hunknown =>
    refine iff_of_false (fun h => ?_) fun h => hunknown h.1
    cases Except.error.inj h

theorem override_error {entries : List (Wide × Value)} {path : String} {e : Trouble}
    (h : override path (.mapping (keyed entries)) = .error e) :
    (∃ problem, e = .failure ⟨.settings problem, path⟩) ∨
      e = .settings .outOfRange ∧ LongKey entries := by
  have hrefusal : ∃ problem, e = refusal path problem := by
    rw [override_keyed] at h
    split at h
    · cases hrun : entries.foldlM setEntry .usual with
      | ok s =>
        rw [hrun] at h
        cases h
      | error problem =>
        rw [hrun] at h
        exact ⟨problem, (Except.error.inj h).symm⟩
    · exact ⟨_, (Except.error.inj h).symm⟩
  obtain ⟨problem, rfl⟩ := hrefusal
  rcases refusal_cases path problem with ⟨rfl, hlong⟩ | hfailure
  · rw [hlong] at h
    obtain ⟨e, he, hentry⟩ := ((override_tooLong_iff path).mp h).2.exists_mem
    exact .inr ⟨hlong, hentry.longKey he⟩
  · exact .inl ⟨problem, hfailure⟩

/-- An unknown pattern whose name is a number with too many digits is not told by a failure of the
settings. -/
theorem override_tooLong {key : Value} (hkey : TooLong key) (v : Value) (path : String) :
    override path (.mapping (keyed [("pattern_thresholds", .mapping [(key, v)])])) =
      .error (.settings .outOfRange) := by
  refine (override_tooLong_iff path).mpr ⟨by simp [overridable], ?_⟩
  exact .here (.patterns (.here (.key hkey)))

theorem lt_length_pow {k : Nat} (hk : 0 < k) : k < (toString (Nat.pow 10 k)).length := by
  refine Nat.lt_of_not_le fun hshort => ?_
  exact Nat.lt_irrefl _ ((Nat.length_repr_le_iff hk).mp hshort)

/-- The least number with too many digits. -/
def longNumber : Nat := Nat.pow 10 Text.Numeral.longest

theorem tooLong_of_lt {n : Nat} (h : Text.Numeral.longest < (toString n).length) :
    TooLong (.int n) :=
  ⟨n, rfl, by rwa [Int.natAbs_natCast]⟩

theorem longNumber_tooLong : TooLong (.int longNumber) := by
  refine tooLong_of_lt ?_
  unfold longNumber
  exact lt_length_pow (by decide)

/-- Thresholds for a pattern whose name is a number. -/
def longKey (n : Nat) : List (Wide × Value) :=
  [("pattern_thresholds", .mapping [(.int n, .mapping [(.str "min_sends", .int 1)])])]

theorem override_longKey :
    (¬ ∀ e ∈ longKey longNumber, Acceptable e) ∧
      override "config.yaml" (.mapping (keyed (longKey longNumber))) =
        .error (.settings .outOfRange) ∧
      (Trouble.settings .outOfRange).label ≠ FailureKind.settings.label := by
  have hrun := override_tooLong longNumber_tooLong (.mapping [(.str "min_sends", .int 1)])
    "config.yaml"
  refine ⟨fun ha => ?_, hrun, by decide⟩
  obtain ⟨s, hs⟩ := (override_succeeds_iff "config.yaml").mpr ha
  rw [longKey, hrun] at hs
  cases hs

end Orchestration.Settings
