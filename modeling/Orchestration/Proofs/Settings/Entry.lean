import Orchestration.Override

/-!
# Orchestration.Proofs.Settings.Entry

The entries that settings may have.

* `foldlM_ok_iff`, `foldlM_frame`, `foldlM_effect`, `foldlM_error_iff` — steps that may fail, one
  after another: when they succeed, what they leave alone, what they establish, how they fail.
* `Acceptable` — the entries that are accepted; `setEntry_succeeds_iff` says that these are all.
* `Step` — what an accepted entry does.
* `override_succeeds_iff` — a mapping is accepted when all its entries are.
-/

namespace Orchestration

open Text (Wide)
open Yaml (Value)

/-! ## Steps that may fail, one after another -/

section

variable {σ α β ε : Type} {f : σ → α → Except ε σ}

theorem foldlM_cons_ok {a : α} {l : List α} {s s' : σ} :
    (a :: l).foldlM f s = .ok s' ↔ ∃ s₁, f s a = .ok s₁ ∧ l.foldlM f s₁ = .ok s' := by
  rw [List.foldlM_cons]
  cases h : f s a with
  | error e => simp [bind, Except.bind]
  | ok s₁ => simp [bind, Except.bind]

/-- When it does not depend on the state whether a step succeeds, all steps succeed together. -/
theorem foldlM_ok_iff {P : α → Prop} {l : List α}
    (hf : ∀ a ∈ l, ∀ s, (∃ s', f s a = .ok s') ↔ P a) (s : σ) :
    (∃ s', l.foldlM f s = .ok s') ↔ ∀ a ∈ l, P a := by
  induction l generalizing s with
  | nil => simp [pure, Except.pure]
  | cons a rest ih =>
    rw [List.forall_mem_cons] at hf
    simp only [foldlM_cons_ok, List.forall_mem_cons, ← hf.1 s]
    constructor
    · rintro ⟨s', s₁, hs₁, hs'⟩
      exact ⟨⟨s₁, hs₁⟩, (ih hf.2 s₁).mp ⟨s', hs'⟩⟩
    · rintro ⟨⟨s₁, hs₁⟩, hrest⟩
      obtain ⟨s', hs'⟩ := (ih hf.2 s₁).mpr hrest
      exact ⟨s', s₁, hs₁, hs'⟩

/-- What no step changes is at the end what it was at the beginning. -/
theorem foldlM_frame (look : σ → β) {l : List α} {s s' : σ}
    (hf : ∀ a ∈ l, ∀ s s', f s a = .ok s' → look s' = look s) (h : l.foldlM f s = .ok s') :
    look s' = look s := by
  induction l generalizing s with
  | nil =>
    obtain rfl := Except.ok.inj h
    rfl
  | cons a rest ih =>
    obtain ⟨s₁, hs₁, hs'⟩ := foldlM_cons_ok.mp h
    rw [ih (fun b hb => hf b (List.mem_cons_of_mem _ hb)) hs']
    exact hf a (List.mem_cons_self ..) s s₁ hs₁

/-- What one step establishes is there at the end when no step after it changes it. -/
theorem foldlM_effect (look : σ → β) {P : β → Prop} {apart : α → α → Prop} {l : List α}
    (hl : l.Pairwise apart) {a : α} (ha : a ∈ l) {s s' : σ}
    (heffect : ∀ s s', f s a = .ok s' → P (look s'))
    (hframe : ∀ b ∈ l, apart a b → ∀ s s', f s b = .ok s' → look s' = look s)
    (h : l.foldlM f s = .ok s') : P (look s') := by
  induction l generalizing s with
  | nil => cases ha
  | cons b rest ih =>
    obtain ⟨s₁, hs₁, hs'⟩ := foldlM_cons_ok.mp h
    rw [List.pairwise_cons] at hl
    have hrest := fun b hb => hframe b (List.mem_cons_of_mem _ hb)
    rcases List.mem_cons.mp ha with rfl | ha
    · rw [foldlM_frame look (fun b hb => hrest b hb (hl.1 b hb)) hs']
      exact heffect s s₁ hs₁
    · exact ih hl.2 ha hrest hs'

/-- The first item that is not good is bad. -/
inductive FirstBad (good bad : α → Prop) : List α → Prop where
  | here {a : α} {rest : List α} : bad a → FirstBad good bad (a :: rest)
  | later {a : α} {rest : List α} : good a → FirstBad good bad rest → FirstBad good bad (a :: rest)

theorem FirstBad.exists_mem {good bad : α → Prop} {l : List α} (h : FirstBad good bad l) :
    ∃ a ∈ l, bad a := by
  induction h with
  | here ha => exact ⟨_, List.mem_cons_self, ha⟩
  | later _ _ ih =>
    obtain ⟨a, ha, hbad⟩ := ih
    exact ⟨a, List.mem_cons_of_mem _ ha, hbad⟩

/-- When it does not depend on the state how a step ends, the first step that fails decides. -/
theorem foldlM_error_iff {good bad : α → Prop} {e : ε} {l : List α}
    (hgood : ∀ a ∈ l, ∀ s, (∃ s', f s a = .ok s') ↔ good a)
    (hbad : ∀ a ∈ l, ∀ s, f s a = .error e ↔ bad a) (s : σ) :
    l.foldlM f s = .error e ↔ FirstBad good bad l := by
  induction l generalizing s with
  | nil => exact iff_of_false (fun h => nomatch h) (fun h => nomatch h)
  | cons a rest ih =>
    rw [List.forall_mem_cons] at hgood hbad
    have hgood_a := hgood.1 s
    have hbad_a := hbad.1 s
    rw [List.foldlM_cons]
    cases ha : f s a with
    | error e' =>
      rw [ha] at hgood_a hbad_a
      constructor
      · intro h
        exact .here (hbad_a.mp h)
      · rintro (hbad | ⟨hgood, -⟩)
        · exact hbad_a.mpr hbad
        · exact absurd (hgood_a.mpr hgood) (fun ⟨_, h⟩ => nomatch h)
    | ok s₁ =>
      rw [ha] at hgood_a hbad_a
      have hrest := ih hgood.2 hbad.2 s₁
      constructor
      · intro h
        exact .later (hgood_a.mp ⟨s₁, rfl⟩) (hrest.mp h)
      · rintro (hbad | ⟨-, hlater⟩)
        · exact absurd (hbad_a.mpr hbad) (fun h => nomatch h)
        · exact hrest.mpr hlater

end

namespace Settings

/-! ## What is accepted -/

/-- A value that lists type names. -/
inductive TypeNames : Value → List Wide → Prop where
  | list (names : List Wide) : TypeNames (.list (names.map .str)) names
  | noPairs : TypeNames (.pairs []) []

/-- A threshold that a pattern has, and a number for it. -/
inductive ThresholdEntry (p : Pattern) : Value × Value → Prop where
  | intro (x : Measure) (n : Nat) : x ∈ p.measures → ThresholdEntry p (.str x.label, .int n)

/-- A pattern, and thresholds for it. -/
inductive PatternEntry : Value × Value → Prop where
  | intro (p : Pattern) (inner : List (Value × Value)) :
    (∀ e ∈ inner, ThresholdEntry p e) → PatternEntry (.str p.label, .mapping inner)

/-- An entry of acceptable settings. -/
inductive Acceptable : Wide × Value → Prop where
  | supported {v : Value} {names : List Wide} :
    TypeNames v names → Acceptable ("supported_shapes", v)
  | limited {v : Value} {names : List Wide} :
    TypeNames v names → Acceptable ("partially_supported_shapes", v)
  | exampleLimit (n : Nat) : Acceptable ("unsupported_example_limit", .int n)
  | sourcePattern {s : Wide} : s ≠ "" → Acceptable ("source_pattern", .str s)
  | thresholds {patterns : List (Value × Value)} :
    (∀ e ∈ patterns, PatternEntry e) → Acceptable ("pattern_thresholds", .mapping patterns)

theorem mapM_text?_eq_some_iff {items : List Value} {names : List Wide} :
    (items.mapM fun v => match v with | .str s => some s | _ => none) = some names ↔
      items = names.map .str := by
  induction items generalizing names with
  | nil => cases names <;> simp
  | cons v rest ih =>
    rw [List.mapM_cons]
    cases v with
    | str s =>
      cases names with
      | nil => simp [Option.bind_eq_some_iff]
      | cons name names =>
        simp only [Option.bind_eq_bind, Option.bind_eq_some_iff, ih, List.map_cons,
          List.cons.injEq, Option.some.injEq, Value.str.injEq]
        constructor
        · rintro ⟨_, rfl, _, hnames, hs⟩
          obtain ⟨rfl, rfl⟩ := List.cons.inj (Option.some.inj hs)
          exact ⟨rfl, hnames⟩
        · rintro ⟨rfl, rfl⟩
          simp
    | _ => cases names <;> simp

theorem names?_eq_some_iff {v : Value} {names : List Wide} :
    names? v = some names ↔ TypeNames v names := by
  constructor
  · intro h
    unfold names? at h
    split at h
    · obtain rfl := mapM_text?_eq_some_iff.mp h
      exact .list names
    · obtain rfl := Option.some.inj h
      exact .noPairs
    · cases h
  · rintro (_ | _)
    · exact mapM_text?_eq_some_iff.mpr rfl
    · rfl

theorem count?_eq_some_iff {v : Value} {n : Nat} : count? v = some n ↔ v = .int n := by
  constructor
  · intro h
    unfold count? at h
    split at h
    · obtain rfl := Option.some.inj h
      rfl
    · cases h
  · rintro rfl
    rfl

theorem text?_eq_some_iff {v : Value} {s : Wide} : text? v = some s ↔ v = .str s ∧ s ≠ "" := by
  constructor
  · intro h
    unfold text? at h
    split at h
    · split at h
      · cases h
      · next s' hs' =>
        obtain rfl := Option.some.inj h
        exact ⟨rfl, hs'⟩
    · cases h
  · rintro ⟨rfl, hs⟩
    exact if_neg hs

theorem ofLabel?_eq_some_iff {s : Wide} {p : Pattern} :
    Pattern.ofLabel? s = some p ↔ s = p.label := by
  constructor
  · intro h
    have hlabel := List.find?_some h
    exact (of_decide_eq_true hlabel).symm
  · rintro rfl
    cases p <;> decide

theorem measure?_eq_some_iff {p : Pattern} {s : Wide} {x : Measure} :
    p.measure? s = some x ↔ x ∈ p.measures ∧ s = x.label := by
  constructor
  · intro h
    have hlabel := List.find?_some h
    exact ⟨List.mem_of_find?_eq_some h, (of_decide_eq_true hlabel).symm⟩
  · rintro ⟨hx, rfl⟩
    have hfound : ∀ x ∈ p.measures, p.measure? x.label = some x := by cases p <;> decide
    exact hfound x hx

theorem keyText?_eq_some_iff {v : Value} {s : Wide} : keyText? v = some s ↔ v = .str s := by
  constructor
  · intro h
    unfold keyText? at h
    split at h
    · obtain rfl := Option.some.inj h
      rfl
    · cases h
  · rintro rfl
    rfl

/-! ## What a step does -/

theorem setThreshold_ok_iff {p : Pattern} {t t' : Thresholds} {e : Value × Value} :
    setThreshold p t e = .ok t' ↔
      ∃ x ∈ p.measures, ∃ n : Nat, e = (.str x.label, .int n) ∧ t' = t.set p x n := by
  constructor
  · intro h
    unfold setThreshold at h
    split at h
    · cases h
    · next x hx =>
      obtain ⟨s, hs, hmeasure⟩ := Option.bind_eq_some_iff.mp hx
      obtain ⟨hmem, rfl⟩ := measure?_eq_some_iff.mp hmeasure
      split at h
      · cases h
      · next n hn =>
        refine ⟨x, hmem, n, ?_, (Except.ok.inj h).symm⟩
        exact Prod.ext (keyText?_eq_some_iff.mp hs) (count?_eq_some_iff.mp hn)
  · rintro ⟨x, hx, n, rfl, rfl⟩
    have hmeasure := measure?_eq_some_iff.mpr ⟨hx, rfl⟩
    simp [setThreshold, keyText?, hmeasure, count?]

theorem setPattern_ok_iff {t t' : Thresholds} {e : Value × Value} :
    setPattern t e = .ok t' ↔ ∃ p inner, e = (.str (Pattern.label p), .mapping inner) ∧
      inner.foldlM (setThreshold p) t = .ok t' := by
  constructor
  · intro h
    unfold setPattern at h
    split at h
    · cases h
    · next p hp =>
      obtain ⟨s, hs, hlabel⟩ := Option.bind_eq_some_iff.mp hp
      obtain rfl := ofLabel?_eq_some_iff.mp hlabel
      split at h
      · next inner hinner => exact ⟨p, inner, Prod.ext (keyText?_eq_some_iff.mp hs) hinner, h⟩
      · cases h
  · rintro ⟨p, inner, rfl, h⟩
    have hlabel : Pattern.ofLabel? p.label = some p := ofLabel?_eq_some_iff.mpr rfl
    simp [setPattern, keyText?, hlabel, h]

section

variable (s : Settings) (v : Value)

theorem setEntry_supported : setEntry s ("supported_shapes", v) =
    match names? v with
    | some names => .ok { s with supported := names }
    | none => .error (.notTypeNames "supported_shapes") := by
  rfl

theorem setEntry_limited : setEntry s ("partially_supported_shapes", v) =
    match names? v with
    | some names => .ok { s with limited := names }
    | none => .error (.notTypeNames "partially_supported_shapes") := by
  rfl

theorem setEntry_exampleLimit : setEntry s ("unsupported_example_limit", v) =
    match count? v with
    | some n => .ok { s with exampleLimit := n }
    | none => .error (.notCount "unsupported_example_limit") := by
  rfl

theorem setEntry_sourcePattern : setEntry s ("source_pattern", v) =
    match text? v with
    | some pattern => .ok { s with sourcePattern := pattern }
    | none => .error (.notText "source_pattern") := by
  rfl

theorem setEntry_thresholds : setEntry s ("pattern_thresholds", v) =
    match v with
    | .mapping entries =>
      (entries.foldlM setPattern s.thresholds).map fun t => { s with thresholds := t }
    | _ => .error .patternsNoMapping := by
  rfl

end

/-- What the entries of settings do to them. -/
inductive Step (s : Settings) : Wide × Value → Settings → Prop where
  | supported {v : Value} {names : List Wide} :
    TypeNames v names → Step s ("supported_shapes", v) { s with supported := names }
  | limited {v : Value} {names : List Wide} :
    TypeNames v names → Step s ("partially_supported_shapes", v) { s with limited := names }
  | exampleLimit (n : Nat) :
    Step s ("unsupported_example_limit", .int n) { s with exampleLimit := n }
  | sourcePattern {text : Wide} :
    text ≠ "" → Step s ("source_pattern", .str text) { s with sourcePattern := text }
  | thresholds {patterns : List (Value × Value)} {t : Thresholds} :
    patterns.foldlM setPattern s.thresholds = .ok t →
      Step s ("pattern_thresholds", .mapping patterns) { s with thresholds := t }

theorem mem_overridable {key : Wide} : key ∈ overridable ↔
    key = "supported_shapes" ∨ key = "partially_supported_shapes" ∨
      key = "unsupported_example_limit" ∨ key = "source_pattern" ∨ key = "pattern_thresholds" := by
  simp [overridable]

theorem setEntry_ok_iff {s s' : Settings} {e : Wide × Value} (he : e.1 ∈ overridable) :
    setEntry s e = .ok s' ↔ Step s e s' := by
  obtain ⟨key, v⟩ := e
  constructor
  · intro h
    rcases mem_overridable.mp he with rfl | rfl | rfl | rfl | rfl
    · rw [setEntry_supported] at h
      split at h
      · next names hv =>
        obtain rfl := Except.ok.inj h
        exact .supported (names?_eq_some_iff.mp hv)
      · cases h
    · rw [setEntry_limited] at h
      split at h
      · next names hv =>
        obtain rfl := Except.ok.inj h
        exact .limited (names?_eq_some_iff.mp hv)
      · cases h
    · rw [setEntry_exampleLimit] at h
      split at h
      · next n hv =>
        obtain rfl := Except.ok.inj h
        obtain rfl := count?_eq_some_iff.mp hv
        exact .exampleLimit n
      · cases h
    · rw [setEntry_sourcePattern] at h
      split at h
      · next text hv =>
        obtain rfl := Except.ok.inj h
        obtain ⟨rfl, htext⟩ := text?_eq_some_iff.mp hv
        exact .sourcePattern htext
      · cases h
    · rw [setEntry_thresholds] at h
      split at h
      · next patterns =>
        cases ht : patterns.foldlM setPattern s.thresholds with
        | error problem =>
          rw [ht] at h
          cases h
        | ok t =>
          rw [ht] at h
          obtain rfl := Except.ok.inj h
          exact .thresholds ht
      · cases h
  · intro h
    cases h with
    | supported hnames => rw [setEntry_supported, names?_eq_some_iff.mpr hnames]
    | limited hnames => rw [setEntry_limited, names?_eq_some_iff.mpr hnames]
    | exampleLimit n => rw [setEntry_exampleLimit, count?_eq_some_iff.mpr rfl]
    | sourcePattern htext => rw [setEntry_sourcePattern, text?_eq_some_iff.mpr ⟨rfl, htext⟩]
    | thresholds ht =>
      rw [setEntry_thresholds]
      exact congrArg (Except.map _) ht

/-! ## What succeeds -/

theorem setThreshold_succeeds_iff (p : Pattern) (t : Thresholds) (e : Value × Value) :
    (∃ t', setThreshold p t e = .ok t') ↔ ThresholdEntry p e := by
  simp only [setThreshold_ok_iff]
  constructor
  · rintro ⟨_, x, hx, n, rfl, _⟩
    exact .intro x n hx
  · rintro ⟨x, n, hx⟩
    exact ⟨_, x, hx, n, rfl, rfl⟩

theorem setPattern_succeeds_iff (t : Thresholds) (e : Value × Value) :
    (∃ t', setPattern t e = .ok t') ↔ PatternEntry e := by
  simp only [setPattern_ok_iff]
  constructor
  · rintro ⟨t', p, inner, rfl, h⟩
    have hinner := foldlM_ok_iff (l := inner) (fun e _ t => setThreshold_succeeds_iff p t e) t
    exact .intro p inner (hinner.mp ⟨t', h⟩)
  · rintro ⟨p, inner, hentries⟩
    have hinner := foldlM_ok_iff (l := inner) (fun e _ t => setThreshold_succeeds_iff p t e) t
    obtain ⟨t', h⟩ := hinner.mpr hentries
    exact ⟨t', p, inner, rfl, h⟩

theorem Acceptable.mem_overridable {e : Wide × Value} (h : Acceptable e) :
    e.1 ∈ overridable := by
  cases h <;> simp [overridable]

theorem setEntry_succeeds_iff (s : Settings) {e : Wide × Value} (he : e.1 ∈ overridable) :
    (∃ s', setEntry s e = .ok s') ↔ Acceptable e := by
  simp only [setEntry_ok_iff he]
  have hpatterns : ∀ patterns : List (Value × Value),
      (∃ t, patterns.foldlM setPattern s.thresholds = .ok t) ↔ ∀ e ∈ patterns, PatternEntry e :=
    fun patterns => foldlM_ok_iff (fun e _ t => setPattern_succeeds_iff t e) s.thresholds
  constructor
  · rintro ⟨s', h⟩
    cases h with
    | supported hnames => exact .supported hnames
    | limited hnames => exact .limited hnames
    | exampleLimit n => exact .exampleLimit n
    | sourcePattern htext => exact .sourcePattern htext
    | thresholds ht => exact .thresholds ((hpatterns _).mp ⟨_, ht⟩)
  · intro h
    cases h with
    | supported hnames => exact ⟨_, .supported hnames⟩
    | limited hnames => exact ⟨_, .limited hnames⟩
    | exampleLimit n => exact ⟨_, .exampleLimit n⟩
    | sourcePattern htext => exact ⟨_, .sourcePattern htext⟩
    | thresholds hentries =>
      obtain ⟨t, ht⟩ := (hpatterns _).mpr hentries
      exact ⟨_, .thresholds ht⟩

/-! ## Mappings -/

/-- Entries as the pairs of a mapping. -/
def keyed (entries : List (Wide × Value)) : List (Value × Value) :=
  entries.map fun e => (.str e.1, e.2)

theorem override_keyed (path : String) (entries : List (Wide × Value)) :
    override path (.mapping (keyed entries)) =
      if ∀ e ∈ entries, e.1 ∈ overridable then
        (entries.foldlM setEntry .usual).mapError (refusal path)
      else
        .error (refusal path (.unknownKeys
          (sortedOnce ((entries.map Prod.fst).filter fun key => !overridable.contains key)))) := by
  have hknown : (keyed entries).filterMap (fun e => (keyText? e.1).map (·, e.2)) = entries := by
    rw [keyed, List.filterMap_map]
    exact List.filterMap_some
  have hkeys : ((keyed entries).map Prod.fst).filter (fun k => !isOverridable k) =
      ((entries.map Prod.fst).filter fun key => !overridable.contains key).map .str := by
    simp [keyed, isOverridable, keyText?, List.filter_map, Function.comp_def]
  have htexts : ∀ keys : List Wide, (keys.map .str).mapM keyText? = some keys := by
    intro keys
    induction keys with
    | nil => rfl
    | cons key rest ih => simp [List.mapM_cons, keyText?, ih]
  cases entries with
  | nil => rfl
  | cons e rest =>
    rw [override, if_neg (by simp [keyed, Value.isNothing])]
    simp only [hkeys, htexts]
    by_cases hall : ∀ x ∈ e :: rest, x.1 ∈ overridable
    · have hnone :
          ((e :: rest).map Prod.fst).filter (fun key => !overridable.contains key) = [] := by
        rw [List.filter_eq_nil_iff]
        simpa using hall
      rw [if_pos hall, hnone]
      exact congrArg (fun known => (known.foldlM setEntry .usual).mapError (refusal path)) hknown
    · rw [if_neg hall]
      split
      · next h => cases h
      · next h =>
        refine absurd (fun x hx => ?_) hall
        have hnot := List.filter_eq_nil_iff.mp (Option.some.inj h) x.1 (List.mem_map_of_mem hx)
        simpa using hnot
      · next keys _ h => rw [Option.some.inj h]

section

variable {entries : List (Wide × Value)}

theorem override_ok_iff {path : String} {s : Settings} :
    override path (.mapping (keyed entries)) = .ok s ↔
      (∀ e ∈ entries, e.1 ∈ overridable) ∧ entries.foldlM setEntry .usual = .ok s := by
  rw [override_keyed]
  by_cases hknown : ∀ e ∈ entries, e.1 ∈ overridable
  · rw [if_pos hknown]
    cases entries.foldlM setEntry .usual with
    | error problem => exact iff_of_false (fun h => by cases h) fun h => by cases h.2
    | ok s' =>
      have hsame : (Except.ok s').mapError (refusal path) = .ok s ↔
          (.ok s' : Except SettingsProblem Settings) = .ok s :=
        ⟨fun h => congrArg Except.ok (Except.ok.inj h),
          fun h => congrArg Except.ok (Except.ok.inj h)⟩
      rw [hsame, and_iff_right hknown]
  · rw [if_neg hknown]
    exact iff_of_false (fun h => by cases h) fun h => hknown h.1

theorem override_succeeds_iff (path : String) :
    (∃ s, override path (.mapping (keyed entries)) = .ok s) ↔ ∀ e ∈ entries, Acceptable e := by
  have hrun : (∀ e ∈ entries, e.1 ∈ overridable) →
      ((∃ s, entries.foldlM setEntry .usual = .ok s) ↔ ∀ e ∈ entries, Acceptable e) :=
    fun hknown => foldlM_ok_iff (f := setEntry)
      (fun e he s => setEntry_succeeds_iff s (hknown e he)) .usual
  simp only [override_ok_iff, exists_and_left]
  constructor
  · rintro ⟨hknown, hs⟩
    exact (hrun hknown).mp hs
  · intro ha
    have hknown := fun e he => (ha e he).mem_overridable
    exact ⟨hknown, (hrun hknown).mpr ha⟩

end

end Settings

end Orchestration
