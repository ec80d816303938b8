import Orchestration.Proofs.Settings.Change
import Orchestration.Proofs.Settings.Refusal

/-!
# Orchestration.Proofs.Settings.Override

The settings that a text holds.

* `ofSupply_overrides` — when they are accepted, what they are then, that the order of keys decides
  nothing, and how they are refused.
-/

namespace Orchestration.Settings

open Text (Wide)
open Yaml (Value)

theorem toOption_of_not_ok {α ε : Type} {r : Except ε α} (h : ¬ ∃ a, r = .ok a) :
    r.toOption = none := by
  cases r with
  | error e => rfl
  | ok a => exact absurd ⟨a, rfl⟩ h

theorem exists_ok_of_bind {α β ε : Type} {r : Except ε α} {f : α → Option β} {b : β}
    (h : r.toOption.bind f = some b) : ∃ a, r = .ok a ∧ f a = some b := by
  cases r with
  | error e => cases h
  | ok a => exact ⟨a, rfl, h⟩

theorem ofSupply_of_read {t : Yaml.Supply} {v : Value} (hread : Yaml.read depth t = .ok v)
    (path : String) : ofSupply path t = override path v := by
  unfold ofSupply
  rw [hread]

/-- Settings from a text that holds a mapping with texts as its keys, however deep it is nested and
whatever is in it. They are refused unless every entry is acceptable. If they are not refused, they
are as the entries say, and usual where these say nothing; another order of keys gives the same
settings. A refusal is a failure of the settings, or there is a key that cannot be shown. -/
theorem ofSupply_overrides {t : Yaml.Supply} {entries : List (Wide × Value)}
    (hread : Yaml.read depth t = .ok (.mapping (keyed entries))) (path : String) :
    ((∃ s, ofSupply path t = .ok s) ↔ ∀ e ∈ entries, Acceptable e) ∧
      (∀ s, ofSupply path t = .ok s → Overridden entries s) ∧
      (∀ n t' entries', Yaml.read depth t' = .ok (.mapping (keyed entries')) →
        Value.Reordered n (.mapping (keyed entries)) (.mapping (keyed entries')) →
          (ofSupply path t').toOption = (ofSupply path t).toOption) ∧
      ∀ e, ofSupply path t = .error e →
        (∃ problem, e = .failure ⟨.settings problem, path⟩) ∨
          e = .settings .outOfRange ∧ LongKey entries := by
  have hoverridden : ∀ t entries s, Yaml.read depth t = .ok (.mapping (keyed entries)) →
      ofSupply path t = .ok s → Overridden entries s := by
    intro t entries s hread hs
    rw [ofSupply_of_read hread] at hs
    obtain ⟨hknown, hrun⟩ := override_ok_iff.mp hs
    exact overridden_of_run (Yaml.read_sound depth t _ hread) hknown hrun
  have hsucceeds : ∀ t entries, Yaml.read depth t = .ok (.mapping (keyed entries)) →
      ((∃ s, ofSupply path t = .ok s) ↔ ∀ e ∈ entries, Acceptable e) := by
    intro t entries hread
    rw [ofSupply_of_read hread]
    exact override_succeeds_iff path
  refine ⟨hsucceeds t entries hread, fun s => hoverridden t entries s hread,
    fun n t' entries' hread' h => ?_, ?_⟩
  · by_cases ha : ∀ e ∈ entries, Acceptable e
    · obtain ⟨s, hs⟩ := (hsucceeds t entries hread).mpr ha
      obtain ⟨s', hs'⟩ := (hsucceeds t' entries' hread').mpr (acceptable_reordered h ha)
      have hsame := (hoverridden t entries s hread hs).reordered h
      rw [hs, hs', hsame.unique (hoverridden t' entries' s' hread' hs')]
    · have ha' : ¬ ∀ e ∈ entries', Acceptable e := fun ha' => ha (acceptable_reordered h.symm ha')
      rw [← hsucceeds t entries hread] at ha
      rw [← hsucceeds t' entries' hread'] at ha'
      rw [toOption_of_not_ok ha, toOption_of_not_ok ha']
  · rw [ofSupply_of_read hread]
    exact fun e => override_error

/-- What a mapping holds that has one entry, in it one pair, and in that one pair. -/
def innermost? : Value → Option (Wide × Value × Value × Value)
  | .mapping [(.str key, .mapping [(k, .mapping [(k', v)])])] => some (key, k, k', v)
  | _ => none

theorem eq_of_innermost? {w k k' v : Value} {key : Wide}
    (h : innermost? w = some (key, k, k', v)) :
    w = .mapping (keyed [(key, .mapping [(k, .mapping [(k', v)])])]) := by
  unfold innermost? at h
  split at h
  · obtain ⟨rfl, rfl, rfl, rfl⟩ := h
    rfl
  · cases h

/-- One of the two thresholds of a pattern. -/
def oneThreshold : Yaml.Supply :=
  .ofText "pattern_thresholds:\n  aggregator: \x7bmin_receives: 5\x7d\n".toList

set_option maxRecDepth 100000 in
theorem read_oneThreshold : Yaml.read depth oneThreshold =
    .ok (.mapping (keyed [("pattern_thresholds",
      .mapping [(.str "aggregator", .mapping [(.str "min_receives", .int 5)])])])) := by
  have hparts : (((Yaml.read depth oneThreshold).toOption.bind innermost?).map
      fun (key, k, k', v) => (key, keyText? k, keyText? k', count? v)) =
        some (.whole "pattern_thresholds", some (.whole "aggregator"), some (.whole "min_receives"),
          some 5) := by
    decide +kernel
  obtain ⟨⟨key, k, k', v⟩, hfound, hparts⟩ := Option.map_eq_some_iff.mp hparts
  obtain ⟨w, hread, hinner⟩ := exists_ok_of_bind hfound
  simp only [Prod.mk.injEq, keyText?_eq_some_iff, count?_eq_some_iff] at hparts
  obtain ⟨rfl, rfl, rfl, rfl⟩ := hparts
  obtain rfl := eq_of_innermost? hinner
  exact hread

/-- The other threshold of the pattern and everything else is usual. -/
theorem ofSupply_overrides_oneThreshold :
    ∃ s, ofSupply "config.yaml" oneThreshold = .ok s ∧ s.thresholds .aggregator .receives = 5 ∧
      s.thresholds .aggregator .constructsOrTransforms = 1 ∧ s.sourcePattern = "*.odx" := by
  obtain ⟨hok, hgiven, -, -⟩ := ofSupply_overrides read_oneThreshold "config.yaml"
  have hthreshold : ThresholdEntry .aggregator (.str "min_receives", .int 5) :=
    .intro .receives 5 (by decide)
  have hpattern : PatternEntry (.str "aggregator", .mapping [(.str "min_receives", .int 5)]) :=
    .intro .aggregator _ (by simpa using hthreshold)
  obtain ⟨s, hs⟩ := hok.mpr (by simpa using Acceptable.thresholds (by simpa using hpattern))
  have hs' := hgiven s hs
  refine ⟨s, hs, hs'.threshold _ _ _ ?_, hs'.usualThreshold _ _ ?_, hs'.usualSourcePattern ?_⟩
  · exact ⟨_, List.mem_singleton_self _, _, List.mem_singleton_self _, List.mem_singleton_self _⟩
  · rintro n ⟨patterns, hpatterns, inner, hinner, hx⟩
    obtain rfl : patterns = _ := by simpa using hpatterns
    obtain ⟨-, rfl⟩ : _ ∧ inner = _ := by simpa using hinner
    simp [Measure.label] at hx
  · simp

end Orchestration.Settings
