import Orchestration.Proofs.Analysis.Trait

/-!
# Orchestration.Proofs.Analysis.Gap

Which tags an analysis names as gaps, and which as limited.

* `Settings.Misses`     — a tag that settings do not support in any letter case.
* `Settings.told_usual` — the usual settings support the tags of all kinds but the fallback, and one
  more tag.
* `Analysis.gaps_exact` — the gaps and the limited tags in the model of a text.
-/

namespace Orchestration

open Shape (Kind Node)

namespace Settings

/-- A tag that is not supported in any letter case. Shapes without a type are not missed. -/
def Misses (s : Settings) (tag : String) : Prop :=
  .whole (Text.lower tag) ∉ s.supported.map Text.Wide.lower ∧ tag ≠ "Unknown"

instance (s : Settings) : DecidablePred s.Misses := fun _ =>
  inferInstanceAs (Decidable (_ ∧ _))

theorem told_usual :
    Kind.Told (usualSupported.map Text.lower) (Kind.all.filter (· ≠ .fallback)) ["else"] := by
  decide +kernel

theorem lower_mem_supported {s : Settings} (hs : s.supported = usual.supported) {tag : String} :
    .whole (Text.lower tag) ∈ s.supported.map Text.Wide.lower ↔
      Text.lower tag ∈ usualSupported.map Text.lower := by
  simp [hs, usual, Text.Wide.lower]

/-- What the usual settings support misses no shape of a known kind, and almost every other one. -/
theorem misses_iff_of_usual {s : Settings} (hs : s.supported = usual.supported) {kind : Kind}
    {tag : String} (ht : kind.Tagged tag) :
    s.Misses tag ↔ kind = .fallback ∧ tag ≠ "Unknown" ∧ Text.lower tag ≠ "else" := by
  rw [Misses, lower_mem_supported hs, told_usual.mem_iff ht]
  by_cases hk : kind = .fallback
  · subst hk
    simp [and_comm]
  · have hm : kind ∈ Kind.all.filter (· ≠ .fallback) :=
      List.mem_filter.mpr ⟨kind.mem_all, decide_eq_true hk⟩
    exact ⟨fun hmisses => absurd (.inl hm) hmisses.1, fun hfallback => absurd hfallback.1 hk⟩

end Settings

namespace Analysis

variable {text source : String} {m : Model}

theorem filter_eraseDups (p : String → Bool) (tags : List String) :
    tags.eraseDups.filter p = (tags.filter p).eraseDups := by
  induction tags using List.reverseRecOn with
  | nil => rfl
  | append_singleton tags tag ih =>
    rw [Shape.eraseDups_concat, List.filter_append]
    cases hp : p tag with
    | true =>
      rw [List.filter_singleton, hp, cond_true, Shape.eraseDups_concat, ← ih]
      by_cases hm : tag ∈ tags
      · rw [if_pos hm, if_pos (List.mem_filter.mpr ⟨hm, hp⟩)]
      · have hnot : tag ∉ tags.filter p := fun h => hm (List.mem_of_mem_filter h)
        rw [if_neg hm, if_neg hnot, List.filter_append, List.filter_singleton, hp, cond_true]
    | false =>
      rw [List.filter_singleton, hp, cond_false, List.append_nil, ← ih]
      split
      · rfl
      · rw [List.filter_append, List.filter_singleton, hp, cond_false, List.append_nil]

theorem filter_names_counts (h : Model.ofText text source = .ok m) (s : Settings)
    (fileName : String) (size : Nat) (p : String → Bool) :
    (ofModel s m fileName size).counts.names.filter p =
      ((m.allShapes.map Node.tag).filter p).eraseDups := by
  rw [counts_ofModel h, Model.names_tagTally, filter_eraseDups]

theorem isGap_eq (s : Settings) (tag : String) : isGap s tag = decide (s.Misses tag) := by
  rw [Bool.eq_iff_iff, decide_eq_true_eq]
  simp [isGap, isAmong, unknownTag, Settings.Misses]

theorem isLimited_eq (s : Settings) (tag : String) : isLimited s tag =
    decide (¬ s.Misses tag ∧ .whole (Text.lower tag) ∈ s.limited.map Text.Wide.lower) := by
  rw [isLimited, isGap_eq, Bool.eq_iff_iff, decide_eq_true_eq]
  simp [isAmong]

theorem unsupported_ofModel (h : Model.ofText text source = .ok m) (s : Settings)
    (fileName : String) (size : Nat) :
    (ofModel s m fileName size).unsupported =
      ((m.allShapes.map Node.tag).filter fun tag => decide (s.Misses tag)).eraseDups := by
  simp only [← isGap_eq]
  exact filter_names_counts h s fileName size (isGap s)

theorem limited_ofModel (h : Model.ofText text source = .ok m) (s : Settings)
    (fileName : String) (size : Nat) :
    (ofModel s m fileName size).limited = ((m.allShapes.map Node.tag).filter fun tag =>
      decide (¬ s.Misses tag ∧
        .whole (Text.lower tag) ∈ s.limited.map Text.Wide.lower)).eraseDups := by
  simp only [← isLimited_eq]
  exact filter_names_counts h s fileName size (isLimited s)

theorem mem_unsupported_iff (h : Model.ofText text source = .ok m) (s : Settings)
    (fileName : String) (size : Nat) {n : Node} (hn : n ∈ m.tree.list) :
    n.tag ∈ (ofModel s m fileName size).unsupported ↔ s.Misses n.tag := by
  have hm : n.tag ∈ m.allShapes.map Node.tag :=
    List.mem_map_of_mem ((Model.mem_allShapes h).mpr hn)
  rw [unsupported_ofModel h, List.mem_eraseDups, List.mem_filter, decide_eq_true_eq]
  exact and_iff_right hm

/-- The gaps are the tags that the settings miss, the limited tags those of the others that can be
migrated in part, each once and in the order of the walk. When the usual tags are supported, shapes
of known kinds are no gaps, whatever the letter case of their types. -/
theorem gaps_exact (h : Model.ofText text source = .ok m) (s : Settings) (fileName : String)
    (size : Nat) :
    let a := ofModel s m fileName size
    let tags := m.allShapes.map Node.tag
    a.unsupported = (tags.filter fun tag => decide (s.Misses tag)).eraseDups ∧
      a.limited = (tags.filter fun tag =>
        decide (¬ s.Misses tag ∧
          .whole (Text.lower tag) ∈ s.limited.map Text.Wide.lower)).eraseDups ∧
      a.unsupported.Nodup ∧ a.limited.Nodup ∧ a.unsupported.Disjoint a.limited ∧
      (s.supported = Settings.usual.supported →
        (∀ tag ∈ a.unsupported, ∀ n ∈ m.tree.list, n.tag = tag → n.kind = .fallback) ∧
        ∀ n ∈ m.tree.list, n.kind = .fallback →
          (n.tag ∈ a.unsupported ↔ n.tag ≠ "Unknown" ∧ Text.lower n.tag ≠ "else")) := by
  intro a tags
  have hgaps : a.unsupported = _ := unsupported_ofModel h s fileName size
  have hlimited : a.limited = _ := limited_ofModel h s fileName size
  refine ⟨hgaps, hlimited, ?_, ?_, ?_, ?_⟩
  · rw [hgaps]
    exact Shape.nodup_eraseDups _
  · rw [hlimited]
    exact Shape.nodup_eraseDups _
  · intro tag hgap hlim
    rw [hgaps, List.mem_eraseDups, List.mem_filter, decide_eq_true_eq] at hgap
    rw [hlimited, List.mem_eraseDups, List.mem_filter, decide_eq_true_eq] at hlim
    exact hlim.2.1 hgap.2
  · intro hs
    have hmisses : ∀ n ∈ m.tree.list, n.tag ∈ a.unsupported ↔
        n.kind = .fallback ∧ n.tag ≠ "Unknown" ∧ Text.lower n.tag ≠ "else" := by
      intro n hn
      rw [mem_unsupported_iff h s fileName size hn]
      exact Settings.misses_iff_of_usual hs (Model.tagged h ((Model.mem_allShapes h).mpr hn))
    refine ⟨?_, fun n hn hk => ?_⟩
    · rintro tag ht n hn rfl
      exact ((hmisses n hn).mp ht).1
    · rw [hmisses n hn]
      exact and_iff_right hk

/-- The dynamic port is named once, the shape of unknown type not at all; rule calls are limited. -/
theorem gaps_oddTypes : ∃ m, Model.ofText Model.oddTypes "odd.odx" = .ok m ∧
    (ofModel .usual m "odd.odx" 0).unsupported = ["DynamicPort"] ∧
    (ofModel .usual m "odd.odx" 0).limited = ["CallRules"] := by
  obtain ⟨m, hm, hv⟩ := Model.oddTypes_parsed
  have htags := congrArg Prod.snd hv
  dsimp only at htags
  obtain ⟨hgaps, hlimited, -⟩ := gaps_exact hm .usual "odd.odx" 0
  rw [htags] at hgaps hlimited
  refine ⟨m, hm, hgaps.trans ?_, hlimited.trans ?_⟩
  · decide +kernel
  · decide +kernel

end Analysis

end Orchestration
