import Orchestration.Proofs.Report.Ranking
import Orchestration.Proofs.Report.Totals
import Orchestration.Proofs.Scan

/-!
# Orchestration.Proofs.Report.Finalize

What a report draws from any findings at the end. They need not be such as the analysis makes.

* `Tier.of` — the tier that a number of tags belongs to.
* `foldl_add_gaps`, `foldl_add_files`, `examplesOf_foldl_add` — the tables that the advice is drawn
  from.
* `Report.Finalized` — tiers, the most complex files and the advice, told from the findings.
* `Report.finalized_foldl_add` — what every report is at the end.
-/

namespace Orchestration

/-! ## Tiers -/

inductive Tier where
  | simple
  | medium
  | complex
  deriving DecidableEq

/-- The tier of a file with so many tags. -/
def Tier.of (t : Tiers) (tags : Nat) : Tier :=
  if tags < t.simple then .simple else if tags < t.medium then .medium else .complex

/-- The files of a tier. -/
def TierFiles.names (t : TierFiles) : Tier → List String
  | .simple => t.simple
  | .medium => t.medium
  | .complex => t.complex

def Analysis.tier (s : Settings) (a : Analysis) : Tier := .of s.tiers a.tags.length

namespace Tier

variable {t : Tiers} {tags : Nat}

theorem of_eq_simple_iff : Tier.of t tags = .simple ↔ tags < t.simple := by
  unfold Tier.of
  split
  · next h => exact iff_of_true rfl h
  · next h =>
    refine iff_of_false ?_ h
    split <;> exact Tier.noConfusion

theorem of_eq_medium_iff : Tier.of t tags = .medium ↔ t.simple ≤ tags ∧ tags < t.medium := by
  unfold Tier.of
  split
  · next h => exact iff_of_false Tier.noConfusion (by omega)
  · split
    · next h h' => exact iff_of_true rfl (by omega)
    · next h h' => exact iff_of_false Tier.noConfusion (by omega)

theorem of_eq_complex_iff (ht : t.simple ≤ t.medium) :
    Tier.of t tags = .complex ↔ t.medium ≤ tags := by
  unfold Tier.of
  split
  · next h => exact iff_of_false Tier.noConfusion (by omega)
  · split
    · next h h' => exact iff_of_false Tier.noConfusion (by omega)
    · next h h' => exact iff_of_true rfl (by omega)

/-- Each item is in one of the three lists. -/
theorem filter_perm {α : Type} (f : α → Tier) (l : List α) :
    (l.filter (fun a => f a = .simple) ++ l.filter (fun a => f a = .medium) ++
      l.filter fun a => f a = .complex).Perm l := by
  induction l with
  | nil => exact .refl _
  | cons a l ih =>
    cases h : f a with
    | simple => simpa [h] using ih
    | medium =>
      have hmiddle : (l.filter (fun a => f a = .simple) ++ a :: (l.filter (fun a => f a = .medium) ++
          l.filter fun a => f a = .complex)).Perm (a :: l) :=
        List.perm_middle.trans (.cons a (by simpa using ih))
      simpa [h] using hmiddle
    | complex =>
      have hmiddle : (l.filter (fun a => f a = .simple) ++ l.filter (fun a => f a = .medium) ++
          a :: l.filter fun a => f a = .complex).Perm (a :: l) :=
        List.perm_middle.trans (.cons a ih)
      simpa [h] using hmiddle

end Tier

/-! ## Tables -/

/-- The tags that cannot be migrated, file by file. -/
def gapsMet (as : List Analysis) : List String :=
  (as.filter Analysis.parsed).flatMap Analysis.unsupported

/-- The files that have a gap, as often as they name it. -/
def filesMet (as : List Analysis) (tag : String) : List String :=
  (as.filter Analysis.parsed).flatMap fun a => List.replicate (a.unsupported.count tag) a.fileName

namespace Report

variable {s : Settings} {r : Report} {a : Analysis} (as : List Analysis)

theorem foldl_add_gaps (r : Report) : (as.foldl (add s) r).gaps = r.gaps.enter (gapsMet as) := by
  induction as generalizing r with
  | nil => rfl
  | cons a rest ih =>
    rw [List.foldl_cons, ih]
    cases h : a.parsed with
    | false => simp [add_of_not_parsed h, gapsMet, h]
    | true => simp [add_of_parsed h, gapsMet, h, Tally.enter]

theorem foldl_add_files (r : Report) : (as.foldl (add s) r).files =
    r.files.map fun l => (l.1, l.2 ++ naming as fun a => a.has l.1) := by
  induction as generalizing r with
  | nil => simp [naming]
  | cons a rest ih =>
    rw [List.foldl_cons, ih]
    cases h : a.parsed with
    | false => simp [add_of_not_parsed h, naming, h]
    | true =>
      rw [add_of_parsed h, List.map_map]
      refine List.map_congr_left fun l _ => ?_
      cases hl : a.has l.1 <;> simp [naming, h, hl]

theorem examplesOf_add {tag : String} {names : List String}
    (h : r.examplesOf tag = names.take s.exampleLimit) :
    (r.add s a).examplesOf tag = (names ++ filesMet [a] tag).take s.exampleLimit := by
  cases ha : a.parsed with
  | false =>
    have hfiles : filesMet [a] tag = [] := by simp [filesMet, ha]
    rw [add_of_not_parsed ha, hfiles, List.append_nil]
    exact h
  | true =>
    have hfiles : filesMet [a] tag = List.replicate (a.unsupported.count tag) a.fileName := by
      simp [filesMet, ha]
    rw [add_of_parsed ha, hfiles]
    exact examplesIn_enterExamples_count s.exampleLimit a.fileName a.unsupported h

theorem examplesOf_foldl_add (r : Report) {tag : String} {names : List String}
    (h : r.examplesOf tag = names.take s.exampleLimit) :
    (as.foldl (add s) r).examplesOf tag = (names ++ filesMet as tag).take s.exampleLimit := by
  induction as generalizing r names with
  | nil => simpa [filesMet] using h
  | cons a rest ih =>
    have hfiles : filesMet (a :: rest) tag = filesMet [a] tag ++ filesMet rest tag := by
      cases ha : a.parsed <;> simp [filesMet, ha]
    rw [List.foldl_cons, ih _ (examplesOf_add h), hfiles, List.append_assoc]

/-! ## The end -/

end Report

/-- What the report says about the files that have a trait. -/
def Recommendation.entry (c : Recommendation) (count : Nat) : String :=
  s!"{c.title}: {count}{c.advice}"

/-- What the report says about a tag that cannot be migrated. -/
def gapEntry (tag : String) (count : Nat) (examples : List String) : String :=
  s!"P? - Support for '{tag}' shape: Found {count} occurrences in " ++ ", ".intercalate examples

namespace Report

/-- What a report tells at the end about the findings `as`. -/
structure Finalized (s : Settings) (as : List Analysis) (r : Report) : Prop where
  /-- Every parsed file is in the tier of its tags and in no other, in the order of the files. -/
  tiers : ∃ t, r.tiers = some t ∧
    (∀ x, t.names x = ((as.filter Analysis.parsed).filter fun a => a.tier s = x).map
      Analysis.fileName) ∧
    (t.simple ++ t.medium ++ t.complex).Perm ((as.filter Analysis.parsed).map Analysis.fileName)
  mostComplex : ∃ ranked,
    Ranks (fun a => a.tags.length) ((as.filter Analysis.parsed).filter fun a => a.tier s = .complex)
      ranked ∧
    r.mostComplex = (ranked.take 10).map Analysis.fileName
  recommended : ∃ gaps, Ranks r.gaps.count r.gaps.names gaps ∧
    r.recommended =
      (Recommendation.catalogue.filter fun c => r.filesWith c.trait ≠ []).map
        (fun c => c.entry (r.filesWith c.trait).length) ++
      [Recommendation.hybridNote] ++
      gaps.map fun tag => gapEntry tag (r.gaps.count tag) (r.examplesOf tag)
  noteOnce : r.recommended.count Recommendation.hybridNote = 1
  files : ∀ c ∈ Recommendation.catalogue, r.filesWith c.trait = naming as fun a => a.has c.trait
  /-- The tags in the order in which they were met first. -/
  gapNames : r.gaps.names = (gapsMet as).eraseDups
  gaps : ∀ tag, r.gaps.count tag = (gapsMet as).count tag
  examples : ∀ tag, r.examplesOf tag = (filesMet as tag).take s.exampleLimit

/-- The three tests are the three cases of one decision. -/
theorem tier_simple (r : Report) : r.tier (fun n => decide (n < s.tiers.simple)) =
    r.parsedDetails.filter fun a => a.tier s = .simple :=
  List.filter_congr fun _ _ => decide_eq_decide.mpr Tier.of_eq_simple_iff.symm

theorem tier_medium (r : Report) :
    r.tier (fun n => decide (s.tiers.simple ≤ n) && decide (n < s.tiers.medium)) =
      r.parsedDetails.filter fun a => a.tier s = .medium := by
  refine List.filter_congr fun a _ => ?_
  show (decide (_ ≤ a.tags.length) && decide (a.tags.length < _)) = _
  rw [← Bool.decide_and]
  exact decide_eq_decide.mpr Tier.of_eq_medium_iff.symm

theorem tier_complex (hs : s.tiers.simple ≤ s.tiers.medium) (r : Report) :
    r.tier (fun n => decide (s.tiers.medium ≤ n)) =
      r.parsedDetails.filter fun a => a.tier s = .complex :=
  List.filter_congr fun _ _ => decide_eq_decide.mpr (Tier.of_eq_complex_iff hs).symm

theorem finalize_tiers (hs : s.tiers.simple ≤ s.tiers.medium) (r : Report) :
    ∃ t, (r.finalize s).tiers = some t ∧
      (∀ x, t.names x = (r.parsedDetails.filter fun a => a.tier s = x).map Analysis.fileName) ∧
      (t.simple ++ t.medium ++ t.complex).Perm (r.parsedDetails.map Analysis.fileName) := by
  have hnames : ∃ t, (r.finalize s).tiers = some t ∧
      ∀ x, t.names x = (r.parsedDetails.filter fun a => a.tier s = x).map Analysis.fileName := by
    refine ⟨_, rfl, fun x => ?_⟩
    cases x with
    | simple => exact congrArg _ (tier_simple r)
    | medium => exact congrArg _ (tier_medium r)
    | complex => exact congrArg _ (tier_complex hs r)
  obtain ⟨t, ht, hnames⟩ := hnames
  have hall := (Tier.filter_perm (Analysis.tier s) r.parsedDetails).map Analysis.fileName
  rw [List.map_append, List.map_append, ← hnames, ← hnames, ← hnames] at hall
  exact ⟨t, ht, hnames, hall⟩

theorem ranks_complexFiles (s : Settings) (r : Report) : Ranks (fun a => a.tags.length)
    (r.parsedDetails.filter fun a => s.tiers.medium ≤ a.tags.length) (r.complexFiles s) :=
  ranks_mergeSort ..

theorem finalize_mostComplex (hs : s.tiers.simple ≤ s.tiers.medium) (r : Report) :
    ∃ ranked, Ranks (fun a => a.tags.length)
        (r.parsedDetails.filter fun a => a.tier s = .complex) ranked ∧
      (r.finalize s).mostComplex = (ranked.take 10).map Analysis.fileName := by
  rw [← tier_complex hs]
  exact ⟨_, ranks_complexFiles s r, rfl⟩

theorem recommendations_eq (r : Report) : r.recommendations =
    (Recommendation.catalogue.filter fun c => r.filesWith c.trait ≠ []).map
      (fun c => c.entry (r.filesWith c.trait).length) ++
    [Recommendation.hybridNote] ++
    r.gaps.ranked.map fun p => gapEntry p.1 p.2 (r.examplesOf p.1) := by
  have hadvice : (Recommendation.catalogue.filter fun c => r.filesWith c.trait ≠ []).map
      (fun c => c.entry (r.filesWith c.trait).length) =
      Recommendation.catalogue.filterMap fun c =>
        if 0 < (r.filesWith c.trait).length then some (c.entry (r.filesWith c.trait).length)
        else none := by
    rw [← List.filterMap_eq_map, List.filterMap_filter]
    simp only [decide_eq_true_eq, ne_eq, ← List.length_pos_iff, Function.comp_apply]
  rw [hadvice]
  rfl

/-- No entry is mistaken for the note. -/
theorem entry_ne_note {c : Recommendation} (hc : c ∈ Recommendation.catalogue) (count : Nat) :
    c.entry count ≠ Recommendation.hybridNote := by
  have htitle : ∀ c ∈ Recommendation.catalogue, 2 ≤ c.title.toList.length ∧
      c.title.toList[1]? ≠ Recommendation.hybridNote.toList[1]? := by decide +kernel
  obtain ⟨hlength, hletter⟩ := htitle c hc
  intro h
  have hletters := congrArg (fun s => s.toList[1]?) h
  simp only [Recommendation.entry, toString, String.toList_append, List.append_assoc] at hletters
  rw [List.getElem?_append_left (by omega)] at hletters
  exact hletter hletters

theorem gapEntry_ne_note (tag : String) (count : Nat) (examples : List String) :
    gapEntry tag count examples ≠ Recommendation.hybridNote := by
  have hlead : 1 < "P? - Support for '".toList.length := by decide +kernel
  -- Lean cannot state the equation of a text that begins with a literal, so it is unfolded by hand
  delta gapEntry
  intro h
  have hletters := congrArg (fun s => s.toList[1]?) h
  simp only [toString, String.toList_append, List.append_assoc] at hletters
  rw [List.getElem?_append_left hlead] at hletters
  exact absurd hletters (by decide +kernel)

theorem count_note (r : Report) : r.recommendations.count Recommendation.hybridNote = 1 := by
  rw [recommendations_eq, List.count_append, List.count_append, List.count_singleton_self,
    List.count_eq_zero_of_not_mem, List.count_eq_zero_of_not_mem]
  · intro h
    obtain ⟨p, -, hp⟩ := List.mem_map.mp h
    exact gapEntry_ne_note _ _ _ hp
  · intro h
    obtain ⟨c, hc, hentry⟩ := List.mem_map.mp h
    exact entry_ne_note (List.mem_of_mem_filter hc) _ hentry

theorem map_ranked {r : Report} (h : r.gaps.names.Nodup) :
    (r.gaps.ranked.map fun p => gapEntry p.1 p.2 (r.examplesOf p.1)) =
      r.gaps.ranked.names.map fun tag => gapEntry tag (r.gaps.count tag) (r.examplesOf tag) := by
  rw [Tally.names, List.map_map]
  refine List.map_congr_left fun p hp => ?_
  have hmem : p ∈ r.gaps := (List.mergeSort_perm _ _).mem_iff.mp hp
  rw [Function.comp_apply, ((Tally.mem_iff_count h).mp hmem).2]

theorem finalize_recommended {r : Report} (h : r.gaps.names.Nodup) :
    ∃ gaps, Ranks r.gaps.count r.gaps.names gaps ∧ (r.finalize s).recommended =
      (Recommendation.catalogue.filter fun c => r.filesWith c.trait ≠ []).map
        (fun c => c.entry (r.filesWith c.trait).length) ++
      [Recommendation.hybridNote] ++
      gaps.map fun tag => gapEntry tag (r.gaps.count tag) (r.examplesOf tag) := by
  refine ⟨_, Tally.ranks_ranked h, ?_⟩
  rw [← map_ranked h]
  exact recommendations_eq r

theorem lookup_map_of_mem {α : Type} {t : Trait} {lists : List (Trait × String)}
    (f : Trait → α) (ht : t ∈ lists.map Prod.fst) :
    (lists.map fun l => (l.1, f l.1)).lookup t = some (f t) := by
  induction lists with
  | nil => cases ht
  | cons l rest ih =>
    rw [List.map_cons, List.lookup_cons]
    by_cases h : t = l.1
    · simp [h]
    · have hrest := (List.mem_cons.mp ht).resolve_left h
      have hother : (t == l.1) = false := by simpa using h
      rw [hother]
      exact ih hrest

theorem trait_mem_lists : ∀ c ∈ Recommendation.catalogue, c.trait ∈ Trait.lists.map Prod.fst := by
  decide

/-- The end of a report on any findings. Each parsed file is put into one tier, the most complex
files and the advice are the greatest ones, and ties are left in the order of the files. -/
theorem finalized_foldl_add {s : Settings} (hs : s.tiers.simple ≤ s.tiers.medium)
    (directory : String) (cancelled : Bool) (as : List Analysis) :
    Finalized s as ((as.foldl (add s) { directory, cancelled }).finalize s) := by
  have hdetails := (foldl_add_details (s := s) as { directory, cancelled }).1
  have hgaps := foldl_add_gaps (s := s) as { directory, cancelled }
  have hfiles := foldl_add_files (s := s) as { directory, cancelled }
  have hexamples : ∀ tag, (as.foldl (add s) { directory, cancelled }).examplesOf tag =
      (filesMet as tag).take s.exampleLimit := by
    intro tag
    have hnone : ({ directory, cancelled } : Report).examplesOf tag =
        List.take s.exampleLimit [] := List.take_nil.symm
    rw [examplesOf_foldl_add as _ hnone, List.nil_append]
  generalize as.foldl (add s) { directory, cancelled } = r at hdetails hgaps hfiles hexamples ⊢
  have hparsed : r.parsedDetails = as.filter Analysis.parsed := congrArg _ hdetails
  have hnodup : r.gaps.names.Nodup := by
    rw [hgaps]
    exact Tally.nodup_names_enter _ List.nodup_nil
  exact
    { tiers := hparsed ▸ finalize_tiers hs r
      mostComplex := hparsed ▸ finalize_mostComplex hs r
      recommended := finalize_recommended hnodup
      noteOnce := count_note r
      files := fun c hc => by
        show (r.files.lookup c.trait).getD [] = _
        rw [hfiles, List.map_map]
        exact congrArg (Option.getD · [])
          (lookup_map_of_mem (fun t => naming as fun a => a.has t) (trait_mem_lists c hc))
      gapNames := by
        show r.gaps.names = _
        rw [hgaps]
        exact Tally.names_ofNames _
      gaps := fun tag => by
        show r.gaps.count tag = _
        rw [hgaps, Tally.count_enter]
        exact Nat.zero_add _
      examples := hexamples }

/-- Three complex files of which two have as many tags, a simple one, and one that could not be
read. -/
def tieredFiles : List Analysis :=
  [{ fileName := "a.odx", parsed := true, tags := .replicate 10 "Send",
     unsupported := ["Foo", "Bar"] },
   { fileName := "b.odx", parsed := true, tags := ["Send"], has := fun t => t == .convoy },
   { fileName := "c.odx", parseError := "broken" },
   { fileName := "d.odx", parsed := true, tags := .replicate 12 "Send", unsupported := ["Bar"] },
   { fileName := "e.odx", parsed := true, tags := .replicate 10 "Send", unsupported := ["Foo"] }]

theorem ranks_tieredFiles :
    Ranks (fun a : Analysis => a.tags.length) [tieredFiles[0], tieredFiles[3], tieredFiles[4]]
      [tieredFiles[3], tieredFiles[0], tieredFiles[4]] := by
  refine ⟨.swap .., by decide, fun n => ?_⟩
  by_cases h10 : 10 = n
  · subst h10
    rfl
  · by_cases h12 : 12 = n
    · subst h12
      rfl
    · simp [tieredFiles, h10, h12]

theorem finalized_tieredFiles :
    let s := Settings.usual
    let r := (tieredFiles.foldl (add s) { directory := "flows" }).finalize s
    s.tiers.simple ≤ s.tiers.medium ∧ r.mostComplex = ["d.odx", "a.odx", "e.odx"] ∧
      r.tiers = some ⟨["b.odx"], [], ["a.odx", "d.odx", "e.odx"]⟩ ∧
      r.gaps.names = ["Foo", "Bar"] ∧ r.gaps.count "Bar" = 2 ∧
      r.examplesOf "Foo" = ["a.odx", "e.odx"] ∧
      r.recommended.count Recommendation.hybridNote = 1 := by
  intro s r
  have hs : s.tiers.simple ≤ s.tiers.medium := by decide
  have h : Finalized s tieredFiles r := finalized_foldl_add hs "flows" false tieredFiles
  obtain ⟨ranked, hranked, hcomplex⟩ := h.mostComplex
  obtain ⟨t, ht, hnames, -⟩ := h.tiers
  refine ⟨hs, ?_, ?_, h.gapNames, h.gaps "Bar", h.examples "Foo", h.noteOnce⟩
  · rw [hcomplex, hranked.unique ranks_tieredFiles]
    rfl
  · rw [ht]
    refine congrArg some ?_
    cases t with
    | mk simple medium complex =>
      obtain rfl : simple = _ := hnames .simple
      obtain rfl : medium = _ := hnames .medium
      obtain rfl : complex = _ := hnames .complex
      rfl

end Report

end Orchestration
