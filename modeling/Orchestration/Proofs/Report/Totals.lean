import Mathlib.Algebra.BigOperators.Group.List.Basic
import Mathlib.Algebra.GroupWithZero.Nat
import Orchestration.Proofs.Tally
import Orchestration.Scan

/-!
# Orchestration.Proofs.Report.Totals

What a report holds after any files have been taken in.

* `Analysis.Coherent` — findings that name each tag once and no gap that was not met; the analysis
  makes no others.
* `Report.Totals` — every table of a report, told from the findings alone.
* `Report.Totals.add` — taking in one file keeps the totals.
* `Report.totals_foldl_add` — the totals after a run. Files that could not be read only count, and
  no count depends on the order of the files.
* `Report.totals_scan` — every report of a directory has the totals of its records.
-/

namespace Orchestration

/-- Findings as the analysis makes them: tags and gaps are named once, and gaps are among the
tags. -/
structure Analysis.Coherent (a : Analysis) : Prop where
  counted : a.counts.names.Nodup
  listed : a.unsupported.Nodup
  met : ∀ tag ∈ a.unsupported, tag ∈ a.counts.names

namespace Analysis

theorem coherent_ofModel (s : Settings) (m : Model) (fileName : String) (size : Nat) :
    (ofModel s m fileName size).Coherent := by
  have hnodup : (Tally.ofNames (m.allShapes.map countedTag)).names.Nodup := by
    rw [Tally.names_ofNames]
    exact Shape.nodup_eraseDups _
  exact ⟨hnodup, hnodup.filter _, fun tag ht => List.mem_of_mem_filter ht⟩

theorem coherent_of_counts_eq_nil {a : Analysis} (hcounts : a.counts = [])
    (hgaps : a.unsupported = []) : a.Coherent := by
  refine ⟨?_, ?_, ?_⟩
  · rw [hcounts]
    exact List.nodup_nil
  · rw [hgaps]
    exact List.nodup_nil
  · rw [hgaps]
    exact fun tag ht => nomatch ht

theorem coherent_ofFile {s : Settings} {store : Files.Store} {p : Files.Path} {a : Analysis}
    (h : ofFile s store p = .ok a) : a.Coherent := by
  unfold ofFile at h
  split at h
  · cases h
  · split at h
    · obtain rfl := Except.ok.inj h
      exact coherent_ofModel ..
    · obtain rfl := Except.ok.inj h
      exact coherent_of_counts_eq_nil rfl rfl
    · cases h

theorem coherent_isolated {fileName : String} {outcome : Except Mishap Analysis}
    (h : ∀ a, outcome = .ok a → a.Coherent) : (isolated fileName outcome).Coherent := by
  cases outcome with
  | ok a => exact h a rfl
  | error e => exact coherent_of_counts_eq_nil rfl rfl

end Analysis

namespace Report

variable {s : Settings} {as as' : List Analysis} {r r' : Report}

/-! ## Examples -/

/-- The examples that a table holds for a tag. -/
def examplesIn (e : List (String × List String)) (tag : String) : List String :=
  (e.lookup tag).getD []

/-- The table of examples after a file with the given gaps. -/
def enterExamples (limit : Nat) (file : String) (e : List (String × List String))
    (tags : List String) : List (String × List String) :=
  tags.foldl (fun e tag => addExample limit tag file e) e

theorem examplesIn_cons (k : String) (names : List String) (rest : List (String × List String))
    (tag : String) :
    examplesIn ((k, names) :: rest) tag = if tag = k then names else examplesIn rest tag :=
  Tally.lookup_cons_getD k names rest tag []

theorem take_concat (xs : List String) (x : String) (n : Nat) :
    (if (xs.take n).length < n then xs.take n ++ [x] else xs.take n) = (xs ++ [x]).take n := by
  rw [List.length_take]
  by_cases h : xs.length < n
  · have hlen : (xs ++ [x]).length ≤ n := by
      rw [List.length_append, List.length_singleton]
      exact h
    rw [if_pos (by omega), List.take_of_length_le (Nat.le_of_lt h), List.take_of_length_le hlen]
  · rw [if_neg (by omega), List.take_append_of_le_length (Nat.le_of_not_lt h)]

/-- A file is added to the examples of its tag as long as there are too few. -/
theorem examplesIn_addExample (limit : Nat) (tag file : String) (e : List (String × List String))
    (other : String) :
    examplesIn (addExample limit tag file e) other =
      if other = tag then
        if (examplesIn e tag).length < limit then examplesIn e tag ++ [file] else examplesIn e tag
      else examplesIn e other := by
  induction e with
  | nil => rw [addExample, examplesIn_cons]; rfl
  | cons p rest ih =>
    obtain ⟨k, names⟩ := p
    by_cases hk : k = tag
    · subst hk
      rw [addExample, if_pos rfl]
      simp only [examplesIn_cons, if_true]
      by_cases h : other = k
      · rw [if_pos h, if_pos h]
      · rw [if_neg h, if_neg h, if_neg h]
    · rw [addExample, if_neg hk]
      simp only [examplesIn_cons, ih, Ne.symm hk, if_false]
      by_cases h : other = k
      · have hne : other ≠ tag := fun he => hk (h.symm.trans he)
        rw [if_pos h, if_neg hne, if_pos h]
      · rw [if_neg h, if_neg h]

theorem keys_addExample (limit : Nat) (tag file : String) (e : List (String × List String)) :
    (addExample limit tag file e).map Prod.fst =
      if tag ∈ e.map Prod.fst then e.map Prod.fst else e.map Prod.fst ++ [tag] := by
  induction e with
  | nil => rfl
  | cons p rest ih =>
    obtain ⟨k, names⟩ := p
    by_cases hk : k = tag
    · simp [addExample, hk]
    · rw [addExample, if_neg hk, List.map_cons, List.map_cons, ih]
      by_cases hm : tag ∈ rest.map Prod.fst
      · rw [if_pos hm, if_pos (List.mem_cons_of_mem k hm)]
      · have hnot : tag ∉ k :: rest.map Prod.fst := by
          rw [List.mem_cons, not_or]
          exact ⟨Ne.symm hk, hm⟩
        rw [if_neg hm, if_neg hnot, List.cons_append]

/-- A file is an example of each of its gaps, as often as it has it, unless there are enough. -/
theorem examplesIn_enterExamples_count (limit : Nat) (file : String)
    {e : List (String × List String)} (tags : List String) {tag : String} {xs : List String}
    (hxs : examplesIn e tag = xs.take limit) :
    examplesIn (enterExamples limit file e tags) tag =
      (xs ++ List.replicate (tags.count tag) file).take limit := by
  induction tags generalizing e xs with
  | nil => simpa [enterExamples] using hxs
  | cons first rest ih =>
    show examplesIn (enterExamples limit file (addExample limit first file e) rest) tag = _
    by_cases h : tag = first
    · subst h
      have hnext : examplesIn (addExample limit tag file e) tag = (xs ++ [file]).take limit := by
        rw [examplesIn_addExample, if_pos rfl, hxs, take_concat]
      rw [ih hnext, List.count_cons_self, List.replicate_succ, List.append_assoc,
        List.singleton_append]
    · have hnext : examplesIn (addExample limit first file e) tag = xs.take limit := by
        rw [examplesIn_addExample, if_neg h, hxs]
      rw [ih hnext, List.count_cons_of_ne (Ne.symm h)]

/-- A file is among the examples of each of its gaps, unless there are enough. -/
theorem examplesIn_enterExamples (limit : Nat) (file : String) {e : List (String × List String)}
    {tags : List String} (htags : tags.Nodup) {tag : String} {xs : List String}
    (hxs : examplesIn e tag = xs.take limit) :
    examplesIn (enterExamples limit file e tags) tag =
      (if tag ∈ tags then xs ++ [file] else xs).take limit := by
  rw [examplesIn_enterExamples_count limit file tags hxs, htags.count]
  by_cases h : tag ∈ tags
  · rw [if_pos h, if_pos h, List.replicate_one]
  · rw [if_neg h, if_neg h, List.replicate_zero, List.append_nil]

theorem keys_enterExamples (limit : Nat) (file : String) {e : List (String × List String)}
    {g : Tally} (h : e.map Prod.fst = g.names) (tags : List String) :
    (enterExamples limit file e tags).map Prod.fst = (g.enter tags).names := by
  induction tags generalizing e g with
  | nil => exact h
  | cons tag rest ih =>
    refine ih ?_
    rw [keys_addExample, h, Tally.names_add]

/-! ## One file -/

theorem add_of_not_parsed {a : Analysis} (ha : a.parsed = false) :
    r.add s a = { r with
      details := r.details ++ [a], total := r.total + 1, failed := r.failed + 1 } := by
  simp [add, ha]

theorem add_of_parsed {a : Analysis} (ha : a.parsed = true) :
    r.add s a = { r with
      details := r.details ++ [a]
      total := r.total + 1
      parsed := r.parsed + 1
      frequency := r.frequency.addAll a.counts
      gaps := r.gaps.enter a.unsupported
      examples := enterExamples s.exampleLimit a.fileName r.examples a.unsupported
      files := r.files.map fun l => (l.1, if a.has l.1 then l.2 ++ [a.fileName] else l.2) } := by
  simp only [add, ha, if_true]
  rfl

/-! ## Totals -/

/-- The names of the parsed files that satisfy a test, in order. -/
def naming (as : List Analysis) (test : Analysis → Bool) : List String :=
  (as.filter fun a => a.parsed && test a).map Analysis.fileName

theorem naming_concat (as : List Analysis) (a : Analysis) (test : Analysis → Bool) :
    naming (as ++ [a]) test =
      if a.parsed && test a then naming as test ++ [a.fileName] else naming as test := by
  cases h : a.parsed && test a <;> simp [naming, h]

/-- What the tables of a report hold once the findings `as` have been taken in. -/
structure Totals (s : Settings) (as : List Analysis) (r : Report) : Prop where
  details : r.details = as
  total : r.total = as.length
  parsed : r.parsed = as.countP Analysis.parsed
  failed : r.failed = as.countP fun a => !a.parsed
  frequency : ∀ tag, r.frequency.count tag =
    ((as.filter Analysis.parsed).map fun a => a.counts.count tag).sum
  frequencyNames : ∀ tag, tag ∈ r.frequency.names ↔
    ∃ a ∈ as, a.parsed = true ∧ tag ∈ a.counts.names
  frequencyOnce : r.frequency.names.Nodup
  gaps : ∀ tag, r.gaps.count tag = as.countP fun a => a.parsed && decide (tag ∈ a.unsupported)
  gapNames : ∀ tag, tag ∈ r.gaps.names ↔ ∃ a ∈ as, a.parsed = true ∧ tag ∈ a.unsupported
  gapsOnce : r.gaps.names.Nodup
  exampleNames : r.examples.map Prod.fst = r.gaps.names
  examples : ∀ tag, r.examplesOf tag =
    (naming as fun a => decide (tag ∈ a.unsupported)).take s.exampleLimit
  files : r.files = Trait.lists.map fun l => (l.1, naming as fun a => a.has l.1)

namespace Totals

theorem nil (s : Settings) (directory : String) : Totals s [] { directory } where
  details := rfl
  total := rfl
  parsed := rfl
  failed := rfl
  frequency _ := rfl
  frequencyNames tag := by simp [Tally.names]
  frequencyOnce := List.nodup_nil
  gaps _ := rfl
  gapNames tag := by simp [Tally.names]
  gapsOnce := List.nodup_nil
  exampleNames := rfl
  examples tag := by simp [naming, examplesOf]
  files := rfl

theorem add_failed (h : Totals s as r) {a : Analysis} (ha : a.parsed = false) :
    Totals s (as ++ [a]) (r.add s a) := by
  rw [add_of_not_parsed ha]
  exact
    { details := by rw [h.details]
      total := by rw [h.total, List.length_append, List.length_singleton]
      parsed := by simp [h.parsed, ha]
      failed := by simp [h.failed, ha]
      frequency := fun tag => by simp [h.frequency tag, ha]
      frequencyNames := fun tag => by simp [h.frequencyNames tag, or_and_right, exists_or, ha]
      frequencyOnce := h.frequencyOnce
      gaps := fun tag => by simp [h.gaps tag, ha]
      gapNames := fun tag => by simp [h.gapNames tag, or_and_right, exists_or, ha]
      gapsOnce := h.gapsOnce
      exampleNames := h.exampleNames
      examples := fun tag => by
        rw [naming_concat, ha]
        exact h.examples tag
      files := by
        simp only [naming_concat, ha, Bool.false_and, Bool.false_eq_true, if_false]
        exact h.files }

theorem add_parsed (h : Totals s as r) {a : Analysis} (hc : a.Coherent) (ha : a.parsed = true) :
    Totals s (as ++ [a]) (r.add s a) := by
  rw [add_of_parsed ha]
  exact
    { details := by rw [h.details]
      total := by rw [h.total, List.length_append, List.length_singleton]
      parsed := by simp [h.parsed, ha]
      failed := by simp [h.failed, ha]
      frequency := fun tag => by
        rw [Tally.count_addAll _ hc.counted, h.frequency tag]
        simp [ha]
      frequencyNames := fun tag => by
        rw [Tally.mem_names_addAll, h.frequencyNames tag]
        simp [or_and_right, exists_or, ha]
      frequencyOnce := Tally.nodup_names_addAll _ h.frequencyOnce
      gaps := fun tag => by
        rw [Tally.count_enter, h.gaps tag, List.Nodup.count hc.listed, List.countP_append,
          List.countP_singleton]
        simp [ha]
      gapNames := fun tag => by
        rw [Tally.mem_names_enter, h.gapNames tag]
        simp [or_and_right, exists_or, ha]
      gapsOnce := Tally.nodup_names_enter _ h.gapsOnce
      exampleNames := keys_enterExamples _ _ h.exampleNames a.unsupported
      examples := fun tag => by
        have hgrown := examplesIn_enterExamples s.exampleLimit a.fileName hc.listed (h.examples tag)
        rw [naming_concat, ha, Bool.true_and]
        simp only [decide_eq_true_eq]
        exact hgrown
      files := by
        rw [h.files, List.map_map]
        refine List.map_congr_left fun l _ => ?_
        simp [naming_concat, ha] }

/-- One more file. -/
theorem add (h : Totals s as r) {a : Analysis} (hc : a.Coherent) :
    Totals s (as ++ [a]) (r.add s a) := by
  cases ha : a.parsed with
  | false => exact h.add_failed ha
  | true => exact h.add_parsed hc ha

theorem foldl (h : Totals s as r) (hc : ∀ a ∈ as', a.Coherent) :
    Totals s (as ++ as') (as'.foldl (Report.add s) r) := by
  induction as' generalizing as r with
  | nil => simpa using h
  | cons a rest ih =>
    have hfirst : Totals s (as ++ [a]) (r.add s a) := h.add (hc a (List.mem_cons_self ..))
    have hrest := ih hfirst fun b hb => hc b (List.mem_cons_of_mem a hb)
    rwa [List.append_assoc, List.singleton_append] at hrest

/-! ## What follows -/

theorem total_eq (h : Totals s as r) : r.total = r.parsed + r.failed := by
  rw [h.total, h.parsed, h.failed, List.length_eq_countP_add_countP Analysis.parsed]
  simp

theorem length_naming (as : List Analysis) (test : Analysis → Bool) :
    (naming as test).length = as.countP fun a => a.parsed && test a := by
  rw [naming, List.length_map, List.countP_eq_length_filter]

theorem length_examplesOf (h : Totals s as r) (tag : String) :
    (r.examplesOf tag).length = min s.exampleLimit (r.gaps.count tag) := by
  rw [h.examples, h.gaps, List.length_take, length_naming]

theorem frequency_of_gap (h : Totals s as r) (hc : ∀ a ∈ as, a.Coherent) {tag : String}
    (ht : tag ∈ r.gaps.names) : tag ∈ r.frequency.names := by
  obtain ⟨a, ha, hp, hm⟩ := (h.gapNames tag).mp ht
  exact (h.frequencyNames tag).mpr ⟨a, ha, hp, (hc a ha).met tag hm⟩

end Totals

/-- Reports that count alike, whatever the order of what they list. -/
structure SameCounts (r r' : Report) : Prop where
  total : r.total = r'.total
  parsed : r.parsed = r'.parsed
  failed : r.failed = r'.failed
  frequency : ∀ tag, r.frequency.count tag = r'.frequency.count tag
  frequencyNames : ∀ tag, tag ∈ r.frequency.names ↔ tag ∈ r'.frequency.names
  gaps : ∀ tag, r.gaps.count tag = r'.gaps.count tag
  gapNames : ∀ tag, tag ∈ r.gaps.names ↔ tag ∈ r'.gaps.names
  examples : ∀ tag, (r.examplesOf tag).length = (r'.examplesOf tag).length
  files : (r.files.map fun l => (l.1, l.2.length)) = r'.files.map fun l => (l.1, l.2.length)

/-- The order of the files changes no count. -/
theorem Totals.sameCounts (h : Totals s as r) (h' : Totals s as' r') (hp : as.Perm as') :
    SameCounts r r' := by
  have hcount : ∀ test : Analysis → Bool, as.countP test = as'.countP test := fun test =>
    hp.countP_eq test
  have hexists : ∀ P : Analysis → Prop, (∃ a ∈ as, P a) ↔ ∃ a ∈ as', P a := fun P =>
    exists_congr fun a => and_congr_left fun _ => hp.mem_iff
  have hgaps : ∀ tag, r.gaps.count tag = r'.gaps.count tag := fun tag => by
    rw [h.gaps, h'.gaps, hcount]
  refine ⟨?_, ?_, ?_, fun tag => ?_, fun tag => ?_, hgaps, fun tag => ?_, fun tag => ?_, ?_⟩
  · rw [h.total, h'.total, hp.length_eq]
  · rw [h.parsed, h'.parsed, hcount]
  · rw [h.failed, h'.failed, hcount]
  · rw [h.frequency, h'.frequency]
    exact ((hp.filter Analysis.parsed).map _).sum_eq
  · rw [h.frequencyNames, h'.frequencyNames]
    exact hexists _
  · rw [h.gapNames, h'.gapNames]
    exact hexists _
  · rw [h.length_examplesOf, h'.length_examplesOf, hgaps]
  · rw [h.files, h'.files, List.map_map, List.map_map]
    refine List.map_congr_left fun l _ => ?_
    simp [Totals.length_naming, hcount]

/-! ## Files that could not be read -/

/-- A report with other running totals. -/
def recount (r : Report) (details : List Analysis) (total failed : Nat) : Report :=
  { r with details, total, failed }

theorem foldl_add_recount (as : List Analysis) (r : Report) (details details' : List Analysis)
    (total total' failed failed' : Nat) :
    (as.foldl (add s) (r.recount details' total' failed')).recount details total failed =
      (as.foldl (add s) r).recount details total failed := by
  induction as generalizing r details' total' failed' with
  | nil => rfl
  | cons a rest ih =>
    have hadd : (r.recount details' total' failed').add s a =
        (r.add s a).recount (details' ++ [a]) (total' + 1)
          (if a.parsed then failed' else failed' + 1) := by
      cases ha : a.parsed <;> simp [add, addParsed, recount, ha]
    rw [List.foldl_cons, List.foldl_cons, hadd, ih]

/-- Without the files that could not be read nothing is missing from the tables. -/
theorem foldl_add_filter (as : List Analysis) (r : Report) :
    as.foldl (add s) r = ((as.filter Analysis.parsed).foldl (add s) r).recount (r.details ++ as)
      (r.total + as.length) (r.failed + as.countP fun a => !a.parsed) := by
  induction as generalizing r with
  | nil => simp [recount]
  | cons a rest ih =>
    rw [List.foldl_cons, ih]
    cases ha : a.parsed with
    | true =>
      rw [List.filter_cons_of_pos ha, List.foldl_cons]
      congr 1
      · simp [add, addParsed, ha]
      · simp only [add, addParsed, ha, if_true, List.length_cons]
        omega
      · simp [add, addParsed, ha]
    | false =>
      have hadd : r.add s a = r.recount (r.details ++ [a]) (r.total + 1) (r.failed + 1) := by
        simp [add, recount, ha]
      rw [List.filter_cons_of_neg (by simp [ha]), hadd, foldl_add_recount]
      simp only [recount, List.append_assoc, List.singleton_append, List.length_cons]
      congr 1
      · omega
      · simp [ha]
        omega

/-! ## The run -/

/-- The totals of a report are told from the findings alone. Files that could not be read only
count, and the order of the files changes no count. -/
theorem totals_foldl_add (s : Settings) (directory : String) {as : List Analysis}
    (hc : ∀ a ∈ as, a.Coherent) :
    let r := as.foldl (add s) { directory }
    Totals s as r ∧ r.total = r.parsed + r.failed ∧
      (∀ tag, (r.examplesOf tag).length = min s.exampleLimit (r.gaps.count tag)) ∧
      (∀ tag ∈ r.gaps.names, tag ∈ r.frequency.names) ∧
      r = { (as.filter Analysis.parsed).foldl (add s) { directory } with
        details := as, total := as.length, failed := as.countP fun a => !a.parsed } ∧
      ∀ as', as.Perm as' → SameCounts r (as'.foldl (add s) { directory }) := by
  intro r
  have hr : Totals s as r := (Totals.nil s directory).foldl hc
  refine ⟨hr, hr.total_eq, hr.length_examplesOf, fun tag ht => hr.frequency_of_gap hc ht, ?_,
    fun as' hp => ?_⟩
  · have hfilter := foldl_add_filter (s := s) as { directory }
    simpa [recount] using hfilter
  · have hc' : ∀ a ∈ as', a.Coherent := fun a ha => hc a (hp.mem_iff.mpr ha)
    exact hr.sameCounts ((Totals.nil s directory).foldl hc') hp

/-- Two files with a gap in common, and one between them that could not be read. -/
def sharedGap : List Analysis :=
  [{ fileName := "a.odx", parsed := true, counts := [("Loop", 2), ("Foo", 1)],
     unsupported := ["Foo"] },
   { fileName := "b.odx", parseError := "broken" },
   { fileName := "c.odx", parsed := true, counts := [("Foo", 3)], unsupported := ["Foo"],
     has := fun t => t == .convoy }]

theorem coherent_sharedGap : ∀ a ∈ sharedGap, a.Coherent := by
  simp only [sharedGap, List.forall_mem_cons]
  exact ⟨⟨by decide, by decide, by decide⟩, ⟨by decide, by decide, by decide⟩,
    ⟨by decide, by decide, by decide⟩, fun a ha => nomatch ha⟩

/-- Of the two files with the gap the one that is named is the first. -/
theorem totals_sharedGap :
    let s := { Settings.usual with exampleLimit := 1 }
    let r := sharedGap.foldl (add s) { directory := "flows" }
    r.total = 3 ∧ r.failed = 1 ∧ r.frequency.count "Foo" = 4 ∧ r.gaps.count "Foo" = 2 ∧
      r.examplesOf "Foo" = ["a.odx"] ∧ r.filesWith .convoy = ["c.odx"] := by
  intro s r
  obtain ⟨h, -⟩ := totals_foldl_add s "flows" coherent_sharedGap
  refine ⟨h.total, h.failed, h.frequency "Foo", h.gaps "Foo", h.examples "Foo", ?_⟩
  rw [filesWith, h.files]
  rfl

/-! ## Scans -/

namespace Totals

theorem finalize (h : Totals s as r) : Totals s as (r.finalize s) := { h with }

theorem cancel (h : Totals s as r) : Totals s as { r with cancelled := true } := { h with }

theorem read {analyze : Files.Path → Except Mishap Analysis}
    (hc : ∀ p a, analyze p = .ok a → a.Coherent) (cancelled : Nat → Bool) (asked : Nat)
    (h : Totals s as r) (files : List Files.Path) :
    ∃ as', Totals s as' (Report.read s analyze cancelled asked r files) := by
  induction files generalizing asked as r with
  | nil => exact ⟨as, h⟩
  | cons p rest ih =>
    rw [Report.read]
    split
    · exact ⟨as, h.cancel⟩
    · exact ih (asked + 1) (h.add (Analysis.coherent_isolated (hc p)))

end Totals

/-- The tables of a report are told from its records, also when the scan was cancelled. -/
theorem totals_scan {store : Files.Store} {directory : Files.Path} {pattern : Option String}
    {checks : Option Nat} (h : scan s store directory pattern checks = .ok r) :
    Totals s r.details r := by
  unfold scan scanWith at h
  split at h
  · cases h
  · next files _ =>
    obtain rfl := Except.ok.inj h
    have hc : ∀ p a, (Analysis.ofFile s store p).mapError Trouble.mishap = .ok a →
        a.Coherent := by
      intro p a ha
      cases hfile : Analysis.ofFile s store p with
      | error e => rw [hfile] at ha; cases ha
      | ok b =>
        rw [hfile] at ha
        obtain rfl := Except.ok.inj ha
        exact Analysis.coherent_ofFile hfile
    obtain ⟨as, has⟩ := (Totals.nil s directory.text).read hc (cancelledAfter checks) 0 files
    have hr := has.finalize
    have hdetails := hr.details
    subst hdetails
    exact hr

end Report

end Orchestration
