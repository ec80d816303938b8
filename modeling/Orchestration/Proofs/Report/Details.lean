import Mathlib.Data.List.Forall2
import Orchestration.Proofs.Report.Finalize

/-!
# Orchestration.Proofs.Report.Details

What the text says about the most complex files. A report hands them over by name, and the text
looks the findings for a name up again.

* `Latest` — the findings after which none for the file name come.
* `detail?_eq_some_iff` — it is these that are looked up.
* `lines_eq_mostComplex` — where the text has the entries.
* `lines_foldl_add` — what the entries of every report tell. They tell the findings that were
  ranked only if no name comes twice.
-/

namespace Orchestration

namespace Report

variable {s : Settings} {r : Report} {as : List Analysis} {a b c : Analysis} {name : String}

/-! ## Names -/

/-- The findings `b` are the last ones for the file name. -/
def Latest (as : List Analysis) (name : String) (b : Analysis) : Prop :=
  ∃ before after, as = before ++ b :: after ∧ b.fileName = name ∧ ∀ c ∈ after, c.fileName ≠ name

theorem detail?_eq_some_iff : r.detail? name = some b ↔ Latest r.details name b := by
  unfold detail? Latest
  rw [List.find?_eq_some_iff_append]
  constructor
  · rintro ⟨hname, after, before, hdetails, hafter⟩
    refine ⟨before.reverse, after.reverse, ?_, of_decide_eq_true hname, fun c hc => ?_⟩
    · rw [← List.reverse_reverse r.details, hdetails]
      simp
    · simpa using hafter c (List.mem_reverse.mp hc)
  · rintro ⟨before, after, hdetails, hname, hafter⟩
    refine ⟨decide_eq_true hname, after.reverse, before.reverse, ?_, fun c hc => ?_⟩
    · rw [hdetails]
      simp
    · simpa using hafter c (List.mem_reverse.mp hc)

theorem exists_detail? (h : a ∈ r.details) : ∃ b, r.detail? a.fileName = some b := by
  refine Option.isSome_iff_exists.mp (List.find?_isSome.mpr ⟨a, List.mem_reverse.mpr h, ?_⟩)
  exact decide_eq_true rfl

theorem latest_of_nodup (h : (as.map Analysis.fileName).Nodup) (ha : a ∈ as) :
    Latest as a.fileName a := by
  obtain ⟨before, after, rfl⟩ := List.append_of_mem ha
  refine ⟨before, after, rfl, rfl, fun c hc hname => ?_⟩
  rw [List.map_append, List.nodup_append, List.map_cons, List.nodup_cons] at h
  exact h.2.1.1 (hname ▸ List.mem_map_of_mem hc)

/-! ## Entries -/

/-- The part of the text that the entries of the most complex files make. -/
def complexPart (entries : List (List String)) : List String :=
  if entries.isEmpty then [] else "Most Complex Orchestrations:" :: entries.flatten

/-- What the text says about a file name. -/
def entryOf (r : Report) (name : String) : List String :=
  ((r.detail? name).map fun a => complexLines a name).getD []

/-- The entries stand before the rule that closes the text, and nothing else depends on them. -/
theorem lines_eq_mostComplex (s : Settings) (top : Int) (r : Report) :
    ∃ body, ({ r with mostComplex := [] } : Report).lines s top = body ++ [Text.fill 80 '='] ∧
      r.lines s top = body ++ complexPart (r.mostComplex.map r.entryOf) ++ [Text.fill 80 '='] := by
  have hpart : complexPart (r.mostComplex.map r.entryOf) =
      if r.mostComplex.isEmpty then [] else
        "Most Complex Orchestrations:" :: r.mostComplex.flatMap r.entryOf := by
    rw [complexPart, List.isEmpty_map, List.flatMap_def]
  rw [hpart]
  refine ⟨_, congrArg (· ++ _) (List.append_nil _), rfl⟩

theorem entryOf_eq (h : Latest r.details name b) : r.entryOf name = complexLines b name := by
  rw [entryOf, detail?_eq_some_iff.mpr h]
  rfl

/-- An entry under the name of `a` among the findings `as`. -/
structure Entry (as : List Analysis) (a : Analysis) (entry : List String) : Prop where
  latest : ∃ b, Latest as a.fileName b ∧ entry = complexLines b a.fileName
  own : Latest as a.fileName a → entry = complexLines a a.fileName

theorem entry_entryOf (h : a ∈ r.details) : Entry r.details a (r.entryOf a.fileName) := by
  obtain ⟨b, hb⟩ := exists_detail? h
  have hb := detail?_eq_some_iff.mp hb
  exact ⟨⟨b, hb, entryOf_eq hb⟩, entryOf_eq⟩

/-- The most complex files are the files of the highest tier with the most tags. The text tells
under the name of each the last findings for that name, so its own if the name comes once. -/
theorem lines_foldl_add (s : Settings) (directory : String) (cancelled : Bool) (top : Int)
    (as : List Analysis) :
    let r := (as.foldl (add s) { directory, cancelled }).finalize s
    ∃ ranked body entries,
      Ranks (fun a => a.tags.length)
        ((as.filter Analysis.parsed).filter fun a => s.tiers.medium ≤ a.tags.length) ranked ∧
      r.mostComplex = (ranked.take 10).map Analysis.fileName ∧
      ({ r with mostComplex := [] } : Report).lines s top = body ++ [Text.fill 80 '='] ∧
      r.lines s top = body ++ complexPart entries ++ [Text.fill 80 '='] ∧
      List.Forall₂ (Entry as) (ranked.take 10) entries ∧
      ((as.map Analysis.fileName).Nodup →
        entries = (ranked.take 10).map fun a => complexLines a a.fileName) := by
  intro r
  have hdetails : r.details = as := (foldl_add_details (s := s) as { directory, cancelled }).1
  have hparsed : r.parsedDetails = as.filter Analysis.parsed := congrArg _ hdetails
  have hranks : Ranks (fun a => a.tags.length)
      ((as.filter Analysis.parsed).filter fun a => s.tiers.medium ≤ a.tags.length)
      (r.complexFiles s) :=
    hparsed ▸ ranks_complexFiles s r
  have hshown : ∀ a ∈ (r.complexFiles s).take 10, a ∈ as := by
    intro a ha
    have hcomplex := hranks.perm.mem_iff.mp (List.mem_of_mem_take ha)
    exact List.mem_of_mem_filter (List.mem_of_mem_filter hcomplex)
  have hcomplex : r.mostComplex = ((r.complexFiles s).take 10).map Analysis.fileName := rfl
  obtain ⟨body, hbare, hlines⟩ := lines_eq_mostComplex s top r
  rw [hcomplex, List.map_map] at hlines
  refine ⟨r.complexFiles s, body, _, hranks, hcomplex, hbare, hlines, ?_, fun hnodup => ?_⟩
  · rw [List.forall₂_map_right_iff, List.forall₂_same]
    exact fun a ha => hdetails ▸ entry_entryOf (hdetails.symm ▸ hshown a ha)
  · refine List.map_congr_left fun a ha => ?_
    exact entryOf_eq (hdetails.symm ▸ latest_of_nodup hnodup (hshown a ha))

theorem lines_tieredFiles :
    let s := Settings.usual
    let r := (tieredFiles.foldl (add s) { directory := "flows" }).finalize s
    (tieredFiles.map Analysis.fileName).Nodup ∧
      ∃ body, r.lines s 20 = body ++
        ["Most Complex Orchestrations:",
          "  * d.odx (12 shape types, 0KB)", "    Unsupported: Bar",
          "  * a.odx (10 shape types, 0KB)", "    Unsupported: Foo, Bar",
          "  * e.odx (10 shape types, 0KB)", "    Unsupported: Foo"] ++ [Text.fill 80 '='] := by
  intro s r
  have hnodup : (tieredFiles.map Analysis.fileName).Nodup := by decide
  obtain ⟨ranked, body, entries, hranked, -, -, hlines, -, hown⟩ :=
    lines_foldl_add s "flows" false 20 tieredFiles
  have hranked : ranked = _ := hranked.unique ranks_tieredFiles
  have hentries : complexPart entries = _ := congrArg complexPart (hown hnodup)
  rw [hranked] at hentries
  refine ⟨hnodup, body, ?_⟩
  rw [hlines, hentries]
  refine congrArg (body ++ · ++ _) ?_
  decide +kernel

/-- Two files of different directories that have one name. -/
def sharedName : List Analysis :=
  [{ fileName := "orders.odx", size := 5000, parsed := true, tags := .replicate 12 "Send",
     unsupported := ["Foo"] },
   { fileName := "orders.odx", size := 2000, parsed := true, tags := .replicate 10 "Send",
     unsupported := ["Bar"] }]

/-- Both entries tell the findings of the second file. -/
theorem lines_sharedName :
    let s := Settings.usual
    let r := (sharedName.foldl (add s) { directory := "flows" }).finalize s
    let rule := Text.fill 80 '='
    r.complexFiles s = sharedName ∧
      (∃ body, r.lines s 20 = body ++
        ["Most Complex Orchestrations:",
          "  * orders.odx (10 shape types, 1KB)", "    Unsupported: Bar",
          "  * orders.odx (10 shape types, 1KB)", "    Unsupported: Bar"] ++ [rule]) ∧
      ¬ ∃ body, r.lines s 20 = body ++
        complexPart ((r.complexFiles s).map fun a => complexLines a a.fileName) ++ [rule] := by
  intro s r rule
  have hcomplex : r.complexFiles s = sharedName := List.mergeSort_of_pairwise (by decide)
  have hnames : r.mostComplex = ["orders.odx", "orders.odx"] := by
    show ((r.complexFiles s).take 10).map Analysis.fileName = _
    rw [hcomplex]
    rfl
  obtain ⟨body, -, hlines⟩ := lines_eq_mostComplex s 20 r
  have hpart : complexPart (r.mostComplex.map r.entryOf) =
      ["Most Complex Orchestrations:",
        "  * orders.odx (10 shape types, 1KB)", "    Unsupported: Bar",
        "  * orders.odx (10 shape types, 1KB)", "    Unsupported: Bar"] := by
    rw [hnames]
    decide +kernel
  rw [hpart] at hlines
  refine ⟨hcomplex, ⟨body, hlines⟩, ?_⟩
  rintro ⟨body', hown⟩
  have hparts := List.append_cancel_right (hlines.symm.trans hown)
  rw [hcomplex] at hparts
  exact absurd (List.append_inj_right' hparts (by decide +kernel)) (by decide +kernel)

end Report

end Orchestration
