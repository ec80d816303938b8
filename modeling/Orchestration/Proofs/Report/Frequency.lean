import Orchestration.Diagnostics
import Orchestration.Proofs.Analysis.Trait
import Orchestration.Proofs.Scan

/-!
# Orchestration.Proofs.Report.Frequency

Tags counted from the nodes of a tree up to the report of a directory.

* `Analysis.mem_counts_iff`, `Analysis.sum_counts` — the counts of an analysis are those of the
  nodes, each tag with its number, all together as many as there are nodes.
* `Source.model?` — the model that the findings for a file are about.
* `Report.Counted` — a report that counts the nodes of some models, kept by each file that is taken
  in.
* `Report.counted_ofFiles` — a run counts the nodes of the files up to a cancellation.
* `Report.nodes_counted` — both, for every model and every scan.
-/

namespace Orchestration

open Files (Path Store)
open Shape (Node)

/-! ## One model -/

namespace Analysis

variable {text source : String} {m : Model}

theorem tags_nodup (s : Settings) (m : Model) (fileName : String) (size : Nat) :
    (ofModel s m fileName size).tags.Nodup := by
  show (Tally.ofNames (m.allShapes.map countedTag)).names.Nodup
  rw [Tally.names_ofNames]
  exact Shape.nodup_eraseDups _

/-- The walk meets every node once, so that its tags are counted as in the list of nodes. -/
theorem mem_counts_iff (h : Model.ofText text source = .ok m) (s : Settings) (fileName : String)
    (size : Nat) (tag : String) (n : Nat) : (tag, n) ∈ (ofModel s m fileName size).counts ↔
      n = m.tree.list.countP (fun x => x.tag == tag) ∧ n ≠ 0 := by
  have hcount : (m.allShapes.map Node.tag).count tag =
      m.tree.list.countP fun x => x.tag == tag := by
    rw [← (Model.allShapes_perm_list h).countP_eq, List.count, List.countP_map]
    rfl
  rw [counts_ofModel h, Model.tagTally, Tally.mem_ofNames, hcount]

theorem sum_counts (h : Model.ofText text source = .ok m) (s : Settings) (fileName : String)
    (size : Nat) : ((ofModel s m fileName size).counts.map Prod.snd).sum = m.tree.size := by
  rw [counts_ofModel h, Model.tagTally, Tally.sum_ofNames, List.length_map,
    (Model.allShapes_perm_list h).length_eq, Shape.Tree.length_list]

end Analysis

/-! ## One file -/

/-- The model that the findings for a file are about. -/
def Source.model? (store : Store) (p : Path) : Option Model :=
  if p.text.toList.contains '\x00' then none else (Source.model store p).toOption

theorem Source.ofText_of_model {store : Store} {p : Path} {m : Model}
    (h : Source.model store p = .ok m) : ∃ text, Model.ofText text p.name = .ok m := by
  unfold model at h
  split at h
  · cases h
  · next text hread =>
    refine ⟨String.ofList text, ?_⟩
    rw [Model.ofText_ofList]
    cases hr : (Model.assembleText Model.noRefusals text p.name).result with
    | error f =>
      rw [hr] at h
      cases h
    | ok m' =>
      rw [hr] at h
      obtain rfl := Except.ok.inj h
      rfl

namespace Analysis

/-- The findings of a scan for a file. -/
def inScan (s : Settings) (store : Store) (p : Path) : Analysis :=
  isolated p.name ((ofFile s store p).mapError Trouble.mishap)

variable {s : Settings} {store : Store} {p : Path}

theorem inScan_of_model {m : Model} (h : Source.model? store p = some m) :
    inScan s store p = ofModel s m p.name (store.sizeOf p) ∧
      ∃ text, Model.ofText text p.name = .ok m := by
  unfold Source.model? at h
  split at h
  · cases h
  · next hzero =>
    cases hm : Source.model store p with
    | error t =>
      rw [hm] at h
      cases h
    | ok m' =>
      rw [hm] at h
      obtain rfl := Option.some.inj h
      refine ⟨?_, Source.ofText_of_model hm⟩
      rw [inScan, ofFile, if_neg hzero, hm]
      rfl

theorem parsed_inScan_of_none (h : Source.model? store p = none) :
    (inScan s store p).parsed = false := by
  rw [inScan, ofFile]
  unfold Source.model? at h
  split at h
  · next hzero =>
    rw [if_pos hzero]
    rfl
  · next hzero =>
    rw [if_neg hzero]
    cases hm : Source.model store p with
    | ok m =>
      rw [hm] at h
      cases h
    | error t => cases t <;> rfl

end Analysis

/-! ## A run over files -/

namespace Report

/-- A report that counts the nodes of some models. -/
structure Counted (ms : List Model) (r : Report) : Prop where
  parsed : r.parsed = ms.length
  frequency : (r.frequency.map Prod.snd).sum = (ms.map fun m => m.tree.size).sum

variable {s : Settings} {store : Store} {ms : List Model} {r : Report}

@[simp] theorem total_add (r : Report) (a : Analysis) : (r.add s a).total = r.total + 1 := by
  unfold add
  split <;> rfl

/-- One file adds the nodes of its model, and nothing when it has none. -/
theorem Counted.add (h : Counted ms r) (p : Path) :
    Counted (ms ++ (Source.model? store p).toList) (r.add s (.inScan s store p)) := by
  cases hm : Source.model? store p with
  | none =>
    have ha := Analysis.parsed_inScan_of_none (s := s) hm
    simp only [Report.add, ha, Option.toList_none, List.append_nil]
    exact ⟨h.parsed, h.frequency⟩
  | some m =>
    obtain ⟨ha, text, htext⟩ := Analysis.inScan_of_model (s := s) hm
    have hsum := Analysis.sum_counts htext s p.name (store.sizeOf p)
    have hadd := Tally.sum_addAll r.frequency
      (Analysis.ofModel s m p.name (store.sizeOf p)).counts
    rw [hsum, h.frequency] at hadd
    rw [ha, Option.toList_some]
    refine ⟨?_, ?_⟩
    · rw [List.length_append, ← h.parsed]
      rfl
    · rw [List.map_append, List.sum_append, List.map_singleton, List.sum_singleton]
      exact hadd

theorem total_foldl_add (as : List Analysis) (r : Report) :
    (as.foldl (add s) r).total = r.total + as.length := by
  induction as generalizing r with
  | nil => rfl
  | cons a rest ih =>
    rw [List.foldl_cons, ih, total_add, List.length_cons]
    omega

/-- The files that are taken in add the nodes of their models. -/
theorem Counted.foldl (h : Counted ms r) (files : List Path) :
    Counted (ms ++ files.filterMap (Source.model? store))
      ((files.map (Analysis.inScan s store)).foldl (Report.add s) r) := by
  induction files generalizing ms r with
  | nil => simpa using h
  | cons p rest ih =>
    have hfirst : Counted (ms ++ (Source.model? store p).toList) (r.add s (.inScan s store p)) :=
      h.add p
    have hrest := ih hfirst
    have hmodels : (p :: rest).filterMap (Source.model? store) =
        (Source.model? store p).toList ++ rest.filterMap (Source.model? store) := by
      cases hm : Source.model? store p <;> simp [hm]
    rw [List.append_assoc, ← hmodels] at hrest
    exact hrest

theorem finalize_counted (h : Counted ms r) : Counted ms (r.finalize s) := ⟨h.parsed, h.frequency⟩

/-- A run that nothing cuts short counts the nodes of all files. -/
theorem counted_read_never (s : Settings) (store : Store) (directory : String)
    (files : List Path) :
    let r := read s (fun p => (Analysis.ofFile s store p).mapError Trouble.mishap) never 0
      { directory } files
    r.total = files.length ∧ r.details = files.map (Analysis.inScan s store) ∧
      Counted (files.filterMap (Source.model? store)) r := by
  intro r
  let start : Report := { directory }
  have hstart : Counted [] start := ⟨rfl, rfl⟩
  have hr : r = (files.map (Analysis.inScan s store)).foldl (add s) start :=
    read_never 0 start files
  rw [hr]
  refine ⟨?_, (foldl_add_details _ _).1, hstart.foldl files⟩
  rw [total_foldl_add, List.length_map]
  exact Nat.zero_add _

/-- A report counts the nodes of the files before the first question that is answered with yes. -/
theorem counted_ofFiles (s : Settings) (store : Store) (directory : String)
    (cancelled : Nat → Bool) (files : List Path) :
    let r := ofFiles s (fun p => (Analysis.ofFile s store p).mapError Trouble.mishap) directory
      cancelled files
    r.total ≤ files.length ∧ (r.total < files.length → cancelled r.total = true) ∧
      r.details = (files.take r.total).map (Analysis.inScan s store) ∧
      Counted ((files.take r.total).filterMap (Source.model? store)) r := by
  intro r
  let analyze := fun p => (Analysis.ofFile s store p).mapError Trouble.mishap
  let start : Report := { directory }
  have hr : r = (read s analyze cancelled 0 start files).finalize s := rfl
  rcases @read_cases s analyze cancelled 0 start files with
    ⟨-, heq⟩ | ⟨k, hk, hyes, -, heq⟩
  · obtain ⟨htotal, hdetails, hcounted⟩ := counted_read_never s store directory files
    rw [← heq] at htotal hdetails hcounted
    have ht : r.total = files.length := by rw [hr]; exact htotal
    rw [ht, List.take_length]
    exact ⟨Nat.le_refl _, fun hlt => absurd hlt (Nat.lt_irrefl _), by rw [hr]; exact hdetails,
      by rw [hr]; exact finalize_counted hcounted⟩
  · obtain ⟨htotal, hdetails, hcounted⟩ :=
      counted_read_never s store directory (files.take k)
    rw [Nat.zero_add] at hyes
    have ht : r.total = k := by
      rw [hr, heq]
      exact htotal.trans (List.length_take_of_le (Nat.le_of_lt hk))
    rw [ht]
    exact ⟨Nat.le_of_lt hk, fun _ => hyes, by rw [hr, heq]; exact hdetails,
      by rw [hr, heq]; exact ⟨hcounted.parsed, hcounted.frequency⟩⟩

/-- Nodes are counted once, wherever they stand. The findings for a model give the same counts as
its display, each tag with the number of its nodes, and in all as many as there are nodes; a report
counts the nodes of all files that could be read, up to a cancellation. -/
theorem nodes_counted (s : Settings) :
    (∀ text source m, Model.ofText text source = .ok m → ∀ fileName size,
      let a := Analysis.ofModel s m fileName size
      a.counts = Diagnostics.counts m ∧ a.tags = a.counts.names ∧ a.tags.Nodup ∧
        (∀ tag n, (tag, n) ∈ a.counts ↔
          n = m.tree.list.countP (fun x => x.tag == tag) ∧ n ≠ 0) ∧
        (a.counts.map Prod.snd).sum = m.tree.size) ∧
    ∀ store directory pattern cancelled r,
      scanWith s (fun p => (Analysis.ofFile s store p).mapError Trouble.mishap) store directory
        pattern cancelled = .ok r →
      ∃ files, Files.glob store directory (.orElse (pattern.getD "") s.sourcePattern) =
          .ok files ∧
        r.total ≤ files.length ∧ (r.total < files.length → cancelled r.total = true) ∧
        r.details = (files.take r.total).map (Analysis.inScan s store) ∧
        let ms := (files.take r.total).filterMap (Source.model? store)
        r.parsed = ms.length ∧
          (r.frequency.map Prod.snd).sum = (ms.map fun m => m.tree.size).sum := by
  refine ⟨fun text source m h fileName size => ?_, fun store directory pattern cancelled r h => ?_⟩
  · exact ⟨Analysis.counts_ofModel h s fileName size, rfl,
      Analysis.tags_nodup s m fileName size, Analysis.mem_counts_iff h s fileName size,
      Analysis.sum_counts h s fileName size⟩
  · unfold scanWith at h
    split at h
    · cases h
    · next files hfiles =>
      obtain rfl := Except.ok.inj h
      obtain ⟨hle, hlast, hdetails, hcounted⟩ :=
        counted_ofFiles s store directory.text cancelled files
      exact ⟨files, hfiles, hle, hlast, hdetails, hcounted.parsed, hcounted.frequency⟩

/-- A directory with one file. -/
def oddDirectory : Store :=
  ⟨[], [(["a"], .file (Text.Utf8.encode Model.oddTypes.toList))]⟩

theorem oddDirectory_matching : Files.glob oddDirectory ⟨false, []⟩
    (.orElse ((some "a").getD "") Settings.usual.sourcePattern) = .ok [⟨false, ["a"]⟩] := by
  have hfound : Files.findFiles oddDirectory ⟨false, []⟩
      (.orElse ((some "a").getD "") Settings.usual.sourcePattern) = .ok [⟨false, ["a"]⟩] := rfl
  rw [Files.glob, hfound]
  exact congrArg Except.ok (List.mergeSort_singleton ..)

set_option maxRecDepth 100000 in
theorem model_oddDirectory :
    (Source.model? oddDirectory ⟨false, ["a"]⟩).map (fun m => m.tree.size) = some 8 := by
  rw [oddDirectory, Model.oddTypes, String.toList_ofList]
  decide +kernel

/-- Two of the eight nodes have one tag that no form knows. -/
theorem nodes_counted_odd :
    (∃ m, Model.ofText Model.oddTypes "odd.odx" = .ok m ∧
      ("DynamicPort", 2) ∈ (Analysis.ofModel .usual m "odd.odx" 1).counts) ∧
    ∃ r, scanWith .usual (fun p => (Analysis.ofFile .usual oddDirectory p).mapError Trouble.mishap)
        oddDirectory ⟨false, []⟩ (some "a") never = .ok r ∧
      r.parsed = 1 ∧ (r.frequency.map Prod.snd).sum = 8 := by
  refine ⟨?_, ?_⟩
  · obtain ⟨m, hm, hv⟩ := Model.oddTypes_parsed
    obtain ⟨-, -, -, hmem, -⟩ := (nodes_counted .usual).1 _ _ m hm "odd.odx" 1
    have hcount : m.tree.list.countP (fun x => x.tag == "DynamicPort") =
        (m.tree.list.map Node.heading).countP fun x => x.2 == "DynamicPort" := by
      rw [List.countP_map]
      rfl
    have hheadings := congrArg Prod.fst hv
    dsimp only at hheadings
    refine ⟨m, hm, (hmem _ _).mpr ⟨?_, by decide⟩⟩
    rw [hcount, hheadings]
    decide
  · obtain ⟨r, hr⟩ : ∃ r, scanWith .usual (fun p => (Analysis.ofFile .usual oddDirectory p).mapError
        Trouble.mishap) oddDirectory ⟨false, []⟩ (some "a") never = .ok r := by
      rw [scanWith, oddDirectory_matching]
      exact ⟨_, rfl⟩
    obtain ⟨files, hfiles, hle, hlast, -, hparsed, hsum⟩ :=
      (nodes_counted .usual).2 oddDirectory ⟨false, []⟩ (some "a") never r hr
    obtain rfl : [⟨false, ["a"]⟩] = files := Except.ok.inj (oddDirectory_matching.symm.trans hfiles)
    obtain ⟨m, hm, hsize⟩ := Option.map_eq_some_iff.mp model_oddDirectory
    -- nothing is answered with yes, so that the file is taken in
    have htotal := Nat.le_antisymm hle (Nat.le_of_not_lt fun h => Bool.noConfusion (hlast h))
    rw [htotal, List.take_length, List.filterMap_cons_some hm, List.filterMap_nil] at hparsed hsum
    refine ⟨r, hr, hparsed, ?_⟩
    rw [hsum, List.map_singleton, List.sum_singleton, hsize]

end Report

end Orchestration
