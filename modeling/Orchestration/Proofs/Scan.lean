import Mathlib.Data.List.Forall2
import Orchestration.Scan

/-!
# Orchestration.Proofs.Scan

Scans of directories: one file's trouble stays with that file, and a cancellation cuts the scan
short without leaving anything of it unfinished.

* `Files.glob_sorted` — matching files come in the order of their components.
* `Analysis.Recorded` — what a scan records for a file, which the file alone decides.
* `Report.read_cases` — files are taken in up to the first question that is answered with yes.
* `scanWith_isolates` — what a scan reports.
-/

namespace Orchestration

open Files (Path Store)

/-! ## The order of files -/

namespace Files

theorem partsLe_total (xs ys : List String) : (partsLe xs ys || partsLe ys xs) = true := by
  induction xs generalizing ys with
  | nil => simp [partsLe]
  | cons x xs ih =>
    cases ys with
    | nil => simp [partsLe]
    | cons y ys =>
      by_cases he : x = y
      · subst he
        simpa [partsLe] using ih ys
      · have hlt : x < y ∨ y < x := by
          rcases String.le_total x y with hle | hle
          · refine .inl (Decidable.byContradiction fun hn => ?_)
            exact he (String.le_antisymm hle (String.not_lt.mp hn))
          · refine .inr (Decidable.byContradiction fun hn => ?_)
            exact he (String.le_antisymm (String.not_lt.mp hn) hle)
        simpa [partsLe, he, Ne.symm he] using hlt

theorem partsLe_trans (xs ys zs : List String) (h : partsLe xs ys = true)
    (h' : partsLe ys zs = true) : partsLe xs zs = true := by
  induction xs generalizing ys zs with
  | nil => rfl
  | cons x xs ih =>
    cases ys with
    | nil => simp [partsLe] at h
    | cons y ys =>
      cases zs with
      | nil => simp [partsLe] at h'
      | cons z zs =>
        simp only [partsLe] at h h' ⊢
        by_cases hxy : x = y
        · subst hxy
          rw [if_pos rfl] at h
          by_cases hxz : x = z
          · rw [if_pos hxz] at h' ⊢
            exact ih ys zs h h'
          · rwa [if_neg hxz] at h' ⊢
        · rw [if_neg hxy, decide_eq_true_eq] at h
          by_cases hyz : y = z
          · subst hyz
            rw [if_neg hxy]
            exact decide_eq_true h
          · rw [if_neg hyz, decide_eq_true_eq] at h'
            have hlt : x < z := String.lt_trans h h'
            have hxz : x ≠ z := fun he => String.lt_irrefl z (he ▸ hlt)
            rw [if_neg hxz]
            exact decide_eq_true hlt

theorem glob_sorted {store : Store} {directory : Path} {pattern : Text.Wide} {files : List Path}
    (h : glob store directory pattern = .ok files) :
    files.Pairwise fun p q => partsLe p.parts q.parts = true := by
  unfold glob at h
  cases hfound : findFiles store directory pattern with
  | error t =>
    rw [hfound] at h
    cases h
  | ok found =>
    rw [hfound] at h
    obtain rfl := Except.ok.inj h
    exact List.pairwise_mergeSort (fun p q r => partsLe_trans p.parts q.parts r.parts)
      (fun p q => partsLe_total p.parts q.parts) found

end Files

/-! ## The record of a file -/

/-- What a scan records for a file: its findings, or what stopped their analysis. -/
inductive Analysis.Recorded (analyze : Path → Except Mishap Analysis) (p : Path) : Analysis → Prop
  | findings {a : Analysis} : analyze p = .ok a → Recorded analyze p a
  | mishap {e : Mishap} {a : Analysis} : analyze p = .error e → a.parsed = false →
      a.fileName = p.name → a.errorKind = e.label → a.parseError = e.message →
      Recorded analyze p a

theorem Analysis.recorded_isolated (analyze : Path → Except Mishap Analysis) (p : Path) :
    Recorded analyze p (isolated p.name (analyze p)) := by
  cases h : analyze p with
  | ok a => exact .findings h
  | error e => exact .mishap h rfl rfl rfl rfl

namespace Report

variable {s : Settings} {analyze : Path → Except Mishap Analysis}

/-- No question is answered with yes. -/
def never : Nat → Bool := fun _ => false

@[simp] theorem details_add (r : Report) (a : Analysis) :
    (r.add s a).details = r.details ++ [a] := by
  unfold add
  split <;> rfl

@[simp] theorem cancelled_add (r : Report) (a : Analysis) :
    (r.add s a).cancelled = r.cancelled := by
  unfold add
  split <;> rfl

/-- How often it has been asked does not matter when the answer is always no. -/
theorem read_never (asked : Nat) (r : Report) (files : List Path) :
    read s analyze never asked r files =
      (files.map fun p => Analysis.isolated p.name (analyze p)).foldl (add s) r := by
  induction files generalizing asked r with
  | nil => rfl
  | cons p rest ih => exact ih (asked + 1) _

theorem foldl_add_details (as : List Analysis) (r : Report) :
    (as.foldl (add s) r).details = r.details ++ as ∧
      (as.foldl (add s) r).cancelled = r.cancelled := by
  induction as generalizing r with
  | nil => simp
  | cons a rest ih =>
    obtain ⟨hdetails, hcancelled⟩ := ih (r.add s a)
    rw [List.foldl_cons, hdetails, hcancelled]
    simp

/-- Files are taken in up to the first question that is answered with yes. -/
theorem read_cases (cancelled : Nat → Bool) (asked : Nat) (r : Report) (files : List Path) :
    ((∀ i < files.length, cancelled (asked + i) = false) ∧
        read s analyze cancelled asked r files = read s analyze never asked r files) ∨
      ∃ k < files.length, cancelled (asked + k) = true ∧
        (∀ i < k, cancelled (asked + i) = false) ∧
        read s analyze cancelled asked r files =
          { read s analyze never asked r (files.take k) with cancelled := true } := by
  induction files generalizing asked r with
  | nil => exact .inl ⟨fun i hi => absurd hi (Nat.not_lt_zero i), rfl⟩
  | cons p rest ih =>
    cases hc : cancelled asked with
    | true =>
      refine .inr ⟨0, Nat.succ_pos _, hc, fun i hi => absurd hi (Nat.not_lt_zero i), ?_⟩
      rw [read, if_pos hc]
      rfl
    | false =>
      -- the first question is answered with no, the others are those about the rest
      have hfirst : ∀ n, (∀ i < n, cancelled (asked + 1 + i) = false) →
          ∀ i < n + 1, cancelled (asked + i) = false := by
        intro n hn i hi
        cases i with
        | zero => exact hc
        | succ i =>
          rw [Nat.add_comm i 1, ← Nat.add_assoc]
          exact hn i (Nat.lt_of_succ_lt_succ hi)
      have hread : read s analyze cancelled asked r (p :: rest) = read s analyze cancelled
          (asked + 1) (r.add s (.isolated p.name (analyze p))) rest := by
        rw [read, hc]
        rfl
      rw [hread]
      rcases ih (asked + 1) (r.add s (.isolated p.name (analyze p))) with
        ⟨hno, heq⟩ | ⟨k, hk, hyes, hno, heq⟩
      · exact .inl ⟨hfirst _ hno, heq⟩
      · refine .inr ⟨k + 1, Nat.succ_lt_succ hk, ?_, hfirst k hno, heq⟩
        rwa [Nat.add_comm k 1, ← Nat.add_assoc]

/-- A report that is finished after a cancellation differs in nothing but the mark of it. -/
theorem finalize_cancelled (r : Report) :
    { r with cancelled := true }.finalize s = { r.finalize s with cancelled := true } := rfl

theorem details_ofFiles_never (directory : String) (files : List Path) :
    (ofFiles s analyze directory never files).details =
        files.map (fun p => Analysis.isolated p.name (analyze p)) ∧
      (ofFiles s analyze directory never files).cancelled = false := by
  have h : (read s analyze never 0 { directory } files).details =
        [] ++ files.map (fun p => Analysis.isolated p.name (analyze p)) ∧
      (read s analyze never 0 { directory } files).cancelled = false := by
    rw [read_never]
    exact foldl_add_details _ _
  exact h

theorem recorded_ofFiles_never (directory : String) (files : List Path) :
    List.Forall₂ (Analysis.Recorded analyze) files
      (ofFiles s analyze directory never files).details := by
  rw [(details_ofFiles_never directory files).1, List.forall₂_map_right_iff, List.forall₂_same]
  exact fun p _ => Analysis.recorded_isolated analyze p

end Report

/-- A scan of a directory ends with a report whatever becomes of the single files. It has one
record for each file that was read, in the order of the paths, and each record is decided by its
file alone. Without a cancellation all files are read; one that is seen before a file leaves the
finished report of the files before it. -/
theorem scanWith_isolates (s : Settings) (analyze : Path → Except Mishap Analysis) (store : Store)
    (directory : Path) (pattern : Option String) (cancelled : Nat → Bool) {files : List Path}
    (hfiles : Files.glob store directory (.orElse (pattern.getD "") s.sourcePattern) =
      .ok files) :
    files.Pairwise (fun p q => Files.partsLe p.parts q.parts = true) ∧
      ∃ r, scanWith s analyze store directory pattern cancelled = .ok r ∧
        (((∀ i < files.length, cancelled i = false) ∧ r.cancelled = false ∧
            List.Forall₂ (Analysis.Recorded analyze) files r.details ∧
            r = Report.ofFiles s analyze directory.text Report.never files) ∨
          ∃ k < files.length, cancelled k = true ∧ (∀ i < k, cancelled i = false) ∧
            List.Forall₂ (Analysis.Recorded analyze) (files.take k) r.details ∧
            r = { Report.ofFiles s analyze directory.text Report.never (files.take k) with
              cancelled := true }) := by
  refine ⟨Files.glob_sorted hfiles,
    Report.ofFiles s analyze directory.text cancelled files, by rw [scanWith, hfiles], ?_⟩
  rcases @Report.read_cases s analyze cancelled 0 { directory := directory.text } files with
    ⟨hno, heq⟩ | ⟨k, hk, hyes, hno, heq⟩
  all_goals simp only [Nat.zero_add] at hno
  · have hreport : Report.ofFiles s analyze directory.text cancelled files =
        Report.ofFiles s analyze directory.text Report.never files := by
      rw [Report.ofFiles, heq]
      rfl
    rw [hreport]
    exact .inl ⟨hno, (Report.details_ofFiles_never _ files).2,
      Report.recorded_ofFiles_never _ files, rfl⟩
  · have hreport : Report.ofFiles s analyze directory.text cancelled files =
        { Report.ofFiles s analyze directory.text Report.never (files.take k) with
          cancelled := true } := by
      rw [Report.ofFiles, heq, Report.finalize_cancelled]
      rfl
    rw [hreport]
    rw [Nat.zero_add] at hyes
    exact .inr ⟨k, hk, hyes, hno, Report.recorded_ofFiles_never _ (files.take k), rfl⟩

/-- Three files, the last of them entered first. -/
def threeFiles : Store :=
  ⟨[], [(["c"], .file []), (["a"], .file []), (["b"], .file [])]⟩

/-- An analysis that stops at the second file. -/
def stopsAtSecond (p : Path) : Except Mishap Analysis :=
  if p.name = "b" then .error ⟨"OSError", "gone"⟩ else .ok { fileName := p.name, parsed := true }

theorem threeFiles_matching : Files.glob threeFiles ⟨false, []⟩
    (.orElse ((some "?").getD "") Settings.usual.sourcePattern) =
      .ok [⟨false, ["a"]⟩, ⟨false, ["b"]⟩, ⟨false, ["c"]⟩] := by
  have hread : Files.readPattern (.orElse ((some "?").getD "") Settings.usual.sourcePattern) =
      .ok [.pieces [.one]] := rfl
  have hguard : threeFiles.guard? [] = none := by decide
  have hnames : threeFiles.names [] = ["c", "a", "b"] := by decide
  have hfits : ∀ c : Char, Files.fits [.one] [c] = true := fun c => by
    simp [Files.fits, Files.Piece.admits]
  have hfitting : ["c", "a", "b"].filter (fun n => Files.fits [.one] n.toList &&
      (([] : List Files.Component).isEmpty || threeFiles.isDirectory ([] ++ [n]))) =
        ["c", "a", "b"] := by
    simp [hfits]
  have hselect : Files.select threeFiles [.pieces [.one]] [] [] =
      .ok [(["c"], ["c"]), (["a"], ["a"]), (["b"], ["b"])] := by
    simp only [Files.select, hguard, hnames, hfitting]
    rfl
  have hlocate : threeFiles.locate ⟨false, []⟩ = .ok (some []) := rfl
  have hsearch : Files.search threeFiles ⟨false, []⟩ [.pieces [.one]] =
      .ok [⟨false, ["c"]⟩, ⟨false, ["a"]⟩, ⟨false, ["b"]⟩] := by
    rw [Files.search, hlocate]
    simp only [hselect]
    rfl
  have hfound : Files.findFiles threeFiles ⟨false, []⟩
      (.orElse ((some "?").getD "") Settings.usual.sourcePattern) =
        .ok [⟨false, ["c"]⟩, ⟨false, ["a"]⟩, ⟨false, ["b"]⟩] := by
    simp only [Files.findFiles, hread]
    show (Files.search threeFiles ⟨false, []⟩ [.pieces [.one]] >>= _) = _
    rw [hsearch]
    rfl
  have hca : Files.partsLe ["c"] ["a"] = false := by decide
  have hcb : Files.partsLe ["c"] ["b"] = false := by decide
  have hab : Files.partsLe ["a"] ["b"] = true := by decide
  rw [Files.glob, hfound]
  refine congrArg Except.ok ?_
  simp [List.mergeSort, hca, hcb, hab]

/-- The cancellation is seen before the third file; the second is on record with what stopped it. -/
theorem scanWith_threeFiles :
    ∃ r a b, scanWith .usual stopsAtSecond threeFiles ⟨false, []⟩ (some "?") (2 ≤ ·) = .ok r ∧
      r.cancelled = true ∧ r.details = [a, b] ∧ a.parsed = true ∧ b.parsed = false ∧
      b.fileName = "b" ∧ b.errorKind = "OSError" ∧ b.parseError = "gone" := by
  obtain ⟨-, r, hr, ⟨hno, -⟩ | ⟨k, hk, hyes, hno, hrecords, hcut⟩⟩ := scanWith_isolates .usual
    stopsAtSecond threeFiles ⟨false, []⟩ (some "?") (fun i => decide (2 ≤ i)) threeFiles_matching
  · exact absurd (hno 2 (by decide)) (by decide)
  · have htwo : 2 ≤ k := of_decide_eq_true hyes
    have hle : k ≤ 2 := Nat.le_of_not_lt fun h => absurd (hno 2 h) (by decide)
    obtain rfl : k = 2 := Nat.le_antisymm hle htwo
    obtain ⟨a, rest, ha, hrest, hdetails⟩ := List.forall₂_cons_left_iff.mp hrecords
    obtain ⟨b, rest', hb, hrest', rfl⟩ := List.forall₂_cons_left_iff.mp hrest
    obtain rfl := List.forall₂_nil_left_iff.mp hrest'
    refine ⟨r, a, b, hr, by rw [hcut], hdetails, ?_, ?_⟩
    · cases ha with
      | findings h =>
        obtain rfl := Except.ok.inj h
        rfl
      | mishap h => cases h
    · cases hb with
      | findings h => cases h
      | mishap h hp hname hlabel hmessage =>
        obtain rfl := Except.error.inj h
        exact ⟨hp, hname, hlabel, hmessage⟩

end Orchestration
