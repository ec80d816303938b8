import Orchestration.Proofs.Designer.Segment
import Orchestration.Proofs.Text.Utf16
import Orchestration.Scan

/-!
# Orchestration.Proofs.Analysis.File

What the analysis of a file tells when there is no model.

* `Refused` — what can be wrong with a file, its text or its document.
* `Stopped` — what stops the analysis without being told by it.
* `Source.model_cases` — a file has a model, is refused, or stops the analysis.
* `Analysis.ofFile_cases` — the findings name the cause of every refusal. There are none for a path
  that no file can have, a place that the system does not let itself be asked about, and a
  misencoded file.
-/

namespace Orchestration

open Designer (Document)
open Files (Denial Path Standing Store)

/-- What is wrong with a file. -/
inductive Refused (store : Store) (p : Path) : Problem → Prop
  | missing {found : Option Standing} : store.examine p = .ok found →
      (∀ x ∈ found, x.entry = .directory) → Refused store p (.fileMissing p.text)
  | unreadable {bytes : List UInt8} {d : Denial} :
      store.examine p = .ok (some ⟨.file bytes, some d⟩) →
      Refused store p (.fileUnreadable p.text (d.wording p.text))
  | noDeclaration {text : List Char} : Source.read store p = .ok text →
      ¬Designer.declarationMarker.toList <:+: text →
      Refused store p (.segment .noDeclaration Designer.sentinelMarker)
  | noSentinel {text before rest : List Char} : Source.read store p = .ok text →
      Text.splitBefore Designer.declarationMarker.toList text = some (before, rest) →
      ¬Designer.sentinelMarker.toList <:+: rest →
      Refused store p (.segment .noSentinel Designer.sentinelMarker)
  | malformed {text document : List Char} : Source.read store p = .ok text →
      Designer.segment Designer.declarationMarker.toList Designer.sentinelMarker.toList text =
        .ok document → Xml.parse document = none → Refused store p .malformed
  | unnamed {text : List Char} {root : Xml.Node} : Source.read store p = .ok text →
      Model.readRoot text p.name = .ok root →
      Designer.firstValue (Document.ofXml root).services "Name" = "" → Refused store p .unnamed

/-- What stops the reading of a file and is no failure: the system does not tell what stands at the
path, or the bytes announce UTF-16 and do not keep to it. -/
inductive Source.Stopped (store : Store) (p : Path) : Trouble → Prop
  | denied {d : Denial} : store.examine p = .error d → Stopped store p (.denied d.label)
  | undecodable {bytes : List UInt8} {fault : Text.Utf16.Fault} : store.bytes? p = some bytes →
      Text.Misencoded bytes → Text.decode bytes = .error fault →
      Stopped store p (.undecodable fault)

/-- What stops the analysis of a file. That no file can have the path is seen first. -/
inductive Analysis.Stopped (store : Store) (p : Path) : Trouble → Prop
  | zeroInPath : '\x00' ∈ p.text.toList → Stopped store p .zeroInPath
  | source {t : Trouble} : '\x00' ∉ p.text.toList → Source.Stopped store p t → Stopped store p t

variable {store : Store} {p : Path}

/-! ## From a file to a model -/

theorem Model.readRoot_refused {text : List Char} {f : Failure}
    (hread : Source.read store p = .ok text) (h : readRoot text p.name = .error f) :
    f.source = p.name ∧ Refused store p f.problem := by
  unfold readRoot at h
  cases hs : Designer.segment Designer.declarationMarker.toList Designer.sentinelMarker.toList text
    with
  | error fault =>
    rw [hs] at h
    obtain rfl := Except.error.inj h
    refine ⟨rfl, ?_⟩
    cases fault with
    | noDeclaration => exact .noDeclaration hread (Designer.segment_eq_noDeclaration_iff.mp hs)
    | noSentinel =>
      obtain ⟨before, rest, htext, hfirst, hrest⟩ := Designer.segment_eq_noSentinel_iff.mp hs
      exact .noSentinel hread (Text.splitBefore_eq_some_iff.mpr ⟨htext, hfirst⟩) hrest
  | ok document =>
    rw [hs] at h
    cases hx : Xml.parse document with
    | none =>
      simp only [hx] at h
      obtain rfl := Except.error.inj h
      exact ⟨rfl, .malformed hread hs hx⟩
    | some root =>
      simp only [hx] at h
      cases h

namespace Source

theorem Stopped.read {t : Trouble} (h : Stopped store p t) : read store p = .error t := by
  cases h with
  | denied hd => simp only [Source.read, hd]
  | undecodable hbytes _ hdecode =>
    simp only [Source.read, Store.bytes?_eq_some_iff.mp hbytes, hdecode]

theorem Stopped.model {t : Trouble} (h : Stopped store p t) : model store p = .error t := by
  rw [Source.model, h.read]

theorem read_cases (store : Store) (p : Path) :
    (∃ text, read store p = .ok text) ∨
      (∃ problem, read store p = .error (.failure ⟨problem, p.name⟩) ∧ Refused store p problem) ∨
      ∃ t, Stopped store p t := by
  cases hx : store.examine p with
  | error d => exact .inr (.inr ⟨_, .denied hx⟩)
  | ok found =>
    match found with
    | none => exact .inr (.inl ⟨_, by simp only [read, hx], .missing hx nofun⟩)
    | some ⟨.directory, guard⟩ =>
      refine .inr (.inl ⟨_, by simp only [read, hx], .missing hx ?_⟩)
      rintro _ ⟨⟩
      rfl
    | some ⟨.file bytes, some d⟩ =>
      exact .inr (.inl ⟨_, by simp only [read, hx], .unreadable hx⟩)
    | some ⟨.file bytes, none⟩ =>
      cases hdecode : Text.decode bytes with
      | ok text => exact .inl ⟨text, by simp only [read, hx, hdecode]⟩
      | error fault =>
        have hbytes : store.bytes? p = some bytes := Store.bytes?_eq_some_iff.mpr hx
        have hm : Text.Misencoded bytes := Text.misencoded_iff.mpr ⟨fault, hdecode⟩
        exact .inr (.inr ⟨_, .undecodable hbytes hm hdecode⟩)

theorem model_cases (store : Store) (p : Path) :
    (∃ m, model store p = .ok m) ∨
      (∃ problem, model store p = .error (.failure ⟨problem, p.name⟩) ∧ Refused store p problem) ∨
      ∃ t, Stopped store p t := by
  rcases read_cases store p with ⟨text, hread⟩ | ⟨problem, hread, hrefused⟩ | ⟨t, ht⟩
  · simp only [model, hread, Model.assembleText]
    cases hroot : Model.readRoot text p.name with
    | error f =>
      obtain ⟨hsource, hrefused⟩ := Model.readRoot_refused hread hroot
      exact .inr (.inl ⟨f.problem, by rw [← hsource]; rfl, hrefused⟩)
    | ok root =>
      simp only [Model.assemble_result]
      split
      · next hname => exact .inr (.inl ⟨.unnamed, rfl, .unnamed hread hroot hname⟩)
      · exact .inl ⟨Model.ofDocument (Document.ofXml root) p.name, rfl⟩
  · exact .inr (.inl ⟨problem, by rw [model, hread], hrefused⟩)
  · exact .inr (.inr ⟨t, ht⟩)

/-- A file that gives its bytes stops the reading exactly when they are misencoded. -/
theorem stopped_iff_of_bytes {bytes : List UInt8} (hbytes : store.bytes? p = some bytes) :
    (∃ t, Stopped store p t) ↔ Text.Misencoded bytes := by
  have hx := Store.bytes?_eq_some_iff.mp hbytes
  constructor
  · rintro ⟨t, ht⟩
    cases ht with
    | denied hd =>
      rw [hx] at hd
      cases hd
    | undecodable hbytes' hm _ =>
      obtain rfl := Option.some.inj (hbytes.symm.trans hbytes')
      exact hm
  · intro hm
    obtain ⟨fault, hdecode⟩ := Text.misencoded_iff.mp hm
    exact ⟨_, .undecodable hbytes hm hdecode⟩

end Source

/-! ## Findings -/

/-- Every refusal has a wording. -/
theorem Refused.message_ne_empty {problem : Problem} (h : Refused store p problem)
    (source : String) : (⟨problem, source⟩ : Failure).message ≠ "" := by
  cases h with
  | missing | unreadable | noDeclaration | noSentinel | malformed | unnamed =>
    simp [Failure.message, Failure.wording, toString]

namespace Analysis

/-- What the findings tell: there is a model, or what is wrong is named by its wording and its
class. -/
def Tells (store : Store) (p : Path) (a : Analysis) : Prop :=
  a.parsed = true ∨ a.parsed = false ∧ ∃ problem, Refused store p problem ∧
    a.parseError = (⟨problem, p.name⟩ : Failure).message ∧ a.parseError ≠ "" ∧
    a.errorKind = problem.kind.label

theorem Stopped.ofFile {t : Trouble} (h : Stopped store p t) (s : Settings) :
    ofFile s store p = .error t := by
  cases h with
  | zeroInPath hzero => simp [Analysis.ofFile, hzero]
  | source hzero ht =>
    have hmodel := ht.model
    cases ht with
    | denied | undecodable => simp [Analysis.ofFile, hzero, hmodel]

theorem ofFile_tells (s : Settings) (h : ∀ t, ¬Stopped store p t) :
    ∃ a, ofFile s store p = .ok a ∧ Tells store p a := by
  have hzero : '\x00' ∉ p.text.toList := fun hzero => h _ (.zeroInPath hzero)
  have hno : p.text.toList.contains '\x00' = false := by simpa using hzero
  simp only [ofFile, hno, Bool.false_eq_true, if_false]
  rcases Source.model_cases store p with ⟨m, hm⟩ | ⟨problem, hm, hrefused⟩ | ⟨t, ht⟩
  · rw [hm]
    exact ⟨_, rfl, .inl rfl⟩
  · rw [hm]
    exact ⟨_, rfl, .inr ⟨rfl, problem, hrefused, rfl, hrefused.message_ne_empty p.name, rfl⟩⟩
  · exact absurd (.source hzero ht) (h t)

/-- The analysis of a file is stopped by a path that no file can have, by a place that the system
does not let itself be asked about, and by bytes that announce UTF-16 without keeping to it. So of
the files that give their bytes only the misencoded ones are left out. In every other case there are
findings, and they tell that there is a model, or what is wrong. -/
theorem ofFile_cases (s : Settings) (store : Store) (p : Path) :
    (∀ t, ofFile s store p = .error t ↔ Stopped store p t) ∧
      ((∀ t, ¬Stopped store p t) → ∃ a, ofFile s store p = .ok a ∧ Tells store p a) ∧
      ∀ bytes, store.bytes? p = some bytes → '\x00' ∉ p.text.toList →
        ((∃ t, Stopped store p t) ↔ Text.Misencoded bytes) := by
  refine ⟨fun t => ⟨fun herror => ?_, fun ht => ht.ofFile s⟩, ofFile_tells s,
    fun bytes hbytes hzero => ?_⟩
  · by_cases hstopped : ∃ t', Stopped store p t'
    · obtain ⟨t', ht'⟩ := hstopped
      obtain rfl := Except.error.inj (herror.symm.trans (ht'.ofFile s))
      exact ht'
    · obtain ⟨a, ha, -⟩ := ofFile_tells s (not_exists.mp hstopped)
      rw [herror] at ha
      cases ha
  · rw [← Source.stopped_iff_of_bytes hbytes]
    constructor
    · rintro ⟨t, hbad | ⟨-, ht⟩⟩
      · exact absurd hbad hzero
      · exact ⟨t, ht⟩
    · exact fun ⟨t, ht⟩ => ⟨t, .source hzero ht⟩

/-- A file with the mark of UTF-16 and half a code unit has no findings. -/
theorem ofFile_halfUnit :
    ofFile .usual ⟨[], [(["orders.odx"], .file [0xFF, 0xFE, 0x41])]⟩
        ⟨false, ["orders.odx"]⟩ =
      .error (.undecodable ⟨.little, 2, .oddByte 0x41⟩) := by
  rfl

-- a name that no directory can hold
example : Source.read ⟨[], []⟩ ⟨false, [Text.fill 300 'a']⟩ = .error (.denied "OSError") := by
  decide +kernel

-- a file that there is no right to read
example : Source.read ⟨[], [(["a.odx"], ⟨.file [], some .forbidden⟩)]⟩ ⟨false, ["a.odx"]⟩ =
    .error (.failure
      ⟨.fileUnreadable "a.odx" "[Errno 13] Permission denied: 'a.odx'", "a.odx"⟩) := by
  decide +kernel

end Analysis

end Orchestration
