import Orchestration.Proofs.Model.Assembly
import Orchestration.Source

/-!
# Orchestration.Proofs.Designer.Segment

What a source file means is told by its document alone.

* `Text.FirstAt` — where a pattern stands first in a text, told by every way to cut the text.
* `Designer.segment_eq_ok_iff`, `segment_eq_noDeclaration_iff`, `segment_eq_noSentinel_iff` — the
  three outcomes of cutting the document out, for any marker and sentinel.
* `Holds` — a text that holds a document, whatever stands around it.
* `segment_decides` — texts and files that hold one document have one model or one failure.
-/

namespace Orchestration

namespace Text

/-- A pattern stands at the end of `before`, and at no earlier place. -/
structure FirstAt (pattern before rest : List Char) : Prop where
  stands : pattern <+: rest
  shortest : ∀ before' rest', before' ++ rest' = before ++ rest → pattern <+: rest' →
    before.length ≤ before'.length

theorem FirstAt.unique {pattern p r p' r' : List Char} (h : FirstAt pattern p r)
    (h' : FirstAt pattern p' r') (hcut : p ++ r = p' ++ r') : p = p' ∧ r = r' := by
  have hle : p.length ≤ p'.length := h.shortest p' r' hcut.symm h'.stands
  have hge : p'.length ≤ p.length := h'.shortest p r hcut h.stands
  exact List.append_inj hcut (Nat.le_antisymm hle hge)

theorem firstAt_of_splitBefore {pattern s p r : List Char}
    (h : splitBefore pattern s = some (p, r)) : FirstAt pattern p r := by
  refine ⟨List.isPrefixOf_iff_prefix.mp (isPrefixOf_of_splitBefore h), ?_⟩
  fun_induction splitBefore pattern s generalizing p r with
  | case1 s _ =>
    obtain ⟨rfl, rfl⟩ : [] = p ∧ s = r := by simpa using h
    exact fun _ _ _ _ => Nat.zero_le _
  | case2 => simp at h
  | case3 c rest p' r' hrest hs ih =>
    obtain ⟨rfl, rfl⟩ : c :: p' = p ∧ r' = r := by simpa using h
    intro before after hcut hstands
    cases before with
    | nil =>
      -- the pattern would stand at the very start, which the search has ruled out
      have hafter : after = c :: rest := by simpa [append_of_splitBefore hrest] using hcut
      rw [hafter] at hstands
      exact absurd (List.isPrefixOf_iff_prefix.mpr hstands) hs
    | cons c' before =>
      obtain ⟨-, hcut⟩ := List.cons.inj hcut
      exact Nat.succ_le_succ (ih hrest before after hcut hstands)
  | case4 => simp at h

theorem splitBefore_eq_some_iff {pattern s p r : List Char} :
    splitBefore pattern s = some (p, r) ↔ s = p ++ r ∧ FirstAt pattern p r := by
  constructor
  · exact fun h => ⟨append_of_splitBefore h, firstAt_of_splitBefore h⟩
  · rintro ⟨rfl, h⟩
    cases hs : splitBefore pattern (p ++ r) with
    | none =>
      have hoccurs : pattern <:+: p ++ r := h.stands.isInfix.trans (List.suffix_append p r).isInfix
      exact absurd hoccurs (splitBefore_eq_none_iff.mp hs)
    | some cut =>
      obtain ⟨p', r'⟩ := cut
      obtain ⟨rfl, rfl⟩ := h.unique (firstAt_of_splitBefore hs) (append_of_splitBefore hs)
      rfl

/-- A pattern at the start of two joined texts lies in the first, or reaches over the join. -/
theorem prefix_append_cases {pattern m rest : List Char} (h : pattern <+: m ++ rest) :
    pattern <+: m ∨ ∃ n, n <+: rest ∧ pattern = m ++ n := by
  rcases List.prefix_or_prefix_of_prefix h (List.prefix_append m rest) with hm | ⟨n, rfl⟩
  · exact .inl hm
  · exact .inr ⟨n, (List.prefix_append_right_inj m).mp h, rfl⟩

/-- A pattern whose first character does not come back cannot begin before the place where it is
put: a copy over the join would hold the start of the pattern twice. -/
theorem firstAt_of_not_infix {c : Char} {tail p rest : List Char} (hc : c ∉ tail)
    (hp : ¬c :: tail <:+: p) (hrest : c :: tail <+: rest) : FirstAt (c :: tail) p rest := by
  refine ⟨hrest, fun p' rest' hcut hstands => Nat.le_of_not_lt fun hshort => ?_⟩
  obtain ⟨m, rfl, rfl⟩ : ∃ m, p = p' ++ m ∧ rest' = m ++ rest := by
    rcases List.append_eq_append_iff.mp hcut with ⟨m, rfl, rfl⟩ | ⟨m, rfl, -⟩
    · exact ⟨m, rfl, rfl⟩
    · simp only [List.length_append] at hshort
      omega
  have hm : ∀ pattern, pattern <:+: m → pattern <:+: p' ++ m :=
    fun _ h => h.trans (List.suffix_append p' m).isInfix
  rcases prefix_append_cases hstands with h | ⟨n, hn, hover⟩
  · exact hp (hm _ h.isInfix)
  · cases m with
    | nil => simp at hshort
    | cons c' m =>
      obtain ⟨rfl, rfl⟩ := List.cons.inj hover
      cases n with
      | nil => exact hp (hm _ (by simp))
      | cons d n =>
        obtain ⟨after, rfl⟩ := hrest
        obtain rfl : d = c := (List.cons_prefix_cons.mp hn).1
        simp at hc

end Text

namespace Designer

variable {marker sentinel text : List Char}

theorem segment_eq_ok_iff {document : List Char} :
    segment marker sentinel text = .ok document ↔ ∃ before after,
      text = before ++ document ++ after ∧ Text.FirstAt marker before (document ++ after) ∧
        Text.FirstAt sentinel document after := by
  constructor
  · intro h
    unfold segment at h
    split at h
    · cases h
    · next before rest hmarker =>
      split at h
      · cases h
      · next document' after hsentinel =>
        cases h
        obtain ⟨rfl, hfirst⟩ := Text.splitBefore_eq_some_iff.mp hmarker
        obtain ⟨rfl, hfirst'⟩ := Text.splitBefore_eq_some_iff.mp hsentinel
        exact ⟨before, after, by simp, hfirst, hfirst'⟩
  · rintro ⟨before, after, rfl, hmarker, hsentinel⟩
    simp only [segment, List.append_assoc, Text.splitBefore_eq_some_iff.mpr ⟨rfl, hmarker⟩,
      Text.splitBefore_eq_some_iff.mpr ⟨rfl, hsentinel⟩]

theorem segment_eq_noDeclaration_iff :
    segment marker sentinel text = .error .noDeclaration ↔ ¬marker <:+: text := by
  rw [← Text.splitBefore_eq_none_iff]
  unfold segment
  split
  · next h => simp [h]
  · next h =>
    split <;> simp [h]

theorem segment_eq_noSentinel_iff :
    segment marker sentinel text = .error .noSentinel ↔ ∃ before rest, text = before ++ rest ∧
      Text.FirstAt marker before rest ∧ ¬sentinel <:+: rest := by
  constructor
  · intro h
    unfold segment at h
    split at h
    · cases h
    · next before rest hmarker =>
      obtain ⟨htext, hfirst⟩ := Text.splitBefore_eq_some_iff.mp hmarker
      refine ⟨before, rest, htext, hfirst, ?_⟩
      split at h
      · next hsentinel => exact Text.splitBefore_eq_none_iff.mp hsentinel
      · cases h
  · rintro ⟨before, rest, rfl, hmarker, hsentinel⟩
    simp only [segment, Text.splitBefore_eq_some_iff.mpr ⟨rfl, hmarker⟩,
      Text.splitBefore_eq_none_iff.mpr hsentinel]

/-- A text that holds a document: nothing before the document declares one, and the first sentinel
is the one that ends it. -/
structure Holds (text document : List Char) : Prop where
  declared : declarationMarker.toList <+: document
  unended : ¬sentinelMarker.toList <:+: document
  surrounded : ∃ before after, ¬declarationMarker.toList <:+: before ∧
    text = before ++ document ++ sentinelMarker.toList ++ after

theorem Holds.segment {document : List Char} (h : Holds text document) :
    segment declarationMarker.toList sentinelMarker.toList text = .ok document := by
  obtain ⟨before, after, hbefore, rfl⟩ := h.surrounded
  have hrest : declarationMarker.toList <+: document ++ (sentinelMarker.toList ++ after) :=
    h.declared.trans (List.prefix_append _ _)
  refine segment_eq_ok_iff.mpr ⟨before, sentinelMarker.toList ++ after, by simp, ?_, ?_⟩
  · have hc : '<' ∉ ['?', 'x', 'm', 'l'] := by decide
    exact Text.firstAt_of_not_infix hc hbefore hrest
  · have hc : '#' ∉ ['e', 'n', 'd', 'i', 'f'] := by decide
    exact Text.firstAt_of_not_infix hc h.unended (List.prefix_append _ _)

end Designer

/-! ## Models -/

namespace Model

open Designer (Holds)

/-- What is made of a text depends on the document that it holds, and on the name of the source. -/
theorem assembleText_congr {text text' document : List Char} (h : Holds text document)
    (h' : Holds text' document) (refusals : Refusals) (source : String) :
    assembleText refusals text source = assembleText refusals text' source := by
  have hroot : readRoot text source = readRoot text' source := by
    rw [readRoot, readRoot, h.segment, h'.segment]
  rw [assembleText, assembleText, hroot]

end Model

namespace Source

open Designer (Holds)

/-- A result as a file of the given name has it: a model and a failure tell where they come from,
and are the same otherwise. -/
def retold (name : String) : Except Trouble Model → Except Trouble Model
  | .ok m => .ok { m with source := name }
  | .error (.failure f) => .error (.failure { f with source := name })
  | .error t => .error t

theorem retold_assembleText (text : List Char) (source name : String) :
    Trouble.ofExcept (Model.assembleText Model.noRefusals text name).result =
      retold name (Trouble.ofExcept (Model.assembleText Model.noRefusals text source).result) := by
  simp only [Model.assembleText, Model.readRoot]
  cases hs : Designer.segment Designer.declarationMarker.toList Designer.sentinelMarker.toList text
    with
  | error fault => rfl
  | ok document =>
    cases hx : Xml.parse document with
    | none => simp only [hx]; rfl
    | some root =>
      simp only [hx, Model.assemble_result]
      split
      · rfl
      · simp only [Trouble.ofExcept, retold, Model.ofDocument]

theorem model_of_holds {store : Files.Store} {p : Files.Path} {text document : List Char}
    (hread : read store p = .ok text) (h : Holds text document) :
    model store p = retold p.name (Trouble.ofExcept (Model.assembleText Model.noRefusals
      (document ++ Designer.sentinelMarker.toList) "").result) := by
  have halone : Holds (document ++ Designer.sentinelMarker.toList) document :=
    ⟨h.declared, h.unended, [], [], by decide, by simp⟩
  simp only [model, hread, ← retold_assembleText, Model.assembleText_congr h halone]

end Source

namespace Designer

/-- Only the document of a source file counts. It is cut out whatever surrounds it, so texts that
hold one document have one model, and so have files, up to the name they tell. In general the
document stands between the shortest beginning after which the marker stands and the shortest
continuation after which the sentinel stands; a text without such a cut lacks the marker, or has it
and lacks the sentinel. -/
theorem segment_decides :
    (∀ text document, Holds text document →
      segment declarationMarker.toList sentinelMarker.toList text = .ok document) ∧
    (∀ text text' document, Holds text document → Holds text' document → ∀ refusals source,
      Model.assembleText refusals text source = Model.assembleText refusals text' source) ∧
    (∀ document, ∃ result, ∀ store p text, Source.read store p = .ok text →
      Holds text document → Source.model store p = Source.retold p.name result) ∧
    ∀ marker sentinel text : List Char,
      (∀ document, segment marker sentinel text = .ok document ↔ ∃ before after,
        text = before ++ document ++ after ∧ Text.FirstAt marker before (document ++ after) ∧
          Text.FirstAt sentinel document after) ∧
      (segment marker sentinel text = .error .noDeclaration ↔ ¬marker <:+: text) ∧
      (segment marker sentinel text = .error .noSentinel ↔
        marker <:+: text ∧ ∀ document, segment marker sentinel text ≠ .ok document) := by
  refine ⟨fun _ _ h => h.segment, fun _ _ _ h h' => Model.assembleText_congr h h',
    fun document => ⟨_, fun _ _ _ hread h => Source.model_of_holds hread h⟩, ?_⟩
  intro marker sentinel text
  refine ⟨fun _ => segment_eq_ok_iff, segment_eq_noDeclaration_iff, ?_, ?_⟩
  · intro h
    obtain ⟨before, rest, rfl, hfirst, -⟩ := segment_eq_noSentinel_iff.mp h
    refine ⟨hfirst.stands.isInfix.trans (List.suffix_append before rest).isInfix, ?_⟩
    simp [h]
  · rintro ⟨hmarker, hnone⟩
    cases h : segment marker sentinel text with
    | ok document => exact absurd h (hnone document)
    | error fault =>
      cases fault with
      | noDeclaration => exact absurd hmarker (segment_eq_noDeclaration_iff.mp h)
      | noSentinel => rfl

/-- Half a marker before the document, half a sentinel at its end, and a sentinel after the one
that counts. -/
def overlapping : List Char := "<?xm<?xml?>#endi#endif#endif".toList

theorem overlapping_holds : Holds overlapping "<?xml?>#endi".toList :=
  ⟨by decide +kernel, by decide +kernel, "<?xm".toList, "#endif".toList, by decide +kernel,
    by decide +kernel⟩

/-- The same document with nothing before it. -/
def standalone : List Char := "<?xml?>#endi#endif//".toList

theorem standalone_holds : Holds standalone "<?xml?>#endi".toList :=
  ⟨by decide +kernel, by decide +kernel, [], "//".toList, by decide +kernel, by decide +kernel⟩

/-- A store with one text. -/
def storeOf (name : String) (text : List Char) : Files.Store :=
  ⟨[], [([name], .file (Text.Utf8.encode text))]⟩

theorem segment_overlapping :
    segment declarationMarker.toList sentinelMarker.toList overlapping =
        .ok "<?xml?>#endi".toList ∧
      (∀ refusals source, Model.assembleText refusals overlapping source =
        Model.assembleText refusals standalone source) ∧
      ∃ result,
        Source.model (storeOf "a.odx" overlapping) ⟨false, ["a.odx"]⟩ =
          Source.retold "a.odx" result ∧
        Source.model (storeOf "b.odx" standalone) ⟨false, ["b.odx"]⟩ =
          Source.retold "b.odx" result := by
  obtain ⟨hsegment, hassemble, hmodel, -⟩ := segment_decides
  obtain ⟨result, hresult⟩ := hmodel "<?xml?>#endi".toList
  refine ⟨hsegment _ _ overlapping_holds, hassemble _ _ _ overlapping_holds standalone_holds,
    result, hresult _ ⟨false, ["a.odx"]⟩ overlapping ?_ overlapping_holds,
    hresult _ ⟨false, ["b.odx"]⟩ standalone ?_ standalone_holds⟩
  · decide +kernel
  · decide +kernel

end Designer

end Orchestration
