import Orchestration.Command.Outcome
import Orchestration.Proofs.Settings.Override

/-!
# Orchestration.Proofs.Settings.Answer

How a settings file is answered, whatever value it holds.

* `Hollow` — the values that are taken for nothing although they are something.
* `Accepted`, `OddKey`, `LongFirst` — the values that give settings, those with a key that is no
  text, and those in which a number that cannot be shown is what is wrong first.
* `Answered` — how a value is answered: by settings, by a failure that says what is wrong, or in one
  of two ways that no part of the program is prepared for.
* `override_answered` — every value is answered so.
* `load_answered` — so is every file, and the program prints the failure or dies.
-/

namespace Orchestration

open Files (Path Store)
open Text (Wide)
open Yaml (Value)

namespace Settings

/-! ## Values -/

/-- The values other than mappings that are taken for nothing. -/
inductive Hollow : Value → Prop where
  | no : Hollow (.bool false)
  | zero : Hollow (.int 0)
  | real {x : Binary64} : x.isZero = true → Hollow (.real x)
  | noBytes : Hollow (.bytes [])
  | noText : Hollow (.str "")
  | noItems : Hollow (.list [])
  | noPairs : Hollow (.pairs [])
  | noMembers : Hollow (.set [])

theorem isNothing_iff {v : Value} :
    v.isNothing = true ↔ v = .null ∨ v = .mapping [] ∨ Hollow v := by
  constructor
  · intro h
    cases v with
    | null => exact .inl rfl
    | bool b =>
      cases b with
      | false => exact .inr (.inr .no)
      | true => cases h
    | int n =>
      obtain rfl := beq_iff_eq.mp h
      exact .inr (.inr .zero)
    | real x => exact .inr (.inr (.real h))
    | date shown => cases h
    | bytes data =>
      obtain rfl := List.isEmpty_iff.mp h
      exact .inr (.inr .noBytes)
    | str s =>
      obtain rfl := beq_iff_eq.mp h
      exact .inr (.inr .noText)
    | list items =>
      obtain rfl := List.isEmpty_iff.mp h
      exact .inr (.inr .noItems)
    | pairs entries =>
      obtain rfl := List.isEmpty_iff.mp h
      exact .inr (.inr .noPairs)
    | set members =>
      obtain rfl := List.isEmpty_iff.mp h
      exact .inr (.inr .noMembers)
    | mapping entries =>
      obtain rfl := List.isEmpty_iff.mp h
      exact .inr (.inl rfl)
  · rintro (rfl | rfl | h)
    · rfl
    · rfl
    · cases h with
      | real hx => exact hx
      | _ => rfl

theorem ne_mapping_of_hollow {v : Value} (h : v = .null ∨ Hollow v) (pairs : List (Value × Value)) :
    v ≠ .mapping pairs := by
  rintro rfl
  rcases h with hnull | hhollow
  · cases hnull
  · cases hhollow

/-- A mapping of acceptable entries. -/
def Accepted (v : Value) : Prop :=
  ∃ entries, v = .mapping (keyed entries) ∧ ∀ e ∈ entries, Acceptable e

/-- A mapping with a key that is no text. -/
def OddKey (v : Value) : Prop :=
  ∃ entries, v = .mapping entries ∧ ∃ e ∈ entries, keyText? e.1 = none

/-- A mapping with keys that are all known, in which a key that cannot be shown is wrong first. -/
def LongFirst (v : Value) : Prop :=
  ∃ entries, v = .mapping (keyed entries) ∧ (∀ e ∈ entries, e.1 ∈ overridable) ∧
    FirstBad Acceptable LongEntry entries

/-- A mapping has a key that is no text, or all its keys are texts. -/
theorem oddKey_or_keyed (pairs : List (Value × Value)) :
    OddKey (.mapping pairs) ∨ ∃ entries, pairs = keyed entries := by
  induction pairs with
  | nil => exact .inr ⟨[], rfl⟩
  | cons e rest ih =>
    cases hkey : keyText? e.1 with
    | none => exact .inl ⟨_, rfl, e, List.mem_cons_self, hkey⟩
    | some key =>
      rcases ih with ⟨entries, hrest, x, hx, hodd⟩ | ⟨entries, rfl⟩
      · obtain rfl := Value.mapping.inj hrest
        exact .inl ⟨_, rfl, x, List.mem_cons_of_mem _ hx, hodd⟩
      · have he : e = (.str key, e.2) := Prod.ext (keyText?_eq_some_iff.mp hkey) rfl
        exact .inr ⟨(key, e.2) :: entries, by rw [he]; rfl⟩

theorem not_oddKey_keyed {entries : List (Wide × Value)} :
    ¬ OddKey (.mapping (keyed entries)) := by
  rintro ⟨pairs, hpairs, e, he, hodd⟩
  obtain rfl := Value.mapping.inj hpairs
  obtain ⟨x, -, rfl⟩ := List.mem_map.mp he
  cases hodd

theorem keyed_injective {entries entries' : List (Wide × Value)}
    (h : keyed entries = keyed entries') : entries = entries' := by
  refine List.map_injective_iff.mpr (fun e e' h => ?_) h
  obtain ⟨hkey, hv⟩ := Prod.mk.inj h
  exact Prod.ext (Value.str.inj hkey) hv

/-! ## Answers -/

/-- How a value in the file at a path is answered. -/
structure Answered (path : String) (v : Value) (answer : Except Trouble Settings) : Prop where
  accepted : (∃ s, answer = .ok s) ↔ v = .null ∨ Accepted v ∨ Hollow v
  /-- A value that is taken for nothing changes nothing. -/
  usual : v = .null ∨ Hollow v → answer = .ok .usual
  noMapping : v ≠ .null → ¬ Hollow v → (∀ pairs, v ≠ .mapping pairs) →
    answer = .error (.failure ⟨.settings .noMapping, path⟩)
  keyNoText : answer = .error .keyNoText ↔ OddKey v
  outOfRange : answer = .error (.settings .outOfRange) ↔ LongFirst v
  refused : ¬ (v = .null ∨ Accepted v ∨ Hollow v) → ¬ OddKey v → ¬ LongFirst v →
    ∃ problem, answer = .error (.failure ⟨.settings problem, path⟩)

variable {path : String} {v : Value}

theorem answered_of_hollow (h : v = .null ∨ Hollow v) : Answered path v (override path v) := by
  have hnothing : v.isNothing = true := isNothing_iff.mpr (h.imp_right .inr)
  have hanswer : override path v = .ok .usual := if_pos hnothing
  have hmapping := ne_mapping_of_hollow h
  have haccepted : v = .null ∨ Accepted v ∨ Hollow v := h.imp_right .inr
  rw [hanswer]
  exact
    { accepted := iff_of_true ⟨_, rfl⟩ haccepted
      usual := fun _ => rfl
      noMapping := fun hnull hhollow => absurd h (not_or.mpr ⟨hnull, hhollow⟩)
      keyNoText := iff_of_false nofun fun ⟨pairs, hv, _⟩ => hmapping pairs hv
      outOfRange := iff_of_false nofun fun ⟨_, hv, _⟩ => hmapping _ hv
      refused := fun hnot => absurd haccepted hnot }

theorem answered_of_not_mapping (hnull : v ≠ .null) (hhollow : ¬ Hollow v)
    (hmapping : ∀ pairs, v ≠ .mapping pairs) : Answered path v (override path v) := by
  have hanswer : override path v = .error (.failure ⟨.settings .noMapping, path⟩) := by
    have hsome : ¬ v.isNothing = true := by
      rw [isNothing_iff]
      exact fun h => h.elim hnull fun h => h.elim (hmapping []) hhollow
    unfold override
    rw [if_neg hsome]
    split
    · next pairs => exact absurd rfl (hmapping pairs)
    · rfl
  rw [hanswer]
  exact
    { accepted := iff_of_false nofun fun h =>
        h.elim hnull fun h => h.elim (fun ⟨_, hv, _⟩ => hmapping _ hv) hhollow
      usual := fun h => absurd h (not_or.mpr ⟨hnull, hhollow⟩)
      noMapping := fun _ _ _ => rfl
      keyNoText := iff_of_false nofun fun ⟨pairs, hv, _⟩ => hmapping pairs hv
      outOfRange := iff_of_false nofun fun ⟨_, hv, _⟩ => hmapping _ hv
      refused := fun _ _ _ => ⟨_, rfl⟩ }

theorem mapM_eq_none_of_mem {α β : Type} {f : α → Option β} {l : List α} {a : α} (ha : a ∈ l)
    (h : f a = none) : l.mapM f = none := by
  induction l with
  | nil => cases ha
  | cons b rest ih =>
    rw [List.mapM_cons]
    rcases List.mem_cons.mp ha with rfl | ha
    · rw [h]
      rfl
    · cases hb : f b with
      | none => rfl
      | some x =>
        rw [ih ha]
        rfl

theorem override_oddKey (h : OddKey v) : override path v = .error .keyNoText := by
  obtain ⟨pairs, rfl, e, he, hodd⟩ := h
  have hsome : ¬ (Value.mapping pairs).isNothing = true := by
    rintro hempty
    rw [List.isEmpty_iff.mp hempty] at he
    cases he
  have hunknown : e.1 ∈ (pairs.map Prod.fst).filter fun k => !isOverridable k := by
    refine List.mem_filter.mpr ⟨List.mem_map_of_mem he, ?_⟩
    rw [isOverridable, hodd]
    rfl
  rw [override, if_neg hsome]
  simp only [mapM_eq_none_of_mem hunknown hodd]

theorem answered_of_oddKey (h : OddKey v) : Answered path v (override path v) := by
  have hkeyed : ∀ entries, v ≠ .mapping (keyed entries) := by
    rintro entries rfl
    exact not_oddKey_keyed h
  have hmapping := h
  obtain ⟨pairs, rfl, -⟩ := hmapping
  rw [override_oddKey h]
  refine
    { accepted := iff_of_false nofun ?_
      usual := fun hnothing => absurd rfl (ne_mapping_of_hollow hnothing pairs)
      noMapping := fun _ _ hmapping => absurd rfl (hmapping pairs)
      keyNoText := iff_of_true rfl h
      outOfRange := iff_of_false nofun fun ⟨entries, hv, _⟩ => hkeyed entries hv
      refused := fun _ hodd _ => absurd h hodd }
  rintro (hnull | ⟨entries, hv, -⟩ | hhollow)
  · cases hnull
  · exact hkeyed entries hv
  · cases hhollow

theorem answered_of_keyed (entries : List (Wide × Value)) :
    Answered path (.mapping (keyed entries)) (override path (.mapping (keyed entries))) := by
  have haccepted : Accepted (.mapping (keyed entries)) ↔ ∀ e ∈ entries, Acceptable e := by
    constructor
    · rintro ⟨entries', hv, ha⟩
      rwa [keyed_injective (Value.mapping.inj hv)]
    · exact fun ha => ⟨entries, rfl, ha⟩
  have hlong : LongFirst (.mapping (keyed entries)) ↔
      (∀ e ∈ entries, e.1 ∈ overridable) ∧ FirstBad Acceptable LongEntry entries := by
    constructor
    · rintro ⟨entries', hv, hfirst⟩
      rwa [keyed_injective (Value.mapping.inj hv)]
    · exact fun hfirst => ⟨entries, rfl, hfirst⟩
  refine
    { accepted := ?_
      usual := fun hnothing => absurd rfl (ne_mapping_of_hollow hnothing _)
      noMapping := fun _ _ hmapping => absurd rfl (hmapping _)
      keyNoText := iff_of_false (fun h => ?_) not_oddKey_keyed
      outOfRange := (override_tooLong_iff path).trans hlong.symm
      refused := fun hnot _ hfirst => ?_ }
  · rw [override_succeeds_iff, ← haccepted]
    constructor
    · exact fun ha => .inr (.inl ha)
    · rintro (hnull | ha | hhollow)
      · cases hnull
      · exact ha
      · cases hhollow
  · rcases override_error h with ⟨problem, hproblem⟩ | ⟨hrange, -⟩
    · cases hproblem
    · cases hrange
  · cases hanswer : override path (.mapping (keyed entries)) with
    | ok s =>
      have ha := (override_succeeds_iff path).mp ⟨s, hanswer⟩
      exact absurd (.inr (.inl (haccepted.mpr ha))) hnot
    | error e =>
      rcases override_error hanswer with ⟨problem, rfl⟩ | ⟨rfl, -⟩
      · exact ⟨problem, rfl⟩
      · exact absurd (hlong.mpr ((override_tooLong_iff path).mp hanswer)) hfirst

/-- Every value is answered in one of the ways. -/
theorem override_answered (path : String) (v : Value) : Answered path v (override path v) := by
  by_cases hnothing : v = .null ∨ Hollow v
  · exact answered_of_hollow hnothing
  · by_cases hmapping : ∃ pairs, v = .mapping pairs
    · obtain ⟨pairs, rfl⟩ := hmapping
      rcases oddKey_or_keyed pairs with hodd | ⟨entries, rfl⟩
      · exact answered_of_oddKey hodd
      · exact answered_of_keyed entries
    · rw [not_or] at hnothing
      exact answered_of_not_mapping hnothing.1 hnothing.2 fun pairs hv => hmapping ⟨pairs, hv⟩

end Settings

/-! ## Files -/

namespace Command

/-- The typed path of a command's settings. -/
def settings? : Command → Option String
  | .analyze _ settings _ => settings
  | .scan _ _ _ settings => settings
  | _ => none

/-- A command that is not stopped by its paths reads its settings before anything else. -/
theorem outcome_of_load_error {s : Store} {c : Command} {text : String} {t : Trouble}
    (hsettings : c.settings? = some text) (hpaths : c.needs.findSome? (hindrance? s) = none)
    (hload : Settings.load s (some (Path.ofText text)) = .error t) :
    c.outcome s = .ofTrouble s t := by
  unfold outcome
  rw [hpaths]
  cases c with
  | parse file output => cases hsettings
  | diagnose file => cases hsettings
  | analyze file settings structured =>
    obtain rfl : settings = some text := hsettings
    show analyzeOutcome s file (some text) structured = _
    rw [analyzeOutcome, Option.map_some, hload]
  | scan directory output pattern settings =>
    obtain rfl : settings = some text := hsettings
    show scanOutcome s directory output pattern (some text) = _
    rw [scanOutcome, Option.map_some, hload]

end Command

namespace Outcome

variable {s : Store} {f : Failure}

theorem ofTrouble_of_whole {message : String} (h : f.wording = .whole message) :
    ofTrouble s (.failure f) = ⟨["[ERROR] " ++ message], .finished, s⟩ := by
  simp [ofTrouble, h]

theorem ofTrouble_of_torn (h : f.wording.whole? = none) :
    ofTrouble s (.failure f) = ⟨[], .stopped .unprintable, s⟩ := by
  simp [ofTrouble, h]

end Outcome

namespace Settings

/-- Every file that holds a value is answered in one of the ways, and a command that reads its
settings there prints the failure or dies of what is none. It also dies of a failure that quotes a
half of a surrogate pair. -/
theorem load_answered {s : Store} {p : Path} {bytes : List UInt8} {v : Value}
    (hbytes : s.bytes? p = some bytes) (hread : Yaml.read depth (.ofBytes bytes) = .ok v) :
    Answered p.text v (load s (some p)) ∧
      ∀ (c : Command) (text : String), c.settings? = some text → Path.ofText text = p →
        c.needs.findSome? (Command.hindrance? s) = none →
          (∀ problem, load s (some p) = .error (.failure ⟨.settings problem, p.text⟩) →
            (∀ message, problem.wording p.text = .whole message →
              c.outcome s = ⟨["[ERROR] " ++ message], .finished, s⟩) ∧
            ((problem.wording p.text).whole? = none →
              c.outcome s = ⟨[], .stopped .unprintable, s⟩)) ∧
          (OddKey v → c.outcome s = ⟨[], .stopped .keyNoText, s⟩) ∧
          (LongFirst v → c.outcome s = ⟨[], .stopped (.settings .outOfRange), s⟩) := by
  have hload : load s (some p) = override p.text v := by
    unfold load
    simp only [hbytes]
    exact ofSupply_of_read hread p.text
  have hanswered : Answered p.text v (load s (some p)) := hload ▸ override_answered p.text v
  refine ⟨hanswered, fun c text hsettings hp hpaths => ?_⟩
  subst hp
  have houtcome := fun t => Command.outcome_of_load_error (t := t) hsettings hpaths
  refine ⟨fun problem hfailure => ⟨fun message hwhole => ?_, fun htorn => ?_⟩, fun hodd => ?_,
    fun hlong => ?_⟩
  · exact (houtcome _ hfailure).trans (Outcome.ofTrouble_of_whole hwhole)
  · exact (houtcome _ hfailure).trans (Outcome.ofTrouble_of_torn htorn)
  · exact houtcome _ (hanswered.keyNoText.mpr hodd)
  · exact houtcome _ (hanswered.outOfRange.mpr hlong)

/-- An orchestration file without a text, and settings. -/
def besides (settings : List UInt8) : Store :=
  ⟨["flows"], [(["flows", "orders.odx"], .file []), (["flows", "config.yaml"], .file settings)]⟩

def analyzeBesides : Command := .analyze "orders.odx" (some "config.yaml") false

def oneName : List UInt8 := Text.Utf8.encode "- a\n".toList

set_option maxRecDepth 100000 in
theorem read_oneName : Yaml.read depth (.ofBytes oneName) = .ok (.list [.str "a"]) := by
  have hnames : (Yaml.read depth (.ofBytes oneName)).toOption.bind names? =
      some [.whole "a"] := by decide +kernel
  obtain ⟨v, hread, hnames⟩ := exists_ok_of_bind hnames
  cases names?_eq_some_iff.mp hnames
  exact hread

theorem load_answered_oneName :
    let s := besides oneName
    s.bytes? (Path.ofText "config.yaml") = some oneName ∧
      Yaml.read depth (.ofBytes oneName) = .ok (.list [.str "a"]) ∧
      analyzeBesides.outcome s =
        ⟨["[ERROR] Config file config.yaml must contain a mapping"], .finished, s⟩ := by
  intro s
  have hbytes : s.bytes? (Path.ofText "config.yaml") = some oneName := by decide +kernel
  have hpaths : analyzeBesides.needs.findSome? (Command.hindrance? s) = none := by decide +kernel
  have hpath : (Path.ofText "config.yaml").text = "config.yaml" := by decide +kernel
  obtain ⟨hanswered, hcommand⟩ := load_answered hbytes read_oneName
  have hload := hanswered.noMapping nofun nofun nofun
  obtain ⟨hprinted, -, -⟩ := hcommand analyzeBesides "config.yaml" rfl rfl hpaths
  refine ⟨hbytes, read_oneName, ?_⟩
  rw [(hprinted .noMapping hload).1 _ rfl, hpath]
  refine congrArg (fun line => (⟨[line], .finished, s⟩ : Outcome)) ?_
  decide +kernel

def halfKey : List UInt8 := Text.Utf8.encode "\"\\uD83D\": x\n".toList

set_option maxRecDepth 100000 in
/-- An unknown key that is a half of a surrogate pair. -/
example : (analyzeBesides.outcome (besides halfKey)).ending = .stopped .unprintable := by
  decide +kernel

def numberKey : List UInt8 := Text.Utf8.encode "1: x\n".toList

def noItems : List UInt8 := Text.Utf8.encode "[]\n".toList

/-- What stops the reading of settings. -/
def trouble? : Except Trouble Settings → Option Trouble
  | .error t => some t
  | .ok _ => none

theorem eq_of_trouble? {answer : Except Trouble Settings} {t : Trouble}
    (h : trouble? answer = some t) : answer = .error t := by
  cases answer with
  | ok s => cases h
  | error e => exact congrArg Except.error (Option.some.inj h)

theorem exists_ok_of_trouble? {answer : Except Trouble Settings} (h : trouble? answer = none) :
    ∃ s, answer = .ok s := by
  cases answer with
  | ok s => exact ⟨s, rfl⟩
  | error e => cases h

set_option maxRecDepth 100000 in
/-- A number as a key is not told by a failure of the settings, and the program dies of it. A list
is not always refused. -/
theorem load_numberKey :
    let s := besides numberKey
    load s (some (Path.ofText "config.yaml")) = .error .keyNoText ∧
      Trouble.keyNoText.label ≠ FailureKind.settings.label ∧
      analyzeBesides.outcome s = ⟨[], .stopped .keyNoText, s⟩ ∧
      ∃ settings, load (besides noItems) (some (Path.ofText "config.yaml")) = .ok settings := by
  intro s
  have hload : load s (some (Path.ofText "config.yaml")) = .error .keyNoText :=
    eq_of_trouble? (by decide +kernel)
  have hsettings : analyzeBesides.settings? = some "config.yaml" := rfl
  have hpaths : analyzeBesides.needs.findSome? (Command.hindrance? s) = none := by decide +kernel
  have houtcome := Command.outcome_of_load_error hsettings hpaths hload
  exact ⟨hload, by decide, houtcome, exists_ok_of_trouble? (by decide +kernel)⟩

end Settings

end Orchestration
