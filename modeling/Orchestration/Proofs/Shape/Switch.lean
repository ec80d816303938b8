import Mathlib.Algebra.BigOperators.Group.List.Basic
import Mathlib.Algebra.GroupWithZero.Nat
import Orchestration.Proofs.Shape.Reading

/-!
# Orchestration.Proofs.Shape.Switch

How the containers of a switch are put into its slots.

* `DefaultCase`, `caseKeys` — a container without a value, or named as the default; the values of
  the others.
* `gathered`, `casesOf` — the shapes of the containers of one sort, and of those with each value.
* `Tree.read_switch` — the cases of a switch are the values of the other containers; no shape of
  any container is lost, doubled or moved past another of the same container.
-/

namespace Orchestration.Shape

open Designer (Element)

/-! ## Containers -/

/-- A container without a value, or with a name that speaks of the default. -/
def DefaultCase (c : Element) : Prop :=
  Text.blank (expressionOf c) = true ∨
    ∃ marker ∈ ["default", "else"], marker.toList <:+: (Text.lower (c.prop "Name")).toList

instance (c : Element) : Decidable (DefaultCase c) :=
  inferInstanceAs (Decidable (_ ∨ ∃ marker ∈ ["default", "else"],
    marker.toList <:+: (Text.lower (c.prop "Name")).toList))

theorem caseKey?_eq (c : Element) :
    caseKey? c = if DefaultCase c then none else some (expressionOf c) := by
  have hdefault : (Text.blank (expressionOf c) ||
      Text.holds "default" (Text.lower (c.prop "Name")) ||
      Text.holds "else" (Text.lower (c.prop "Name"))) = true ↔ DefaultCase c := by
    simp only [Bool.or_eq_true, Text.holds_iff, DefaultCase, List.mem_cons, List.not_mem_nil,
      or_false, exists_eq_or_imp, exists_eq_left, or_assoc]
  simp only [caseKey?, hdefault]

theorem caseSlot_eq (number : Nat) (c : Element) : Outline.caseSlot number c =
    if DefaultCase c then .otherwise else .case number (expressionOf c) := by
  rw [Outline.caseSlot, caseKey?_eq]
  by_cases hc : DefaultCase c
  · rw [if_pos hc, if_pos hc]
  · rw [if_neg hc, if_neg hc]

/-- The values of the containers that are no defaults, each where it first appears. -/
def caseKeys (cs : List Element) : List String :=
  ((cs.filter fun c => ¬DefaultCase c).map expressionOf).eraseDups

theorem not_blank_of_mem_caseKeys {cs : List Element} {key : String} (h : key ∈ caseKeys cs) :
    Text.blank key = false := by
  obtain ⟨c, hc, rfl⟩ := List.mem_map.mp (List.mem_eraseDups.mp h)
  have hnot : ¬DefaultCase c := by simpa using (List.mem_filter.mp hc).2
  exact Bool.eq_false_iff.mpr fun hblank => hnot (.inl hblank)

/-! ## Containers with their shapes -/

/-- The shapes of the containers of one sort, one container after the other. -/
def gathered (f : Element → Prop) [DecidablePred f] (parts : List (Element × List Handle)) :
    List Handle :=
  (parts.filter fun p => f p.1).flatMap Prod.snd

section

variable {f : Element → Prop} [DecidablePred f]

theorem gathered_cons_of_pos {p : Element × List Handle} {parts : List (Element × List Handle)}
    (h : f p.1) : gathered f (p :: parts) = p.2 ++ gathered f parts := by
  rw [gathered, List.filter_cons_of_pos (by simpa using h), List.flatMap_cons, gathered]

theorem gathered_cons_of_neg {p : Element × List Handle} {parts : List (Element × List Handle)}
    (h : ¬f p.1) : gathered f (p :: parts) = gathered f parts := by
  rw [gathered, List.filter_cons_of_neg (by simpa using h), gathered]

/-- A container keeps the order of its shapes. -/
theorem sublist_gathered {p : Element × List Handle} {parts : List (Element × List Handle)}
    (hp : p ∈ parts) (h : f p.1) : p.2.Sublist (gathered f parts) := by
  have hmem : p ∈ parts.filter fun p => f p.1 := List.mem_filter.mpr ⟨hp, by simpa using h⟩
  obtain ⟨before, after, he⟩ := List.append_of_mem hmem
  rw [gathered, he, List.flatMap_append, List.flatMap_cons]
  exact (List.sublist_append_left ..).trans (List.sublist_append_right ..)

end

/-- The cases of a switch: under each key the shapes of the containers with this value. -/
def casesOf (parts : List (Element × List Handle)) : List (String × List Handle) :=
  (caseKeys (parts.map Prod.fst)).map fun key =>
    (key, gathered (fun c => ¬DefaultCase c ∧ expressionOf c = key) parts)

theorem grouped_eq_casesOf (parts : List (Element × List Handle)) :
    grouped ((parts.filter fun p => ¬DefaultCase p.1).map fun p => (expressionOf p.1, p.2)) =
      casesOf parts := by
  rw [grouped, casesOf, caseKeys, List.filter_map, List.map_map, List.map_map]
  refine List.map_congr_left fun key _ => ?_
  rw [gathered, List.filter_map, List.flatMap_map, List.filter_filter]
  simp [Bool.and_comm, beq_eq_decide]

namespace Tree

variable {t : Tree} {owner : Handle}

/-- The containers of a switch with the handles of their shapes. -/
theorem exists_parts {cs : List Element} {number : Nat} {rs : List (Slot × List Handle)}
    (h : List.Forall₂ (t.Region owner)
      (Outline.cases number (cs.map fun c => (c, Outline.ofElements c.children))) rs) :
    ∃ parts : List (Element × List Handle), parts.map Prod.fst = cs ∧
      parts.map Prod.snd = rs.map Prod.snd ∧ (∀ p ∈ parts, t.Renders owner p.1.children p.2) ∧
      keyed rs = (parts.filter fun p => ¬DefaultCase p.1).map (fun p => (expressionOf p.1, p.2)) ∧
      inSlot .otherwise rs = gathered DefaultCase parts := by
  induction cs generalizing number rs with
  | nil =>
    cases h
    exact ⟨[], rfl, rfl, by simp, rfl, rfl⟩
  | cons c cs ih =>
    rw [List.map_cons, Outline.cases] at h
    cases h with
    | @cons _ r _ rs hfirst hrest =>
      obtain ⟨parts, hcs, hrs, hrenders, hkeyed, hdefault⟩ := ih hrest
      obtain ⟨slot, hs⟩ := r
      obtain rfl : slot = Outline.caseSlot number c := hfirst.slot
      refine ⟨(c, hs) :: parts, by simp [hcs], by simp [hrs],
        List.forall_mem_cons.mpr ⟨renders_of_lodges hfirst.lodges, hrenders⟩, ?_⟩
      rw [caseSlot_eq]
      -- the container goes either to the default or to the cases, the other side is as before
      by_cases hc : DefaultCase c
      · rw [if_pos hc, gathered_cons_of_pos hc, ← hdefault]
        refine ⟨?_, by simp [inSlot]⟩
        rw [List.filter_cons_of_neg (by simpa using hc), ← hkeyed]
        simp [keyed]
      · rw [if_neg hc, gathered_cons_of_neg hc, ← hdefault]
        refine ⟨?_, by simp [inSlot]⟩
        rw [List.filter_cons_of_pos (by simpa using hc), List.map_cons, ← hkeyed]
        simp [keyed]

theorem Furnished.switched {h : Handle} {e : Element} {s : Sketch} {n : Node}
    {rs : List (Slot × List Handle)} {regions : List (Slot × List Outline)}
    (hf : t.Furnished h ⟨s, regions, []⟩ n rs) (hs : Form.switch.sketch? e = some s) :
    n.payload = .switch (expressionOf e) (grouped (keyed rs)) (inSlot .otherwise rs) := by
  obtain ⟨uses, hp⟩ := hf.payload
  have hbare : s.payload = .switch (expressionOf e) (grouped []) [] :=
    Form.payload_of_sketch? hs
  dsimp only at hp
  rw [hp, hbare, Payload.furnish_switch, Payload.bindAll_of_not_receive uses (by simp),
    List.nil_append, List.nil_append]

/-- The slot of a container. -/
theorem exists_slot {parts : List (Element × List Handle)} {p : Element × List Handle}
    (hp : p ∈ parts) (subject : String) :
    ∃ slot ∈ (Payload.switch subject (casesOf parts) (gathered DefaultCase parts)).slots,
      p.2.Sublist slot.2 := by
  rw [Payload.slots]
  by_cases hc : DefaultCase p.1
  · have hsublist : p.2.Sublist (gathered DefaultCase parts) := sublist_gathered hp hc
    exact ⟨_, List.mem_append_right _ (List.mem_singleton_self _), hsublist⟩
  · have hkey : expressionOf p.1 ∈ caseKeys (parts.map Prod.fst) := by
      rw [caseKeys, List.mem_eraseDups]
      refine List.mem_map_of_mem (List.mem_filter.mpr ⟨List.mem_map_of_mem hp, ?_⟩)
      simpa using hc
    have hsublist : p.2.Sublist
        (gathered (fun c => ¬DefaultCase c ∧ expressionOf c = expressionOf p.1) parts) :=
      sublist_gathered hp ⟨hc, rfl⟩
    exact ⟨_, List.mem_append_left _ (List.mem_map_of_mem (List.mem_map_of_mem hkey)), hsublist⟩

/-- A switch puts each of its containers into one slot: under its value, or under the default when
it has none or is named so. -/
theorem read_switch (t : Tree) (c : Context) {parent : Option Handle} (es : List Element)
    (roots : List Handle) (hparent : ∀ p, parent = some p → p < t.size) {i : Nat} {e : Element}
    (h : Outline.Reached es i e) (he : Text.lower e.type = "switch") :
    ∃ n parts, (t.read c parent es roots).node? (t.size + i) = some n ∧
      parts.map Prod.fst = e.select decisionTypes ∧
      (∀ p ∈ parts, (t.read c parent es roots).Renders (t.size + i) p.1.children p.2) ∧
      n.payload = .switch (expressionOf e) (casesOf parts) (gathered DefaultCase parts) ∧
      (caseKeys (e.select decisionTypes)).Nodup ∧
      (∀ key ∈ caseKeys (e.select decisionTypes), Text.blank key = false) ∧
      n.payload.handles.Nodup ∧ n.payload.handles.Perm (parts.flatMap Prod.snd) ∧
      (∀ p ∈ parts, ∃ slot ∈ n.payload.slots, p.2.Sublist slot.2) ∧
      (n.payload.slots.map fun slot => slot.2.length).sum =
        (parts.map fun p => p.2.length).sum := by
  have hform : Form.ofType e.type = .switch :=
    Form.ofType_of_mem_table (by rw [he]; decide)
  obtain ⟨n, s, rs, hs, hproper, hf⟩ := t.read_reached c es roots hparent h hform
  have hnodup := hf.handles_nodup hproper
  have hperm := hf.handles_perm hproper
  obtain ⟨parts, hcs, hrs, hrenders, hkeyed, hdefault⟩ := exists_parts hf.regions
  have hp := hf.switched hs
  rw [hkeyed, hdefault, grouped_eq_casesOf] at hp
  rw [List.flatMap_def, ← hrs, ← List.flatMap_def] at hperm
  refine ⟨n, parts, hf.node, hcs, hrenders, hp, nodup_eraseDups _,
    fun _ => not_blank_of_mem_caseKeys, hnodup, hperm, fun p hmem => ?_, ?_⟩
  · rw [hp]
    exact exists_slot hmem _
  · have hlength := hperm.length_eq
    rwa [Payload.handles, List.length_flatMap, List.length_flatMap] at hlength

/-- A container with a name and a value around one shape. -/
def container (name value type : String) : Element :=
  ⟨some "DecisionBranch", none, [⟨some "Name", some name⟩, ⟨some "Expression", some value⟩],
    [untold type []]⟩

/-- Two containers of one value, with a default and another value between them, then a container
without a value. -/
def interleaved : Element :=
  untold "Switch" [container "" "1" "Delay", container "Or Else" "1" "Send",
    container "" "2" "Receive", container "" "1" "Send", container "" " " "Delay"]

theorem read_switch_interleaved :
    (∀ p, (none : Option Handle) = some p → p < empty.size) ∧
      Outline.Reached [interleaved] 0 interleaved ∧ Text.lower interleaved.type = "switch" ∧
      ∃ parts, parts.map Prod.fst = interleaved.select decisionTypes ∧
        casesOf parts = [("1", [1, 4]), ("2", [3])] ∧ gathered DefaultCase parts = [2, 5] ∧
        parts.flatMap Prod.snd ⊆ [1, 4, 3, 2, 5] := by
  have hreached : Outline.Reached [interleaved] 0 interleaved := ⟨_, rfl, rfl⟩
  have htype : Text.lower interleaved.type = "switch" := by decide
  obtain ⟨n, parts, hn, hcs, -, hp, -, -, -, hperm, -⟩ :=
    read_switch empty ⟨"body", 0⟩ [interleaved] [] (lt_of_no_parent _) hreached htype
  have hnode : ((empty.read ⟨"body", 0⟩ none [interleaved] []).node? 0).map Node.payload =
      some (.switch "" [("1", [1, 4]), ("2", [3])] [2, 5]) := by
    decide +kernel
  have hn' : (empty.read ⟨"body", 0⟩ none [interleaved] []).node? 0 = some n := hn
  rw [hn', Option.map_some] at hnode
  have hpayload := Option.some.inj hnode
  obtain ⟨-, hcases, hdefault⟩ := Payload.switch.inj (hp.symm.trans hpayload)
  refine ⟨lt_of_no_parent _, hreached, htype, parts, hcs, hcases, hdefault, ?_⟩
  have hsubset := hperm.symm.subset
  rw [hpayload] at hsubset
  exact hsubset

end Tree

end Orchestration.Shape
