import Orchestration.Proofs.Shape.Outline
import Orchestration.Proofs.Shape.Payload

/-!
# Orchestration.Proofs.Shape.Proper

What holds of every outline that an element describes.

* `Form.ofType_cases` — how a type is read, and what its lower-cased form is then.
* `Sketch.Fresh` — the content is of the sort that the kind asks for, and nothing is in it yet.
* `Outline.Proper` — every sketch is fresh, every region is one that its owner's content has, and
  shapes that hold slots have no children, at every depth.
* `Outline.ofElements_proper` — the outlines of elements are proper.
-/

namespace Orchestration.Shape

open Designer (Element)

/-- A sketch before its regions are filled. -/
structure Sketch.Fresh (s : Sketch) : Prop where
  suits : s.payload.suits s.kind = true
  bare : s.payload.bare = s.payload

theorem Sketch.Fresh.handles {s : Sketch} (hs : s.Fresh) : s.payload.handles = [] := by
  rw [← hs.bare, Payload.handles_bare]

namespace Outline

mutual

/-- An outline whose owners and regions fit, at every depth. -/
def Proper : Outline → Prop
  | ⟨s, regions, children⟩ =>
    s.Fresh ∧ (s.kind.holdsSlots = true → children = []) ∧ ProperRegions s.payload regions ∧
      ProperAll children

/-- Regions that a payload takes, with proper outlines in them. -/
def ProperRegions (p : Payload) : List (Slot × List Outline) → Prop
  | [] => True
  | (slot, shapes) :: rest => p.takes slot = true ∧ ProperAll shapes ∧ ProperRegions p rest

/-- Proper outlines side by side. -/
def ProperAll : List Outline → Prop
  | [] => True
  | o :: rest => o.Proper ∧ ProperAll rest

end

theorem properAll_iff (os : List Outline) : ProperAll os ↔ ∀ o ∈ os, o.Proper := by
  induction os with
  | nil => simp [ProperAll]
  | cons o rest ih => simp [ProperAll, ih]

theorem properRegions_iff (p : Payload) (regions : List (Slot × List Outline)) :
    ProperRegions p regions ↔ ∀ r ∈ regions, p.takes r.1 = true ∧ ProperAll r.2 := by
  induction regions with
  | nil => simp [ProperRegions]
  | cons r rest ih => simp [ProperRegions, ih, and_assoc]

theorem Proper.fresh {o : Outline} (ho : o.Proper) : o.sketch.Fresh := by
  obtain ⟨s, regions, children⟩ := o
  rw [Proper] at ho
  exact ho.1

theorem ProperAll.append {os os' : List Outline} (h : ProperAll os) (h' : ProperAll os') :
    ProperAll (os ++ os') := by
  rw [properAll_iff] at *
  simpa [or_imp, forall_and] using ⟨h, h'⟩

end Outline

/-! ## Sketches -/

namespace Form

/-- Forms whose kind, where it is a parameter, suits their content and allows children. -/
def regular : Form → Bool
  | .expression kind => (Payload.expression "").suits kind && !kind.holdsSlots
  | .invoke kind => (Payload.invoke "").suits kind && !kind.holdsSlots
  | .plain kind _ => Payload.nothing.suits kind && !kind.holdsSlots
  | _ => true

/-- The types, lower-cased, that some form knows. -/
def names : List String := table.map Prod.fst ++ ["callrules", "callpolicy"]

/-- How a type is read, with what is known of it in lower case. -/
theorem ofType_cases (type : String) :
    ofType type = .callRules ∨ ofType type = .metadata ∨
      (Text.lower type, ofType type) ∈ table ∨
      ofType type = .fallback ∧ Text.lower type ∉ names := by
  simp only [ofType]
  split
  · exact .inl rfl
  · next hrules =>
    split
    · exact .inr (.inl rfl)
    · refine .inr (.inr ?_)
      cases h : table.lookup (Text.lower type) with
      | some f =>
        obtain ⟨before, after, he, -⟩ := List.lookup_eq_some_iff.mp h
        exact .inl (by simp [he])
      | none =>
        refine .inr ⟨rfl, fun hm => ?_⟩
        rcases List.mem_append.mp hm with hm | hm
        · obtain ⟨row, hrow, he⟩ := List.mem_map.mp hm
          have hne := List.lookup_eq_none_iff.mp h row hrow
          simp [he] at hne
        · exact hrules (by simpa using hm)

/-- No type of metadata and no rule call is spelled like a row of the table. -/
theorem ofType_of_mem_table {type : String} {f : Form} (h : (Text.lower type, f) ∈ table) :
    ofType type = f := by
  have hrules : ∀ row ∈ table, ¬(row.1 = "callrules" ∨ row.1 = "callpolicy") := by decide
  have hmetadata : ∀ name ∈ metadataTypes, ∀ row ∈ table, row.1 ≠ Text.lower name := by
    decide +kernel
  have hrow : ∀ row ∈ table, table.lookup row.1 = some row.2 := by decide
  simp only [ofType]
  rw [if_neg (hrules _ h), if_neg fun hm => hmetadata type hm _ h rfl, hrow _ h]
  rfl

theorem regular_ofType (type : String) : (ofType type).regular = true := by
  have htable : ∀ row ∈ table, row.2.regular = true := by decide
  rcases ofType_cases type with hf | hf | hrow | ⟨hf, -⟩
  · rw [hf]
    rfl
  · rw [hf]
    rfl
  · exact htable _ hrow
  · rw [hf]
    rfl

theorem transformPayload_eq (e : Element) :
    ∃ inputs outputs, transformPayload e = .transform (e.prop "ClassName") inputs outputs := by
  unfold transformPayload
  split
  · exact ⟨_, _, rfl⟩
  · exact ⟨_, _, rfl⟩

theorem bare_payload (f : Form) (e : Element) : (f.payload e).bare = f.payload e := by
  cases f with
  | transform =>
    obtain ⟨inputs, outputs, he⟩ := transformPayload_eq e
    rw [Form.payload, he]
    rfl
  | _ => rfl

theorem suits_payload {f : Form} {kind : Kind} (hf : f.regular = true) (hk : f.kind? = some kind)
    (e : Element) : (f.payload e).suits kind = true := by
  cases f with
  | transform =>
    obtain ⟨inputs, outputs, he⟩ := transformPayload_eq e
    cases hk
    rw [Form.payload, he]
    rfl
  | expression k | invoke k | plain k usual =>
    cases hk
    exact (Bool.and_eq_true_iff.mp hf).1
  | metadata => cases hk
  | _ =>
    cases hk
    rfl

theorem kind_of_sketch? {f : Form} {e : Element} {s : Sketch} (h : f.sketch? e = some s) :
    f.kind? = some s.kind := by
  obtain ⟨kind, hk, rfl⟩ := Option.map_eq_some_iff.mp h
  exact hk

theorem payload_of_sketch? {f : Form} {e : Element} {s : Sketch} (h : f.sketch? e = some s) :
    s.payload = f.payload e := by
  obtain ⟨kind, -, rfl⟩ := Option.map_eq_some_iff.mp h
  rfl

theorem fresh_of_sketch? {f : Form} {e : Element} {s : Sketch} (hf : f.regular = true)
    (h : f.sketch? e = some s) : s.Fresh := by
  have hp := payload_of_sketch? h
  exact ⟨hp ▸ suits_payload hf (kind_of_sketch? h) e, hp ▸ bare_payload f e⟩

end Form

/-! ## Outlines of elements -/

namespace Outline

theorem proper_leaf {s : Sketch} (hs : s.Fresh) : Proper ⟨s, [], []⟩ := by
  simp [Proper, ProperRegions, ProperAll, hs]

theorem takes_cases {number : Nat} {containers : List (Element × List Outline)}
    {r : Slot × List Outline} (hr : r ∈ cases number containers) :
    (∀ subject cs d, (Payload.switch subject cs d).takes r.1 = true) ∧
      ∃ c ∈ containers, r.2 = c.2 := by
  induction containers generalizing number with
  | nil => simp [cases] at hr
  | cons c rest ih =>
    rcases List.mem_cons.mp hr with rfl | hr
    · refine ⟨fun _ _ _ => ?_, c, by simp, rfl⟩
      unfold caseSlot
      split
      · rfl
      · rfl
    · obtain ⟨ht, c', hc', he⟩ := ih hr
      exact ⟨ht, c', by simp [hc'], he⟩

theorem takes_branches {number : Nat} {containers : List (Element × List Outline)}
    {r : Slot × List Outline} (hr : r ∈ branches number containers) :
    (∀ bs, (Payload.listen bs).takes r.1 = true) ∧ ∃ c ∈ containers, r.2 = c.2 := by
  induction containers generalizing number with
  | nil => simp [branches] at hr
  | cons c rest ih =>
    rcases List.mem_cons.mp hr with rfl | hr
    · exact ⟨fun _ => rfl, c, by simp, rfl⟩
    · obtain ⟨ht, c', hc', he⟩ := ih hr
      exact ⟨ht, c', by simp [hc'], he⟩

theorem decide_proper {s : Sketch} (hk : s.kind = .decide) (d : Decision)
    {bs : List (List Outline)} (hb : ∀ b ∈ bs, ProperAll b) : (decide s d bs).Proper := by
  have hregion : ∀ (i : Nat) (slot : Slot), ∀ r ∈ (bs[i]?).toList.map (Prod.mk slot),
      r.1 = slot ∧ ProperAll r.2 := by
    intro i slot r hr
    obtain ⟨b, hbi, rfl⟩ := List.mem_map.mp hr
    exact ⟨rfl, hb b (List.mem_of_getElem? (Option.mem_toList.mp hbi))⟩
  refine ⟨⟨beq_iff_eq.mpr hk, rfl⟩, fun _ => rfl, ?_, trivial⟩
  rw [properRegions_iff]
  intro r hr
  rcases List.mem_append.mp hr with hr | hr
  · obtain ⟨hs, hp⟩ := hregion _ _ r hr
    exact ⟨by rw [hs]; rfl, hp⟩
  · obtain ⟨hs, hp⟩ := hregion _ _ r hr
    exact ⟨by rw [hs]; rfl, hp⟩

theorem inner_proper (e : Element) : ProperAll (inner e) := by
  have hleaf : ∀ (type : String) (f : Form), f.regular = true →
      ProperAll ((e.select [type]).filterMap fun c =>
        (f.sketch? c).map fun s => (⟨s, [], []⟩ : Outline)) := by
    intro type f hf
    rw [properAll_iff]
    intro o ho
    obtain ⟨c, -, hc⟩ := List.mem_filterMap.mp ho
    obtain ⟨s, hs, rfl⟩ := Option.map_eq_some_iff.mp hc
    exact proper_leaf (Form.fresh_of_sketch? hf hs)
  exact (hleaf "Transform" .transform rfl).append (hleaf "MessageAssignment" .messageAssignment rfl)

/-- An element's outline is proper when the outlines of its content and of its containers' content
are. -/
theorem complete_proper {f : Form} {e : Element} {s : Sketch} (hf : f.regular = true)
    (hs : f.sketch? e = some s) (hc : ProperAll (ofElements e.children))
    (hcs : ∀ c ∈ e.children, ProperAll (ofElements c.children)) : (complete f e s).Proper := by
  have hfresh : s.Fresh := Form.fresh_of_sketch? hf hs
  have hkind : f.kind? = some s.kind := Form.kind_of_sketch? hs
  have hpayload : s.payload = f.payload e := Form.payload_of_sketch? hs
  have hselect : ∀ types, ∀ c ∈ e.select types, ProperAll (ofElements c.children) :=
    fun types c h => hcs c (List.mem_filter.mp h).1
  have hpair : ∀ types,
      ∀ c ∈ (e.select types).map fun c => (c, ofElements c.children), ProperAll c.2 := by
    intro types c h
    obtain ⟨c', hc', rfl⟩ := List.mem_map.mp h
    exact hselect types c' hc'
  cases f with
  | decide =>
    have hk : s.kind = .decide := (Option.some.inj hkind).symm
    refine decide_proper hk _ ?_
    intro b hb
    obtain ⟨c, hc', rfl⟩ := List.mem_map.mp hb
    exact hselect _ c hc'
  | switch =>
    refine ⟨hfresh, fun _ => rfl, ?_, trivial⟩
    rw [properRegions_iff, hpayload]
    intro r hr
    obtain ⟨ht, c, hc', he⟩ := takes_cases hr
    exact ⟨ht _ _ _, he ▸ hpair _ c hc'⟩
  | listen =>
    refine ⟨hfresh, fun _ => rfl, ?_, trivial⟩
    rw [properRegions_iff, hpayload]
    intro r hr
    obtain ⟨ht, c, hc', he⟩ := takes_branches hr
    exact ⟨ht _, he ▸ hpair _ c hc'⟩
  | construct =>
    refine ⟨hfresh, fun _ => rfl, ⟨?_, inner_proper e, trivial⟩, trivial⟩
    rw [hpayload]
    rfl
  | messageAssignment => exact proper_leaf hfresh
  | metadata => cases hkind
  | expression kind | invoke kind | plain kind usual =>
    refine ⟨hfresh, fun hh => ?_, trivial, hc⟩
    obtain rfl := Option.some.inj hkind
    have hn := (Bool.and_eq_true_iff.mp hf).2
    simp [hh] at hn
  | _ =>
    refine ⟨hfresh, fun hh => ?_, trivial, hc⟩
    rw [← Option.some.inj hkind] at hh
    exact absurd hh (by decide)

theorem ofElement_proper (e : Element) :
    (∀ o, ofElement? e = some o → o.Proper) ∧ ProperAll (ofElements e.children) := by
  induction e using Designer.Element.rec_children with
  | step e ih =>
    have hc : ProperAll (ofElements e.children) := by
      rw [ofElements_eq, properAll_iff]
      intro o ho
      obtain ⟨c, hc, hco⟩ := List.mem_filterMap.mp ho
      exact (ih c hc).1 o hco
    refine ⟨fun o ho => ?_, hc⟩
    obtain ⟨s, hs, rfl⟩ := ofElement?_eq_some ho
    exact complete_proper (Form.regular_ofType e.type) hs hc fun c hm => (ih c hm).2

theorem ofElements_proper (es : List Element) : ProperAll (ofElements es) := by
  rw [ofElements_eq, properAll_iff]
  intro o ho
  obtain ⟨e, -, he⟩ := List.mem_filterMap.mp ho
  exact (ofElement_proper e).1 o he

end Outline

end Orchestration.Shape
