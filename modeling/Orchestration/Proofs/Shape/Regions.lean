import Mathlib.Data.List.Induction
import Orchestration.Proofs.Shape.Payload

/-!
# Orchestration.Proofs.Shape.Regions

What a payload is once all its regions are filled.

* `inSlot`, `keyed`, `branched` — the regions of one sort, of whatever their content consists.
* `grouped` — cases with one key put together, keys in order of their first occurrence.
* `Payload.furnish_switch` and its companions — filling regions one after the other, in closed
  form.
-/

namespace Orchestration.Shape

section

variable {α β : Type}

/-- The content of all regions that are exactly `slot`. -/
def inSlot (slot : Slot) (rs : List (Slot × List α)) : List α :=
  (rs.filter fun r => r.1 == slot).flatMap Prod.snd

/-- The cases with their keys. -/
def keyed (rs : List (Slot × List α)) : List (String × List α) :=
  rs.filterMap fun r =>
    match r.1 with
    | .case _ key => some (key, r.2)
    | _ => none

/-- The branches of a listen. -/
def branched (rs : List (Slot × List α)) : List (List α) :=
  rs.filterMap fun r =>
    match r.1 with
    | .branch _ => some r.2
    | _ => none

/-- Lists under the same key put together, keys in order of their first occurrence. -/
def grouped (l : List (String × List α)) : List (String × List α) :=
  (l.map Prod.fst).eraseDups.map fun key =>
    (key, (l.filter fun x => x.1 == key).flatMap Prod.snd)

/-- The same regions with other content. -/
def mapRegions (f : α → β) (rs : List (Slot × List α)) : List (Slot × List β) :=
  rs.map fun r => (r.1, r.2.map f)

theorem inSlot_mapRegions (f : α → β) (slot : Slot) (rs : List (Slot × List α)) :
    inSlot slot (mapRegions f rs) = (inSlot slot rs).map f := by
  induction rs with
  | nil => rfl
  | cons r rest ih =>
    by_cases h : r.1 = slot
    · simp_all [inSlot, mapRegions]
    · simp_all [inSlot, mapRegions]

theorem keyed_mapRegions (f : α → β) (rs : List (Slot × List α)) :
    keyed (mapRegions f rs) = (keyed rs).map fun x => (x.1, x.2.map f) := by
  induction rs with
  | nil => rfl
  | cons r rest ih =>
    obtain ⟨slot, xs⟩ := r
    cases slot <;> simp_all [keyed, mapRegions]

theorem branched_mapRegions (f : α → β) (rs : List (Slot × List α)) :
    branched (mapRegions f rs) = (branched rs).map (List.map f) := by
  induction rs with
  | nil => rfl
  | cons r rest ih =>
    obtain ⟨slot, xs⟩ := r
    cases slot <;> simp_all [branched, mapRegions]

theorem grouped_map (f : α → β) (l : List (String × List α)) :
    grouped (l.map fun x => (x.1, x.2.map f)) = (grouped l).map fun x => (x.1, x.2.map f) := by
  have hkeys : (l.map fun x => (x.1, x.2.map f)).map Prod.fst = l.map Prod.fst := by
    simp [Function.comp_def]
  rw [grouped, grouped, hkeys, List.map_map]
  refine List.map_congr_left fun key _ => ?_
  simp [List.filter_map, Function.comp_def, List.flatMap_map, List.map_flatMap]

/-! ## Each key once -/

theorem eraseDups_concat (l : List String) (x : String) :
    (l ++ [x]).eraseDups = if x ∈ l then l.eraseDups else l.eraseDups ++ [x] := by
  rw [List.eraseDups_append, List.cons_removeAll]
  by_cases h : x ∈ l
  · simp [h]
  · simp [h, List.eraseDups_cons]

theorem nodup_eraseDups (l : List String) : l.eraseDups.Nodup := by
  induction l using List.reverseRecOn with
  | nil => simp
  | append_singleton l x ih =>
    rw [eraseDups_concat]
    split
    · exact ih
    · next h =>
      refine List.nodup_append.mpr ⟨ih, by simp, ?_⟩
      rintro y hy z hz rfl
      rw [List.mem_singleton.mp hz] at hy
      exact h (List.mem_eraseDups.mp hy)

/-- A key that is listed changes its own entry, a new one comes last. -/
theorem putCase_map (key : String) (hs : List Handle) (f : String → List Handle)
    {keys : List String} (hkeys : keys.Nodup) :
    Payload.putCase key hs (keys.map fun k => (k, f k)) =
      if key ∈ keys then keys.map fun k => (k, if k = key then f k ++ hs else f k)
      else keys.map (fun k => (k, f k)) ++ [(key, hs)] := by
  induction keys with
  | nil => rfl
  | cons k rest ih =>
    obtain ⟨hk, hrest⟩ := List.nodup_cons.mp hkeys
    rw [List.map_cons, Payload.putCase]
    by_cases h : k = key
    · subst h
      have hother : ∀ k' ∈ rest, (k', f k') = (k', if k' = k then f k' ++ hs else f k') := by
        intro k' hk'
        have hne : k' ≠ k := fun he => hk (he ▸ hk')
        simp [hne]
      simp [List.map_congr_left hother]
    · have hne : key ≠ k := fun he => h he.symm
      rw [if_neg h, ih hrest]
      by_cases hm : key ∈ rest
      · simp [hm, h]
      · simp [hm, hne]

theorem putCase_grouped (key : String) (hs : List Handle) (l : List (String × List Handle)) :
    Payload.putCase key hs (grouped l) = grouped (l ++ [(key, hs)]) := by
  rw [grouped, grouped, putCase_map _ _ _ (nodup_eraseDups _), List.map_append, List.map_cons,
    List.map_nil, eraseDups_concat]
  simp only [List.mem_eraseDups]
  by_cases hm : key ∈ l.map Prod.fst
  · rw [if_pos hm, if_pos hm]
    refine List.map_congr_left fun k _ => ?_
    by_cases hk : k = key
    · simp [hk]
    · have hne : (key == k) = false := beq_false_of_ne fun he => hk he.symm
      simp [hk, hne]
  · have hnone : (l.filter fun x => x.1 == key) = [] := by
      rw [List.filter_eq_nil_iff]
      intro x hx he
      exact hm (List.mem_map.mpr ⟨x, hx, by simpa using he⟩)
    rw [if_neg hm, if_neg hm, List.map_append]
    congr 1
    · refine List.map_congr_left fun k hk => ?_
      have hne : (key == k) = false := by
        refine beq_false_of_ne fun he => hm ?_
        rw [he]
        exact List.mem_eraseDups.mp hk
      simp [hne]
    · simp [hnone]

end

/-! ## Filling all regions -/

namespace Payload

theorem furnish_decide (condition : String) (t f : List Handle) (rs : List (Slot × List Handle)) :
    (Payload.decide condition t f).furnish rs =
      .decide condition (t ++ inSlot .whenTrue rs) (f ++ inSlot .whenFalse rs) := by
  induction rs generalizing t f with
  | nil => simp [furnish, inSlot]
  | cons r rest ih =>
    obtain ⟨slot, hs⟩ := r
    rw [furnish_cons]
    cases slot <;> simp [put, ih, inSlot]

theorem furnish_switch (subject : String) (l : List (String × List Handle)) (d : List Handle)
    (rs : List (Slot × List Handle)) :
    (Payload.switch subject (grouped l) d).furnish rs =
      .switch subject (grouped (l ++ keyed rs)) (d ++ inSlot .otherwise rs) := by
  induction rs generalizing l d with
  | nil => simp [furnish, inSlot, keyed]
  | cons r rest ih =>
    obtain ⟨slot, hs⟩ := r
    rw [furnish_cons]
    cases slot <;> simp [put, ih, inSlot, keyed, putCase_grouped]

theorem furnish_listen (branches : List (List Handle)) (rs : List (Slot × List Handle)) :
    (Payload.listen branches).furnish rs = .listen (branches ++ branched rs) := by
  induction rs generalizing branches with
  | nil => simp [furnish, branched]
  | cons r rest ih =>
    obtain ⟨slot, hs⟩ := r
    rw [furnish_cons]
    cases slot <;> simp [put, ih, branched]

theorem furnish_construct (messages : List String) (inner : List Handle)
    (rs : List (Slot × List Handle)) :
    (Payload.construct messages inner).furnish rs =
      .construct messages (inner ++ inSlot .inner rs) := by
  induction rs generalizing inner with
  | nil => simp [furnish, inSlot]
  | cons r rest ih =>
    obtain ⟨slot, hs⟩ := r
    rw [furnish_cons]
    cases slot <;> simp [put, ih, inSlot]

end Payload

end Orchestration.Shape
