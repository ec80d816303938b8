import Orchestration.Proofs.Shape.Proper
import Orchestration.Proofs.Shape.Sequence

/-!
# Orchestration.Proofs.Shape.Identity

When unique identifiers tell shapes apart.

* `Node.Legible.uniqueId_inj` — where no `@` stands in identifiers and tags, a unique identifier
  determines the context and the sequence number.
* `Within` — a context, and all contexts of the regions below it.
* `Outline.laidAll_identified` — outlines whose owners have names without a `#` and differently
  labelled regions become nodes of different unique identifiers.
-/

namespace Orchestration.Shape

open Designer (Element)

/-! ## Separators -/

/-- The first separator is found in one place only. -/
theorem append_sep_inj {sep : Char} {xs xs' ys ys' : List Char} (hx : sep ∉ xs) (hx' : sep ∉ xs')
    (h : xs ++ sep :: ys = xs' ++ sep :: ys') : xs = xs' ∧ ys = ys' := by
  induction xs generalizing xs' with
  | nil =>
    cases xs' with
    | nil => exact ⟨rfl, List.tail_eq_of_cons_eq h⟩
    | cons x' rest' =>
      rw [List.head_eq_of_cons_eq h] at hx'
      exact absurd (List.mem_cons_self ..) hx'
  | cons x rest ih =>
    cases xs' with
    | nil =>
      rw [← List.head_eq_of_cons_eq h] at hx
      exact absurd (List.mem_cons_self ..) hx
    | cons x' rest' =>
      obtain ⟨rfl, hrest⟩ := ih (fun hm => hx (List.mem_cons_of_mem _ hm))
        (fun hm => hx' (List.mem_cons_of_mem _ hm)) (List.tail_eq_of_cons_eq h)
      exact ⟨by rw [List.head_eq_of_cons_eq h], hrest⟩

/-- So is the last one. -/
theorem append_last_sep_inj {sep : Char} {xs xs' ys ys' : List Char} (hy : sep ∉ ys)
    (hy' : sep ∉ ys') (h : xs ++ sep :: ys = xs' ++ sep :: ys') : xs = xs' ∧ ys = ys' := by
  have hr : ys.reverse ++ sep :: xs.reverse = ys'.reverse ++ sep :: xs'.reverse := by
    simpa using congrArg List.reverse h
  obtain ⟨hys, hxs⟩ := append_sep_inj (by simpa using hy) (by simpa using hy') hr
  exact ⟨List.reverse_inj.mp hxs, List.reverse_inj.mp hys⟩

theorem toDigits_inj {k k' : Nat} (h : Nat.toDigits 10 k = Nat.toDigits 10 k') : k = k' := by
  have hvalue := congrArg (Nat.ofDigitChars 10 · 0) h
  simpa only [Nat.ofDigitChars_ten_toDigits] using hvalue

theorem notMem_toDigits {c : Char} (hc : c.isDigit = false) (k : Nat) : c ∉ Nat.toDigits 10 k := by
  intro hm
  rw [Nat.isDigit_of_mem_toDigits (by decide) (by decide) hm] at hc
  cases hc

/-- A text in which neither a number nor a context can seem to begin. -/
structure Clear (s : String) : Prop where
  noHash : '#' ∉ s.toList
  noAt : '@' ∉ s.toList

instance : DecidablePred Clear := fun s =>
  decidable_of_iff ('#' ∉ s.toList ∧ '@' ∉ s.toList) ⟨fun h => ⟨h.1, h.2⟩, fun h => ⟨h.1, h.2⟩⟩

theorem Clear.orElse {s other : String} (hs : Clear s) (hother : Clear other) :
    Clear (Text.orElse s other) := by
  unfold Text.orElse
  split
  · exact hother
  · exact hs

/-! ## One node -/

/-- A node whose unique identifier can be taken apart. -/
structure Node.Legible (n : Node) : Prop where
  key : '@' ∉ (Text.orElse n.oid n.tag).toList
  number : ∃ k : Nat, n.sequence = k

theorem Node.Legible.uniqueId_inj {n n' : Node} (hn : n.Legible) (hn' : n'.Legible)
    (h : n.uniqueId = n'.uniqueId) : n.context = n'.context ∧ n.sequence = n'.sequence := by
  obtain ⟨k, hk⟩ := hn.number
  obtain ⟨k', hk'⟩ := hn'.number
  have hform : ∀ (n : Node) (k : Nat), n.sequence = k → n.uniqueId.toList =
      (Text.orElse n.oid n.tag).toList ++ '@' :: (n.context.toList ++ '#' :: Nat.toDigits 10 k) := by
    intro n k hk
    have hdigits : toString n.sequence = Nat.repr k := by
      rw [hk]
      rfl
    simp [uniqueId, hdigits, String.toList_append, Text.orElse]
  have hlist := congrArg String.toList h
  rw [hform n k hk, hform n' k' hk'] at hlist
  -- the key ends at the first `@`, the number begins after the last `#`
  obtain ⟨-, hrest⟩ := append_sep_inj hn.key hn'.key hlist
  obtain ⟨hcontext, hnumber⟩ :=
    append_last_sep_inj (notMem_toDigits rfl k) (notMem_toDigits rfl k') hrest
  rw [hk, hk', toDigits_inj hnumber]
  exact ⟨String.toList_inj.mp hcontext, rfl⟩

/-! ## Contexts of regions -/

/-- A context, or one of a region below it. -/
def Within (path inner : String) : Prop :=
  ∃ rest, inner.toList ++ ['/'] = path.toList ++ '/' :: rest

theorem Within.refl (path : String) : Within path path := ⟨[], rfl⟩

theorem Within.trans {path inner innermost : String} (h : Within path inner)
    (h' : Within inner innermost) : Within path innermost := by
  obtain ⟨rest, hrest⟩ := h
  obtain ⟨rest', hrest'⟩ := h'
  refine ⟨rest ++ rest', ?_⟩
  calc innermost.toList ++ ['/'] = (inner.toList ++ ['/']) ++ rest' := by simp [hrest']
    _ = path.toList ++ '/' :: (rest ++ rest') := by simp [hrest]

theorem Below.within {path inner : String} (h : Below path inner) : Within path inner := by
  obtain ⟨rest, rfl⟩ := h
  exact ⟨rest.toList ++ ['/'], by simp [String.toList_append]⟩

/-- What the contexts of a shape's regions are named after. -/
def Sketch.regionName (s : Sketch) : String := Text.orElse s.oid (Text.orElse s.name s.tag)

theorem Sketch.toList_regionPath (s : Sketch) (path : String) (sequence : Nat) (slot : Slot) :
    (s.regionPath path sequence slot).toList =
      path.toList ++ '/' :: (s.regionName.toList ++ '#' ::
        (Nat.toDigits 10 sequence ++ '.' :: slot.label.toList)) := by
  simp [regionPath, regionKey, regionName, String.toList_append]

namespace Slot

theorem toList_label_case (number : Nat) (key : String) :
    (Slot.case number key).label.toList =
      "case[".toList ++ (Nat.toDigits 10 number ++ [']']) := by
  have hlabel : (Slot.case number key).label = "case[" ++ toString number ++ "]" := rfl
  simp [hlabel, String.toList_append]

theorem toList_label_branch (number : Nat) :
    (Slot.branch number).label.toList =
      "branch[".toList ++ (Nat.toDigits 10 number ++ [']']) := by
  have hlabel : (Slot.branch number).label = "branch[" ++ toString number ++ "]" := rfl
  simp [hlabel, String.toList_append]

theorem slash_notMem_label (slot : Slot) : '/' ∉ slot.label.toList := by
  cases slot with
  | case number key =>
    have hnumber : '/' ∉ Nat.toDigits 10 number := notMem_toDigits rfl number
    simp [toList_label_case, hnumber]
  | branch number =>
    have hnumber : '/' ∉ Nat.toDigits 10 number := notMem_toDigits rfl number
    simp [toList_label_branch, hnumber]
  | _ => decide

end Slot

/-- Different numbers and different labels make contexts that have nothing in common. -/
theorem Sketch.within_regionPath_inj {s s' : Sketch} {path c : String} {k k' : Nat}
    {slot slot' : Slot} (hs : '#' ∉ s.regionName.toList) (hs' : '#' ∉ s'.regionName.toList)
    (h : Within (s.regionPath path k slot) c) (h' : Within (s'.regionPath path k' slot') c) :
    k = k' ∧ slot.label = slot'.label := by
  obtain ⟨rest, hrest⟩ := h
  obtain ⟨rest', hrest'⟩ := h'
  have heq := hrest.symm.trans hrest'
  -- behind the common path come the name up to a `#`, the number up to a dot, the label up to a `/`
  simp only [toList_regionPath, List.append_assoc, List.cons_append, List.append_cancel_left_eq,
    List.cons.injEq, true_and] at heq
  obtain ⟨-, hnumbered⟩ := append_sep_inj hs hs' heq
  obtain ⟨hnumber, hlabelled⟩ :=
    append_sep_inj (notMem_toDigits rfl k) (notMem_toDigits rfl k') hnumbered
  obtain ⟨hlabel, -⟩ := append_sep_inj slot.slash_notMem_label slot'.slash_notMem_label hlabelled
  exact ⟨toDigits_inj hnumber, String.toList_inj.mp hlabel⟩

theorem Sketch.ne_of_within_regionPath {s : Sketch} {path c : String} {k : Nat} {slot : Slot}
    (h : Within (s.regionPath path k slot) c) : path ≠ c := by
  rintro rfl
  obtain ⟨rest, hrest⟩ := h
  have hlength := congrArg List.length hrest
  simp [toList_regionPath] at hlength

/-! ## What has been laid -/

/-- Where a node stands that belongs to the numbers from `lo` up to `hi` of a context: it has such
a number there, or it is in a region of a shape that has one. -/
inductive Node.Seated (path : String) (lo hi : Nat) (n : Node) : Prop
  | direct (k : Nat) : lo ≤ k → k < hi → n.context = path → n.sequence = k → Seated path lo hi n
  | region (s : Sketch) (slot : Slot) (k : Nat) : lo ≤ k → k < hi → '#' ∉ s.regionName.toList →
      Within (s.regionPath path k slot) n.context → Seated path lo hi n

namespace Node.Seated

variable {path : String} {lo mid hi : Nat} {n n' : Node}

theorem mono {lo' hi' : Nat} (h : n.Seated path lo hi) (hlo : lo' ≤ lo) (hhi : hi ≤ hi') :
    n.Seated path lo' hi' := by
  cases h with
  | direct k hk hk' hc hs =>
    exact .direct k (Nat.le_trans hlo hk) (Nat.lt_of_lt_of_le hk' hhi) hc hs
  | region s slot k hk hk' hs hw =>
    exact .region s slot k (Nat.le_trans hlo hk) (Nat.lt_of_lt_of_le hk' hhi) hs hw

theorem within (h : n.Seated path lo hi) : Within path n.context := by
  cases h with
  | direct k _ _ hc _ => exact hc ▸ .refl path
  | region s slot k _ _ _ hw => exact (s.below_regionPath path k slot).within.trans hw

/-- Earlier and later numbers of a context share no place. -/
theorem apart (h : n.Seated path lo mid) (h' : n'.Seated path mid hi) :
    ¬(n.context = n'.context ∧ n.sequence = n'.sequence) := by
  rintro ⟨hcontext, hsequence⟩
  cases h with
  | direct k _ hk hc hs =>
    cases h' with
    | direct k' hk' _ _ hs' => omega
    | region s' slot' k' _ _ _ hw' =>
      exact Sketch.ne_of_within_regionPath hw' (hc.symm.trans hcontext)
  | region s slot k _ hk hname hw =>
    cases h' with
    | direct k' _ _ hc' _ =>
      exact Sketch.ne_of_within_regionPath hw (hc'.symm.trans hcontext.symm)
    | region s' slot' k' hk' _ hname' hw' =>
      rw [← hcontext] at hw'
      have := (Sketch.within_regionPath_inj hname hname' hw hw').1
      omega

end Node.Seated

/-- Nodes that belong to the numbers from `lo` up to `hi` of a context and whose unique identifiers
differ. -/
structure Identified (path : String) (lo hi : Nat) (l : List (Handle × Node)) : Prop where
  legible : ∀ x ∈ l, x.2.Legible
  seated : ∀ x ∈ l, x.2.Seated path lo hi
  distinct : (l.map fun x => x.2.uniqueId).Nodup

/-- Nodes in regions of one shape, the regions in order. -/
structure IdentifiedRegions (s : Sketch) (path : String) (sequence : Nat)
    (regions : List (Slot × List Outline)) (l : List (Handle × Node)) : Prop where
  legible : ∀ x ∈ l, x.2.Legible
  within : ∀ x ∈ l, ∃ r ∈ regions, Within (s.regionPath path sequence r.1) x.2.context
  distinct : (l.map fun x => x.2.uniqueId).Nodup

/-- Legible nodes at different places have different unique identifiers. -/
theorem nodup_append_uniqueId {l l' : List (Handle × Node)} (hl : ∀ x ∈ l, x.2.Legible)
    (hl' : ∀ x ∈ l', x.2.Legible) (hd : (l.map fun x => x.2.uniqueId).Nodup)
    (hd' : (l'.map fun x => x.2.uniqueId).Nodup)
    (hapart : ∀ x ∈ l, ∀ y ∈ l',
      ¬(x.2.context = y.2.context ∧ x.2.sequence = y.2.sequence)) :
    ((l ++ l').map fun x => x.2.uniqueId).Nodup := by
  rw [List.map_append, List.nodup_append]
  refine ⟨hd, hd', fun i hi j hj he => ?_⟩
  obtain ⟨x, hx, rfl⟩ := List.mem_map.mp hi
  obtain ⟨y, hy, rfl⟩ := List.mem_map.mp hj
  exact hapart x hx y hy ((hl x hx).uniqueId_inj (hl' y hy) he)

namespace Identified

variable {path : String} {lo mid hi : Nat} {l l' : List (Handle × Node)}

theorem nil : Identified path lo hi [] := ⟨by simp, by simp, by simp⟩

theorem append (h : Identified path lo mid l) (h' : Identified path mid hi l') (hlo : lo ≤ mid)
    (hhi : mid ≤ hi) : Identified path lo hi (l ++ l') where
  legible := List.forall_mem_append.mpr ⟨h.legible, h'.legible⟩
  seated := List.forall_mem_append.mpr ⟨fun x hx => (h.seated x hx).mono (Nat.le_refl lo) hhi,
    fun x hx => (h'.seated x hx).mono hlo (Nat.le_refl hi)⟩
  distinct := nodup_append_uniqueId h.legible h'.legible h.distinct h'.distinct
    fun x hx y hy => (h.seated x hx).apart (h'.seated y hy)

/-- A shape and what is in its regions together take the shape's own number. -/
theorem owner {s : Sketch} {next : Nat} {regions : List (Slot × List Outline)} {x : Handle × Node}
    (hx : x.2.Legible) (hcontext : x.2.context = path) (hsequence : x.2.sequence = next)
    (hname : regions ≠ [] → '#' ∉ s.regionName.toList)
    (h : IdentifiedRegions s path next regions l) : Identified path next (next + 1) (x :: l) where
  legible := List.forall_mem_cons.mpr ⟨hx, h.legible⟩
  seated := by
    refine List.forall_mem_cons.mpr ⟨?_, fun y hy => ?_⟩
    · exact .direct next (Nat.le_refl next) (Nat.lt_succ_self next) hcontext hsequence
    · obtain ⟨r, hr, hw⟩ := h.within y hy
      exact .region s r.1 next (Nat.le_refl next) (Nat.lt_succ_self next)
        (hname (List.ne_nil_of_mem hr)) hw
  distinct := by
    refine nodup_append_uniqueId (l := [x]) (by simpa using hx) h.legible (by simp) h.distinct ?_
    intro x' hx' y hy hsame
    obtain rfl := List.mem_singleton.mp hx'
    obtain ⟨r, -, hw⟩ := h.within y hy
    exact Sketch.ne_of_within_regionPath hw (hcontext.symm.trans hsame.1)

end Identified

/-- One more region, labelled like none of the others. -/
theorem IdentifiedRegions.cons {s : Sketch} {path : String} {sequence hi : Nat} {slot : Slot}
    {shapes : List Outline} {rest : List (Slot × List Outline)} {l l' : List (Handle × Node)}
    (hname : '#' ∉ s.regionName.toList) (hlabel : slot.label ∉ rest.map fun r => r.1.label)
    (h : Identified (s.regionPath path sequence slot) 0 hi l)
    (h' : IdentifiedRegions s path sequence rest l') :
    IdentifiedRegions s path sequence ((slot, shapes) :: rest) (l ++ l') where
  legible := List.forall_mem_append.mpr ⟨h.legible, h'.legible⟩
  within := by
    refine List.forall_mem_append.mpr ⟨fun x hx => ?_, fun x hx => ?_⟩
    · exact ⟨_, List.mem_cons_self .., (h.seated x hx).within⟩
    · obtain ⟨r, hr, hw⟩ := h'.within x hx
      exact ⟨r, List.mem_cons_of_mem _ hr, hw⟩
  distinct := by
    refine nodup_append_uniqueId h.legible h'.legible h.distinct h'.distinct ?_
    rintro x hx y hy ⟨hcontext, -⟩
    obtain ⟨r, hr, hw⟩ := h'.within y hy
    have hw' := (h.seated x hx).within
    rw [hcontext] at hw'
    refine hlabel (List.mem_map.mpr ⟨r, hr, ?_⟩)
    exact (Sketch.within_regionPath_inj hname hname hw hw').2

namespace Outline

/-- An outline whose texts leave the separators alone and whose regions are told apart. -/
structure Plain (o : Outline) : Prop where
  key : '@' ∉ (Text.orElse o.sketch.oid o.sketch.tag).toList
  name : o.regions ≠ [] → '#' ∉ o.sketch.regionName.toList
  labels : (o.regions.map fun r => r.1.label).Nodup

mutual

theorem laid_identified (start : Nat) (path : String) (next : Nat) (parent : Option Handle) :
    (o : Outline) → (∀ o' ∈ o.flat, o'.Plain) →
      Identified path next (next + o.width) (o.laid start path next parent)
  | ⟨s, regions, children⟩, hflat => by
    rw [flat] at hflat
    have ho : Plain ⟨s, regions, children⟩ := hflat _ (List.mem_cons_self ..)
    have hregions := laidRegions_identified (start + 1) s path next start regions ho.name ho.labels
      fun o' ho' => hflat o' (by simp [ho'])
    have hchildren := laidAll_identified (start + 1 + countRegions regions) path (next + 1)
      (some start) children fun o' ho' => hflat o' (by simp [ho'])
    -- the owner and its regions belong to one number, the children to the numbers after it
    rw [laid, width, ← Nat.add_assoc, ← List.cons_append]
    refine .append (.owner ⟨ho.key, next, rfl⟩ rfl rfl ho.name hregions) hchildren ?_ ?_
    · exact Nat.le_succ next
    · exact Nat.le_add_right ..

theorem laidRegions_identified (start : Nat) (s : Sketch) (path : String) (sequence : Nat)
    (owner : Handle) : (regions : List (Slot × List Outline)) →
      (regions ≠ [] → '#' ∉ s.regionName.toList) → (regions.map fun r => r.1.label).Nodup →
      (∀ o ∈ flatRegions regions, o.Plain) →
      IdentifiedRegions s path sequence regions (laidRegions start s path sequence owner regions)
  | [], _, _, _ => ⟨by simp [laidRegions], by simp [laidRegions], by simp [laidRegions]⟩
  | (slot, shapes) :: rest, hname, hlabels, hflat => by
    rw [flatRegions] at hflat
    obtain ⟨hlabel, hlabels⟩ := List.nodup_cons.mp hlabels
    have hname : '#' ∉ s.regionName.toList := hname (by simp)
    have hshapes := laidAll_identified start (s.regionPath path sequence slot) 0 (some owner) shapes
      fun o ho => hflat o (List.mem_append_left _ ho)
    have hrest := laidRegions_identified (start + countAll shapes) s path sequence owner rest
      (fun _ => hname) hlabels fun o ho => hflat o (List.mem_append_right _ ho)
    rw [laidRegions]
    exact .cons hname hlabel hshapes hrest

theorem laidAll_identified (start : Nat) (path : String) (next : Nat) (parent : Option Handle) :
    (os : List Outline) → (∀ o ∈ flatAll os, o.Plain) →
      Identified path next (next + widthAll os) (laidAll start path next parent os)
  | [], _ => .nil
  | o :: rest, hflat => by
    rw [flatAll] at hflat
    have ho := laid_identified start path next parent o
      fun o' ho' => hflat o' (List.mem_append_left _ ho')
    have hrest := laidAll_identified (start + o.count) path (next + o.width) parent rest
      fun o' ho' => hflat o' (List.mem_append_right _ ho')
    rw [laidAll, widthAll, ← Nat.add_assoc]
    exact ho.append hrest (Nat.le_add_right ..) (Nat.le_add_right ..)

end

end Outline

end Orchestration.Shape
