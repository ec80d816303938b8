import Mathlib.Data.Nat.Find
import Orchestration.Proofs.Shape.Correlation

/-!
# Orchestration.Proofs.Shape.Index

The index of identifiers.

* `Tree.First` — the first node that carries an identifier.
* `Tree.Indexed` — the index maps every identifier to the first node that carries it, and maps
  nothing else.
* `Tree.Indexed.sprout` — a node that is added and registered keeps the index so; the other ways in
  which a tree changes leave identifiers alone.
* `Tree.Indexed.placeAll`, `Tree.Indexed.correlate` — what grows and what is bound keeps it so.
-/

namespace Orchestration.Shape.Tree

/-- The identifier that the node of a handle carries. -/
def oid? (t : Tree) (h : Handle) : Option String := (t.node? h).map Node.oid

/-- The node of the handle is the first that carries the identifier. -/
structure First (t : Tree) (oid : String) (h : Handle) : Prop where
  carries : t.oid? h = some oid
  least : ∀ h', t.oid? h' = some oid → h ≤ h'

/-- An index that maps the identifiers of a tree, the empty one left out, to their first nodes. -/
structure Indexed (t : Tree) : Prop where
  keys : (t.index.map Prod.fst).Nodup
  entry : ∀ oid h, (oid, h) ∈ t.index ↔ oid ≠ "" ∧ t.First oid h

variable {t : Tree}

theorem exists_first {oid : String} {h : Handle} (ho : t.oid? h = some oid) :
    ∃ h', t.First oid h' := by
  have hex : ∃ h, t.oid? h = some oid := ⟨h, ho⟩
  exact ⟨Nat.find hex, Nat.find_spec hex, fun _ h' => Nat.find_min' hex h'⟩

theorem oid?_eq_getElem? (h : Handle) : t.oid? h = (t.list.map Node.oid)[h]? := by
  rw [oid?, node?_eq_getElem?, List.getElem?_map]

theorem oid?_lt_size {oid : String} {h : Handle} (ho : t.oid? h = some oid) : h < t.size := by
  obtain ⟨n, hn, -⟩ := Option.map_eq_some_iff.mp ho
  exact lt_size_of_node? hn

/-! ## Looking up -/

theorem mem_index_of_lookup {oid : String} {h : Handle} (hl : t.lookup oid = some h) :
    (oid, h) ∈ t.index := by
  obtain ⟨before, after, he, -⟩ := List.lookup_eq_some_iff.mp hl
  simp [he]

theorem lookup_eq_none_iff_not_mem {oid : String} :
    t.lookup oid = none ↔ ∀ h, (oid, h) ∉ t.index := by
  rw [lookup, List.lookup_eq_none_iff]
  constructor
  · intro hnone h hm
    simpa using hnone (oid, h) hm
  · rintro hnone ⟨key, h⟩ hm
    rw [bne_iff_ne]
    rintro rfl
    exact hnone h hm

namespace Indexed

theorem lookup_eq_some_iff (ht : t.Indexed) {oid : String} {h : Handle} :
    t.lookup oid = some h ↔ oid ≠ "" ∧ t.First oid h := by
  constructor
  · exact fun hl => (ht.entry oid h).mp (mem_index_of_lookup hl)
  · intro hfirst
    have hm := (ht.entry oid h).mpr hfirst
    cases hl : t.lookup oid with
    | none => exact absurd hm (lookup_eq_none_iff_not_mem.mp hl h)
    | some h' =>
      -- both are least
      have hfirst' := (ht.entry oid h').mp (mem_index_of_lookup hl)
      have hle := hfirst.2.least h' hfirst'.2.carries
      have hge := hfirst'.2.least h hfirst.2.carries
      rw [Nat.le_antisymm hle hge]

theorem lookup_eq_none_iff (ht : t.Indexed) {oid : String} :
    t.lookup oid = none ↔ oid = "" ∨ ∀ h, t.oid? h ≠ some oid := by
  rw [lookup_eq_none_iff_not_mem]
  constructor
  · intro hnone
    refine or_iff_not_imp_left.mpr fun hoid h ho => ?_
    obtain ⟨h', hfirst⟩ := exists_first ho
    exact hnone h' ((ht.entry oid h').mpr ⟨hoid, hfirst⟩)
  · intro hnone h hm
    obtain ⟨hoid, hfirst⟩ := (ht.entry oid h).mp hm
    exact hnone.elim hoid fun hother => hother h hfirst.carries

end Indexed

/-! ## Changes that leave identifiers alone -/

theorem Indexed.of_oid? {t' : Tree} (ht : t.Indexed) (hindex : t'.index = t.index)
    (hoid : t'.oid? = t.oid?) : t'.Indexed := by
  refine ⟨hindex ▸ ht.keys, fun oid h => ?_⟩
  rw [hindex, ht.entry]
  refine and_congr_right fun _ => ⟨fun hf => ⟨?_, ?_⟩, fun hf => ⟨?_, ?_⟩⟩
  · exact hoid ▸ hf.carries
  · exact hoid ▸ hf.least
  · exact hoid ▸ hf.carries
  · exact hoid ▸ hf.least

theorem Indexed.update (ht : t.Indexed) (h : Handle) {f : Node → Node}
    (hf : ∀ n, (f n).oid = n.oid) : (t.update h f).Indexed := by
  refine ht.of_oid? rfl (funext fun h' => ?_)
  rw [oid?, oid?, node?_update]
  split
  · simp [Function.comp_def, hf]
  · rfl

theorem Indexed.extend (ht : t.Indexed) (owner : Handle) (hs : List Handle) :
    (t.extend owner hs).Indexed := ht.update owner fun _ => rfl

theorem Indexed.furnish (ht : t.Indexed) (owner : Handle) (slot : Slot) (hs : List Handle) :
    (t.furnish owner slot hs).Indexed := ht.update owner fun _ => rfl

theorem Indexed.correlate (ht : t.Indexed) (roots : List Handle) :
    (t.correlate roots).tree.Indexed := by
  refine ht.of_oid? (t.correlate_index roots) (funext fun h => ?_)
  rw [oid?, oid?, correlate_node?, Option.map_map]
  rfl

/-! ## A new node -/

theorem indexed_empty : empty.Indexed := by
  refine ⟨List.nodup_nil, fun oid h => ⟨fun hm => ?_, fun hfirst => ?_⟩⟩
  · cases hm
  · exact absurd (oid?_lt_size hfirst.2.carries) (Nat.not_lt_zero h)

section

variable (s : Sketch) (path : String) (sequence : Int) (parent : Option Handle)

theorem oid?_sprout (h : Handle) :
    (t.sprout s path sequence parent).oid? h =
      if h = t.size then some s.oid else t.oid? h := by
  rw [oid?, oid?, node?_eq_getElem?, node?_eq_getElem?, list_sprout, List.getElem?_append,
    length_list]
  rcases Nat.lt_trichotomy h t.size with hlt | rfl | hgt
  · rw [if_pos hlt, if_neg (Nat.ne_of_lt hlt)]
  · simp [Sketch.node]
  · have hbeyond : h - t.size ≠ 0 := Nat.sub_ne_zero_of_lt hgt
    simp [Nat.not_lt_of_gt hgt, Nat.ne_of_gt hgt, hbeyond]

theorem index_sprout :
    (t.sprout s path sequence parent).index =
      if s.oid ≠ "" ∧ t.lookup s.oid = none then t.index ++ [(s.oid, t.size)] else t.index := by
  have hnode : (t.add (s.node path sequence parent)).node? t.size =
      some (s.node path sequence parent) := by
    simp [node?_eq_getElem?]
  have hlookup : (t.add (s.node path sequence parent)).lookup s.oid = t.lookup s.oid := rfl
  simp only [sprout, register, hnode]
  rw [show (s.node path sequence parent).oid = s.oid from rfl, hlookup]
  split
  · rfl
  · rfl

/-- The new node is the first that carries its identifier when no other node does. -/
theorem first_sprout (oid : String) (h : Handle) :
    (t.sprout s path sequence parent).First oid h ↔
      t.First oid h ∨ (s.oid = oid ∧ h = t.size ∧ ∀ h', t.oid? h' ≠ some oid) := by
  constructor
  · rintro ⟨hcarries, hleast⟩
    simp only [oid?_sprout] at hcarries hleast
    by_cases hh : h = t.size
    · rw [if_pos hh] at hcarries
      refine .inr ⟨Option.some.inj hcarries, hh, fun h' ho => ?_⟩
      have hlt := oid?_lt_size ho
      have hle := hleast h' (by rw [if_neg (Nat.ne_of_lt hlt)]; exact ho)
      exact Nat.not_le_of_lt hlt (hh ▸ hle)
    · rw [if_neg hh] at hcarries
      refine .inl ⟨hcarries, fun h' ho => hleast h' ?_⟩
      rw [if_neg (Nat.ne_of_lt (oid?_lt_size ho))]
      exact ho
  · rintro (⟨hcarries, hleast⟩ | ⟨hoid, rfl, hnone⟩)
    · have hlt := oid?_lt_size hcarries
      refine ⟨by rw [oid?_sprout, if_neg (Nat.ne_of_lt hlt)]; exact hcarries, fun h' ho => ?_⟩
      rw [oid?_sprout] at ho
      split at ho
      · next he => exact he ▸ Nat.le_of_lt hlt
      · exact hleast h' ho
    · refine ⟨by rw [oid?_sprout, if_pos rfl, hoid], fun h' ho => ?_⟩
      rw [oid?_sprout] at ho
      split at ho
      · next he => exact Nat.le_of_eq he.symm
      · exact absurd ho (hnone h')

/-- A new node enters the index exactly when it is the first that carries its identifier. -/
theorem Indexed.sprout (ht : t.Indexed) : (t.sprout s path sequence parent).Indexed := by
  by_cases hnew : s.oid ≠ "" ∧ t.lookup s.oid = none
  · have hnone : ∀ h, t.oid? h ≠ some s.oid := (ht.lookup_eq_none_iff.mp hnew.2).resolve_left hnew.1
    refine ⟨?_, fun oid h => ?_⟩
    · rw [index_sprout, if_pos hnew, List.map_append, List.nodup_append]
      refine ⟨ht.keys, by simp, ?_⟩
      rintro key hkey _ hoid rfl
      obtain rfl := List.mem_singleton.mp hoid
      obtain ⟨x, hm, he⟩ := List.mem_map.mp hkey
      have hentry : (s.oid, x.2) = x := Prod.ext he.symm rfl
      exact lookup_eq_none_iff_not_mem.mp hnew.2 x.2 (hentry ▸ hm)
    · rw [index_sprout, if_pos hnew, List.mem_append, ht.entry, first_sprout, and_or_left,
        List.mem_singleton, Prod.mk.injEq]
      refine or_congr_right ⟨?_, ?_⟩
      · rintro ⟨rfl, rfl⟩
        exact ⟨hnew.1, rfl, rfl, hnone⟩
      · rintro ⟨-, rfl, rfl, -⟩
        exact ⟨rfl, rfl⟩
  · refine ⟨by rw [index_sprout, if_neg hnew]; exact ht.keys, fun oid h => ?_⟩
    rw [index_sprout, if_neg hnew, ht.entry, first_sprout, and_or_left]
    refine (or_iff_left ?_).symm
    rintro ⟨hoid, rfl, rfl, hnone⟩
    exact hnew ⟨hoid, ht.lookup_eq_none_iff.mpr (.inr hnone)⟩

end

/-! ## Growing -/

mutual

/-- The owner is registered before its regions and children grow. -/
theorem Indexed.place (path : String) (next : Nat) (parent : Option Handle) {t : Tree}
    (ht : t.Indexed) : (o : Outline) → (t.place path next parent o).2.Indexed
  | ⟨s, regions, children⟩ => by
    have hregions := (ht.sprout s path next parent).placeRegions s path next t.size regions
    exact (hregions.placeAll path (next + 1) (some t.size) children).extend _ _

theorem Indexed.placeRegions (s : Sketch) (path : String) (sequence : Nat) (owner : Handle)
    {t : Tree} (ht : t.Indexed) : (regions : List (Slot × List Outline)) →
      (t.placeRegions s path sequence owner regions).Indexed
  | [] => ht
  | (slot, shapes) :: rest =>
    ((ht.placeAll (s.regionPath path sequence slot) 0 (some owner) shapes).furnish owner slot
      _).placeRegions s path sequence owner rest

theorem Indexed.placeAll (path : String) (next : Nat) (parent : Option Handle) {t : Tree}
    (ht : t.Indexed) : (os : List Outline) → (t.placeAll path next parent os).tree.Indexed
  | [] => ht
  | o :: rest => (ht.place path next parent o).placeAll path _ parent rest

end

end Orchestration.Shape.Tree
