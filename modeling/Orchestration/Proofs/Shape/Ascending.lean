import Orchestration.Proofs.Shape.Construct
import Orchestration.Proofs.Shape.Decision
import Orchestration.Proofs.Shape.Plain
import Orchestration.Proofs.Shape.Switch

/-!
# Orchestration.Proofs.Shape.Ascending

Where sequence numbers ascend along the lists of a tree.

* `Tree.Ascending`, `Tree.Orderly` — along one list of handles; along all lists of a node.
* `Outline.numbers` — the sequence numbers of outlines side by side.
* `Unmixed` — of the containers of a switch with one slot, none with several shapes stands before
  another with any.
* `Tree.read_orderly` — of all shapes that are read only switches can have lists that do not ascend,
  and those have that are mixed.
-/

namespace Orchestration.Shape

open Designer (Element)

/-- Along the list sequence numbers do not fall. -/
def Tree.Ascending (t : Tree) (hs : List Handle) : Prop :=
  ((t.resolve hs).map Node.sequence).Pairwise (· ≤ ·)

instance (t : Tree) : DecidablePred t.Ascending := fun hs =>
  inferInstanceAs (Decidable (((t.resolve hs).map Node.sequence).Pairwise (· ≤ ·)))

/-- They do not along the children of a node, nor along any of its regions. -/
structure Tree.Orderly (t : Tree) (n : Node) : Prop where
  children : t.Ascending n.children
  slots : ∀ slot ∈ n.payload.slots, t.Ascending slot.2

instance (t : Tree) : DecidablePred t.Orderly := fun n =>
  decidable_of_iff (t.Ascending n.children ∧ ∀ slot ∈ n.payload.slots, t.Ascending slot.2)
    ⟨fun h => ⟨h.1, h.2⟩, fun h => ⟨h.1, h.2⟩⟩

/-- The containers of a switch that have a slot in common have one shape at most, but for the last
one with any. -/
def Unmixed (e : Element) : Prop :=
  (e.select decisionTypes).Pairwise fun c c' => caseKey? c = caseKey? c' →
    sketches c'.children ≠ [] → (sketches c.children).length ≤ 1

instance : DecidablePred Unmixed := fun e =>
  inferInstanceAs (Decidable ((e.select decisionTypes).Pairwise fun c c' =>
    caseKey? c = caseKey? c' → sketches c'.children ≠ [] → (sketches c.children).length ≤ 1))

/-! ## Numbers in one context -/

namespace Outline

/-- The sequence numbers of outlines side by side, the first of which takes `next`. -/
def numbers (next : Nat) : List Outline → List Int
  | [] => []
  | o :: rest => next :: numbers (next + o.width) rest

theorem width_pos (o : Outline) : 0 < o.width := by
  obtain ⟨s, regions, children⟩ := o
  rw [width]
  omega

theorem le_of_mem_numbers {next : Nat} {os : List Outline} {k : Int} (hk : k ∈ numbers next os) :
    (next : Int) ≤ k := by
  induction os generalizing next with
  | nil => cases hk
  | cons o rest ih =>
    rcases List.mem_cons.mp hk with rfl | hk
    · exact Int.le_refl _
    · have hlater := ih hk
      omega

theorem pairwise_numbers (next : Nat) (os : List Outline) :
    (numbers next os).Pairwise (· ≤ ·) := by
  induction os generalizing next with
  | nil => exact .nil
  | cons o rest ih =>
    refine .cons (fun k hk => ?_) (ih _)
    have hlater := le_of_mem_numbers hk
    omega

/-- Each context starts from zero: numbers of two contexts ascend when the first one has a single
shape, or one of them has none. -/
theorem numbers_le_iff (os os' : List Outline) :
    (∀ k ∈ numbers 0 os, ∀ k' ∈ numbers 0 os', k ≤ k') ↔ (os' ≠ [] → os.length ≤ 1) := by
  cases os' with
  | nil => simp [numbers]
  | cons o' rest' =>
    cases os with
    | nil => simp [numbers]
    | cons o rest =>
      cases rest with
      | nil =>
        refine iff_of_true (fun k hk k' hk' => ?_) fun _ => Nat.le_refl _
        obtain rfl := List.mem_singleton.mp hk
        exact le_of_mem_numbers hk'
      | cons p rest =>
        -- the second shape of the first context has a number above zero
        refine iff_of_false (fun h => ?_) fun h => ?_
        · have hsecond : ((0 + o.width : Nat) : Int) ∈ numbers 0 (o :: p :: rest) :=
            List.mem_cons_of_mem _ (List.mem_cons_self ..)
          have hle := h _ hsecond 0 (List.mem_cons_self ..)
          have hpos := o.width_pos
          omega
        · have hlength := h (List.cons_ne_nil _ _)
          simp at hlength

theorem length_ofElements (es : List Element) :
    (ofElements es).length = (sketches es).length := by
  rw [ofElements_eq, sketches]
  induction es with
  | nil => rfl
  | cons e rest ih =>
    cases ho : ofElement? e with
    | none => rw [List.filterMap_cons_none ho, List.filterMap_cons_none
        ((ofElement?_eq_none_iff e).mp ho), ih]
    | some o =>
      obtain ⟨s, hs, -⟩ := sketch_of_ofElement? ho
      rw [List.filterMap_cons_some ho, List.filterMap_cons_some hs, List.length_cons,
        List.length_cons, ih]

theorem ofElements_eq_nil_iff (es : List Element) : ofElements es = [] ↔ sketches es = [] := by
  rw [← List.length_eq_zero_iff, length_ofElements, List.length_eq_zero_iff]

end Outline

namespace Tree

variable {t : Tree} {owner : Handle}

theorem ascending_cons_iff {h : Handle} {n : Node} (hn : t.node? h = some n) {rest : List Handle} :
    t.Ascending (h :: rest) ↔
      (∀ x ∈ rest, ∀ m, t.node? x = some m → n.sequence ≤ m.sequence) ∧ t.Ascending rest := by
  rw [Ascending, resolve, List.filterMap_cons_some hn, List.map_cons, List.pairwise_cons]
  refine and_congr_left' ⟨fun h x hx m hm => ?_, fun h k hk => ?_⟩
  · exact h _ (List.mem_map_of_mem (List.mem_filterMap.mpr ⟨x, hx, hm⟩))
  · obtain ⟨m, hm, rfl⟩ := List.mem_map.mp hk
    obtain ⟨x, hx, hxm⟩ := List.mem_filterMap.mp hm
    exact h x hx m hxm

theorem sequences_of_keeps {start : Nat} {path : String} {next : Nat} {parent : Option Handle}
    {os : List Outline} (h : t.Keeps (Outline.laidAll start path next parent os)) :
    (t.resolve (Outline.handles start os)).map Node.sequence = Outline.numbers next os := by
  induction os generalizing start next with
  | nil => rfl
  | cons o rest ih =>
    rw [Outline.laidAll] at h
    obtain ⟨regions, children, uses, hn⟩ := keeps_owner (h.subset (List.subset_append_left ..))
    have hrest := ih (h.subset (List.subset_append_right ..))
    rw [Outline.handles, resolve, List.filterMap_cons_some hn, List.map_cons]
    exact congrArg _ hrest

theorem ascending_of_keeps {start : Nat} {path : String} {next : Nat} {parent : Option Handle}
    {os : List Outline} (h : t.Keeps (Outline.laidAll start path next parent os)) :
    t.Ascending (Outline.handles start os) := by
  rw [Ascending, sequences_of_keeps h]
  exact Outline.pairwise_numbers next os

theorem Lodges.sequences {os : List Outline} {hs : List Handle} (h : t.Lodges owner os hs) :
    (t.resolve hs).map Node.sequence = Outline.numbers 0 os := by
  obtain ⟨start, path, rfl, hkeeps⟩ := h
  exact sequences_of_keeps hkeeps

theorem Lodges.ascending {os : List Outline} {hs : List Handle} (h : t.Lodges owner os hs) :
    t.Ascending hs := by
  rw [Ascending, h.sequences]
  exact Outline.pairwise_numbers 0 os

/-! ## Slots with several containers -/

theorem resolve_flatMap {α : Type} (f : α → List Handle) (xs : List α) :
    t.resolve (xs.flatMap f) = xs.flatMap fun x => t.resolve (f x) := List.filterMap_flatMap

/-- The shapes of containers, one container after the other. -/
theorem ascending_gathered_iff {f : Element → Prop} [DecidablePred f]
    {parts : List (Element × List Handle)}
    (h : ∀ p ∈ parts, t.Renders owner p.1.children p.2) :
    t.Ascending (gathered f parts) ↔ parts.Pairwise fun p p' => f p.1 → f p'.1 →
      sketches p'.1.children ≠ [] → (sketches p.1.children).length ≤ 1 := by
  have hparts : ∀ p ∈ parts.filter fun p => f p.1,
      ((t.resolve p.2).map Node.sequence).Pairwise (· ≤ ·) := fun p hp =>
    (h p (List.mem_filter.mp hp).1).lodges.ascending
  rw [Ascending, gathered, resolve_flatMap, List.map_flatMap, List.pairwise_flatMap,
    and_iff_right hparts, List.pairwise_filter]
  refine List.Pairwise.iff_of_mem fun {p p'} hp hp' => ?_
  rw [(h p hp).lodges.sequences, (h p' hp').lodges.sequences, Outline.numbers_le_iff,
    Outline.length_ofElements, Ne, Outline.ofElements_eq_nil_iff]
  simp

/-- Containers share a slot when they have the same value, or are defaults both. -/
theorem pairwise_slots_iff {parts : List (Element × List Handle)} {R : Element → Element → Prop} :
    (∀ key ∈ caseKeys (parts.map Prod.fst), parts.Pairwise fun p p' =>
        (¬DefaultCase p.1 ∧ expressionOf p.1 = key) →
          (¬DefaultCase p'.1 ∧ expressionOf p'.1 = key) → R p.1 p'.1) ∧
      (parts.Pairwise fun p p' => DefaultCase p.1 → DefaultCase p'.1 → R p.1 p'.1) ↔
    (parts.map Prod.fst).Pairwise fun c c' => caseKey? c = caseKey? c' → R c c' := by
  rw [List.pairwise_map]
  simp only [List.pairwise_iff_forall_sublist]
  constructor
  · rintro ⟨hcases, hdefault⟩ p p' hsub hsame
    have hp : p.1 ∈ parts.map Prod.fst := List.mem_map_of_mem (hsub.subset (List.mem_cons_self ..))
    simp only [caseKey?_eq] at hsame
    by_cases hc : DefaultCase p.1
    · by_cases hc' : DefaultCase p'.1
      · exact hdefault hsub hc hc'
      · rw [if_pos hc, if_neg hc'] at hsame
        cases hsame
    · by_cases hc' : DefaultCase p'.1
      · rw [if_neg hc, if_pos hc'] at hsame
        cases hsame
      · rw [if_neg hc, if_neg hc'] at hsame
        refine hcases _ ?_ hsub ⟨hc, rfl⟩ ⟨hc', (Option.some.inj hsame).symm⟩
        rw [caseKeys, List.mem_eraseDups]
        exact List.mem_map_of_mem (List.mem_filter.mpr ⟨hp, by simpa using hc⟩)
  · intro h
    refine ⟨fun key _ => ?_, ?_⟩
    · intro p p' hsub hp hp'
      refine h hsub ?_
      rw [caseKey?_eq, caseKey?_eq, if_neg hp.1, if_neg hp'.1, hp.2, hp'.2]
    · intro p p' hsub hp hp'
      refine h hsub ?_
      rw [caseKey?_eq, caseKey?_eq, if_pos hp, if_pos hp']

/-! ## One node -/

namespace Furnished

variable {h : Handle} {e : Element} {o : Outline} {n : Node} {rs : List (Slot × List Handle)}

theorem region_ascending (hf : t.Furnished h o n rs) : ∀ r ∈ rs, t.Ascending r.2 := by
  intro r hr
  obtain ⟨r', -, hregion⟩ := exists_related hf.regions hr
  exact hregion.lodges.ascending

theorem ascending_of_no_regions (hf : t.Furnished h o n rs) (ho : o.Proper)
    (hnone : o.regions = []) : ∀ slot ∈ n.payload.slots, t.Ascending slot.2 := by
  have hrs := hf.regions
  rw [hnone] at hrs
  cases hrs
  have hhandles : n.payload.handles = [] := (hf.handles_perm ho).eq_nil
  intro slot hslot
  rw [List.flatMap_eq_nil_iff.mp hhandles slot hslot]
  exact .nil

theorem ascending_branches {s : Sketch} {regions : List (Slot × List Outline)}
    (hf : t.Furnished h ⟨s, regions, []⟩ n rs) (hs : Form.listen.sketch? e = some s) :
    ∀ slot ∈ n.payload.slots, t.Ascending slot.2 := by
  have hslots : ∀ (number : Nat) (branches : List (List Handle)),
      ∀ slot ∈ Payload.numberBranches number branches, slot.2 ∈ branches := by
    intro number branches
    induction branches generalizing number with
    | nil => exact List.forall_mem_nil _
    | cons b rest ih =>
      exact List.forall_mem_cons.mpr ⟨List.mem_cons_self .., fun slot hslot =>
        List.mem_cons_of_mem _ (ih _ slot hslot)⟩
  obtain ⟨uses, hp⟩ := hf.payload
  have hbare : s.payload = .listen [] := Form.payload_of_sketch? hs
  dsimp only at hp
  rw [hbare, Payload.furnish_listen, Payload.bindAll_of_not_receive uses (by simp)] at hp
  rw [hp]
  intro slot hslot
  obtain ⟨r, hr, hbranch⟩ := List.mem_filterMap.mp (hslots 1 _ slot hslot)
  split at hbranch
  · rw [← Option.some.inj hbranch]
    exact hf.region_ascending r hr
  · cases hbranch

/-- Shapes of the containers of a switch ascend in the slots when the containers are unmixed. -/
theorem ascending_cases_iff {s : Sketch}
    (hf : t.Furnished h ⟨s, Outline.cases 1 ((e.select decisionTypes).map fun c =>
      (c, Outline.ofElements c.children)), []⟩ n rs) (hs : Form.switch.sketch? e = some s) :
    (∀ slot ∈ n.payload.slots, t.Ascending slot.2) ↔ Unmixed e := by
  obtain ⟨parts, hcs, -, hrenders, hkeyed, hdefault⟩ := exists_parts hf.regions
  have hp := hf.switched hs
  rw [hkeyed, hdefault, grouped_eq_casesOf] at hp
  rw [hp, Payload.slots, List.forall_mem_append, List.forall_mem_singleton,
    ascending_gathered_iff hrenders, Unmixed, ← hcs, ← pairwise_slots_iff]
  refine and_congr_left' ?_
  simp only [casesOf, List.map_map, List.forall_mem_map]
  refine forall₂_congr fun key _ => ?_
  exact ascending_gathered_iff (f := fun c => ¬DefaultCase c ∧ expressionOf c = key) hrenders

theorem slots_ascending_iff (hf : t.Furnished h o n rs) (ho : Outline.ofElement? e = some o) :
    (∀ slot ∈ n.payload.slots, t.Ascending slot.2) ↔
      (Form.ofType e.type = .switch → Unmixed e) := by
  have hproper := (Outline.ofElement_proper e).1 o ho
  obtain ⟨s, hs, rfl⟩ := Outline.ofElement?_eq_some ho
  cases hform : Form.ofType e.type with
  | switch =>
    rw [hform] at hf hs
    rw [hf.ascending_cases_iff hs]
    exact ⟨fun h _ => h, fun h => h rfl⟩
  | decide =>
    rw [hform] at hf
    obtain ⟨hp, hwhenTrue, hwhenFalse⟩ := hf.decided rfl rfl
    refine iff_of_true ?_ fun h => by cases h
    rw [hp, Payload.slots]
    simpa using ⟨hwhenTrue.lodges.ascending, hwhenFalse.lodges.ascending⟩
  | listen =>
    rw [hform] at hf hs
    exact iff_of_true (hf.ascending_branches hs) fun h => by cases h
  | construct =>
    rw [hform] at hf hs
    obtain ⟨inner, hp, hlodges⟩ := hf.constructed hs
    refine iff_of_true ?_ fun h => by cases h
    rw [hp, Payload.slots]
    simpa using hlodges.ascending
  | _ =>
    rw [hform] at hf hproper
    exact iff_of_true (hf.ascending_of_no_regions hproper rfl) fun h => by cases h

end Furnished

/-! ## Reading -/

theorem Keeps.children_ascending {start : Nat} {path : String} {next : Nat}
    {parent : Option Handle} {o : Outline} (h : t.Keeps (o.laid start path next parent)) :
    ∃ n, t.node? start = some n ∧ t.Ascending n.children := by
  obtain ⟨s, regions, children⟩ := o
  rw [Outline.laid] at h
  obtain ⟨uses, hn⟩ := h _ (List.mem_cons_self ..)
  have hbelow : t.Keeps (Outline.laidAll (start + 1 + Outline.countRegions regions) path (next + 1)
      (some start) children) := h.subset fun x hx => by simp [hx]
  exact ⟨_, hn, ascending_of_keeps hbelow⟩

end Tree

/-- Every outline is that of an element, or stands inside a construct and has no regions. -/
theorem Outline.mem_flatAll_cases {es : List Element} {o : Outline}
    (ho : o ∈ flatAll (ofElements es)) :
    (o.regions = [] ∧ o.Proper) ∨ ∃ e, ofElement? e = some o := by
  refine (forall_flat (P := fun o => (o.regions = [] ∧ o.Proper) ∨ ∃ e, ofElement? e = some o)
    (Q := fun _ => True) ?_ ?_ ⟨none, none, [], es⟩ fun _ _ => trivial).2 o ho
  · intro e s _ hs
    exact .inr ⟨e, by rw [ofElement?_eq, ← Sketch.ofElement?, hs, Option.map_some]⟩
  · intro e s _ hs
    exact .inl ⟨rfl, proper_leaf (Form.fresh_of_sketch? (Form.regular_ofType e.type) hs)⟩

theorem Form.lower_of_ofType_switch {type : String} (h : ofType type = .switch) :
    Text.lower type = "switch" := by
  have htable : ∀ row ∈ table, row.2 = .switch → row.1 = "switch" := by decide
  rcases ofType_cases type with hf | hf | hrow | ⟨hf, -⟩
  · cases h.symm.trans hf
  · cases h.symm.trans hf
  · exact htable _ hrow h
  · cases h.symm.trans hf

namespace Tree

section

variable (t : Tree) (c : Context) {parent : Option Handle} (es : List Element)
  (roots : List Handle)

/-- The lists of a node ascend, unless it is that of a switch with mixed containers. -/
theorem read_orderly (hparent : ∀ p, parent = some p → p < t.size) {i : Nat} {o : Outline}
    (ho : (Outline.flatAll (Outline.ofElements es))[i]? = some o) :
    ∃ n, (t.read c parent es roots).node? (t.size + i) = some n ∧
      (∀ e, Outline.ofElement? e = some o →
        ((t.read c parent es roots).Orderly n ↔ (Text.lower e.type = "switch" → Unmixed e))) ∧
      ((∀ e, Outline.ofElement? e ≠ some o) → (t.read c parent es roots).Orderly n) := by
  obtain ⟨n, rs, hf⟩ := t.read_furnished c es roots hparent ho
  obtain ⟨path, next, p, hkeeps⟩ := t.read_keeps c es roots hparent ho
  obtain ⟨n', hn', hchildren⟩ := hkeeps.children_ascending
  obtain rfl : n = n' := Option.some.inj (hf.node.symm.trans hn')
  refine ⟨n, hf.node, fun e he => ⟨fun horderly htype => ?_, fun hunmixed => ⟨hchildren, ?_⟩⟩,
    fun hnone => ⟨hchildren, ?_⟩⟩
  · have hform : Form.ofType e.type = .switch := Form.ofType_of_mem_table (by rw [htype]; decide)
    exact (hf.slots_ascending_iff he).mp horderly.slots hform
  · exact (hf.slots_ascending_iff he).mpr fun hform =>
      hunmixed (Form.lower_of_ofType_switch hform)
  · rcases Outline.mem_flatAll_cases (List.mem_of_getElem? ho) with ⟨hregions, hproper⟩ | ⟨e, he⟩
    · exact hf.ascending_of_no_regions hproper hregions
    · exact absurd he (hnone e)

end

end Tree

end Orchestration.Shape
