import Orchestration.Proofs.Shape.Index

/-!
# Orchestration.Proofs.Shape.History

Trees that come about by changes in any order: nodes are added, and whatever nodes there are get
registered, attached and adopted.

* `Change`, `Tree.run` — one of the four changes, and a list of them.
* `Change.unlinked_apply`, `Change.index_apply` — all that a change does to the nodes, links left
  aside, and to the index.
* `Tree.Extends` — nodes and entries stay where they are. Every run extends the tree it starts with.
* `Tree.Keyed` — what the index holds in every tree that comes about so.
* `Tree.lookup_run` — an identifier belongs to the first registration that names it, whatever the
  order in which the nodes have been added.
-/

namespace Orchestration.Shape

/-- One of the ways in which a tree changes. -/
inductive Change where
  | add (s : Sketch) (path : String) (sequence : Int)
  | register (h : Handle)
  | attach (child parent : Handle)
  | adopt (hs : List Handle) (owner : Handle)

namespace Change

def apply (t : Tree) : Change → Tree
  | add s path sequence => t.add (s.node path sequence none)
  | register h => t.register h
  | attach child parent => t.attach child parent
  | adopt hs owner => t.adopt hs owner

/-- The handles a change refers to. -/
def handles : Change → List Handle
  | add _ _ _ => []
  | register h => [h]
  | attach child parent => [child, parent]
  | adopt hs owner => owner :: hs

/-- The node that a change adds. -/
def created? : Change → Option Node
  | add s path sequence => some (s.node path sequence none)
  | _ => none

/-- The handle that a change registers, whether or not an entry comes of it. -/
def registered? : Change → Option Handle
  | register h => some h
  | _ => none

/-- The entry that a change makes in the index. -/
def indexed? (t : Tree) : Change → Option (String × Handle)
  | register h => if t.registers h then (t.oid? h).map fun oid => (oid, h) else none
  | _ => none

end Change

/-- A node without the links that attaching and adopting set. -/
def Node.unlinked (n : Node) : Node := { n with parent := none, children := [] }

namespace Tree

def run (t : Tree) (cs : List Change) : Tree := cs.foldl Change.apply t

/-- Every change refers to nodes that are there by then. -/
def Admits (t : Tree) : List Change → Prop
  | [] => True
  | c :: cs => (∀ h ∈ c.handles, h < t.size) ∧ Admits (c.apply t) cs

instance decidableAdmits : (t : Tree) → (cs : List Change) → Decidable (t.Admits cs)
  | _, [] => inferInstanceAs (Decidable True)
  | t, c :: cs =>
    have := decidableAdmits (c.apply t) cs
    inferInstanceAs (Decidable ((∀ h ∈ c.handles, h < t.size) ∧ (c.apply t).Admits cs))

variable {t t' t'' : Tree}

theorem run_append (t : Tree) (cs cs' : List Change) : t.run (cs ++ cs') = (t.run cs).run cs' :=
  List.foldl_append

theorem admits_append {cs cs' : List Change} :
    t.Admits (cs ++ cs') ↔ t.Admits cs ∧ (t.run cs).Admits cs' := by
  induction cs generalizing t with
  | nil => simp [Admits, run]
  | cons c cs ih =>
    rw [List.cons_append, Admits, ih, Admits, and_assoc]
    rfl

/-! ## Registering -/

theorem registers_iff {h : Handle} :
    t.registers h = true ↔ ∃ oid, t.oid? h = some oid ∧ oid ≠ "" ∧ t.lookup oid = none := by
  cases hn : t.node? h <;> simp [registers, oid?, hn]

/-- Either the node enters the index at its end, or nothing happens. -/
theorem register_cases (t : Tree) (h : Handle) :
    t.registers h = false ∧ t.register h = t ∨
      ∃ oid, t.registers h = true ∧ t.oid? h = some oid ∧
        t.register h = { t with index := t.index ++ [(oid, h)] } := by
  cases hn : t.node? h with
  | none => exact .inl ⟨by simp [registers, hn], by simp [register, hn]⟩
  | some n =>
    have ho : t.oid? h = some n.oid := by rw [oid?, hn, Option.map_some]
    by_cases hnew : n.oid ≠ "" ∧ t.lookup n.oid = none
    · exact .inr ⟨n.oid, registers_iff.mpr ⟨n.oid, ho, hnew⟩, ho, by simp [register, hn, hnew]⟩
    · refine .inl ⟨Bool.eq_false_iff.mpr fun hr => hnew ?_, by simp [register, hn, hnew]⟩
      obtain ⟨oid, ho', hnew'⟩ := registers_iff.mp hr
      exact Option.some.inj (ho.symm.trans ho') ▸ hnew'

/-! ## One change -/

theorem unlinked_update (t : Tree) (h : Handle) {f : Node → Node}
    (hf : ∀ n, (f n).unlinked = n.unlinked) :
    (t.update h f).list.map Node.unlinked = t.list.map Node.unlinked := by
  rw [list_update]
  refine List.ext_getElem? fun i => ?_
  rw [List.getElem?_map, List.getElem?_map, List.getElem?_modify]
  split
  · simp [Function.comp_def, hf]
  · simp

theorem adopt_keeps (hs : List Handle) (owner : Handle) :
    (t.adopt hs owner).list.map Node.unlinked = t.list.map Node.unlinked ∧
      (t.adopt hs owner).index = t.index := by
  rw [adopt]
  induction hs generalizing t with
  | nil => exact ⟨rfl, rfl⟩
  | cons h hs ih =>
    rw [List.foldl_cons]
    exact ⟨ih.1.trans (t.unlinked_update h fun _ => rfl), ih.2⟩

end Tree

namespace Change

variable {t : Tree}

/-- A change adds its node at the end, and leaves everything but links alone. -/
theorem unlinked_apply (c : Change) : (c.apply t).list.map Node.unlinked =
    t.list.map Node.unlinked ++ c.created?.toList := by
  cases c with
  | add s path sequence => simp [apply, created?, Node.unlinked, Sketch.node]
  | register h => simp [apply, created?]
  | attach child parent =>
    rw [apply, Tree.attach, Tree.unlinked_update, Tree.unlinked_update]
    · exact (List.append_nil _).symm
    · exact fun _ => rfl
    · exact fun _ => rfl
  | adopt hs owner => exact (Tree.adopt_keeps hs owner).1.trans (List.append_nil _).symm

/-- A change makes its entry at the end, and leaves the other ones alone. -/
theorem index_apply (c : Change) : (c.apply t).index = t.index ++ (c.indexed? t).toList := by
  cases c with
  | add s path sequence => exact (List.append_nil _).symm
  | register h =>
    rcases t.register_cases h with ⟨hr, he⟩ | ⟨oid, hr, ho, he⟩
    · simp [apply, indexed?, hr, he]
    · simp [apply, indexed?, hr, ho, he]
  | attach child parent => exact (List.append_nil _).symm
  | adopt hs owner => exact (Tree.adopt_keeps hs owner).2.trans (List.append_nil _).symm

/-- The entry that a change makes carries the identifier of an existing node, one that is neither
empty nor taken. -/
theorem of_indexed? {c : Change} {oid : String} {h : Handle} (he : c.indexed? t = some (oid, h)) :
    oid ≠ "" ∧ t.oid? h = some oid ∧ t.lookup oid = none := by
  cases c with
  | register h' =>
    rw [indexed?] at he
    split at he
    · next hr =>
      obtain ⟨oid', ho, hoid, hnone⟩ := Tree.registers_iff.mp hr
      rw [ho, Option.map_some, Option.some.injEq, Prod.mk.injEq] at he
      obtain ⟨rfl, rfl⟩ := he
      exact ⟨hoid, ho, hnone⟩
    · cases he
  | _ => cases he

end Change

namespace Tree

variable {t t' t'' : Tree}

/-! ## Nodes and entries stay -/

/-- Later nodes and entries come after the ones there are, and these keep all but their links. -/
structure Extends (t t' : Tree) : Prop where
  nodes : t.list.map Node.unlinked <+: t'.list.map Node.unlinked
  entries : t.index <+: t'.index

namespace Extends

theorem refl (t : Tree) : t.Extends t := ⟨List.prefix_rfl, List.prefix_rfl⟩

theorem trans (h : t.Extends t') (h' : t'.Extends t'') : t.Extends t'' :=
  ⟨h.nodes.trans h'.nodes, h.entries.trans h'.entries⟩

theorem apply (t : Tree) (c : Change) : t.Extends (c.apply t) :=
  ⟨⟨_, (c.unlinked_apply).symm⟩, ⟨_, (c.index_apply).symm⟩⟩

theorem run (t : Tree) (cs : List Change) : t.Extends (t.run cs) := by
  induction cs generalizing t with
  | nil => exact refl t
  | cons c cs ih => exact (apply t c).trans (ih (c.apply t))

theorem node? (he : t.Extends t') {h : Handle} {n : Node} (hn : t.node? h = some n) :
    ∃ n', t'.node? h = some n' ∧ n'.unlinked = n.unlinked := by
  obtain ⟨added, hadded⟩ := he.nodes
  have hold : (t.list.map Node.unlinked)[h]? = some n.unlinked := by
    rw [List.getElem?_map, ← node?_eq_getElem?, hn, Option.map_some]
  have hnew : (t'.list.map Node.unlinked)[h]? = some n.unlinked := by
    rw [← hadded, List.getElem?_append_left (List.getElem?_eq_some_iff.mp hold).1, hold]
  rw [List.getElem?_map, ← node?_eq_getElem?] at hnew
  exact Option.map_eq_some_iff.mp hnew

theorem oid? (he : t.Extends t') {h : Handle} (hh : h < t.size) : t'.oid? h = t.oid? h := by
  obtain ⟨n, hn⟩ := exists_node? hh
  obtain ⟨n', hn', hu⟩ := he.node? hn
  rw [Tree.oid?, Tree.oid?, hn, hn', Option.map_some, Option.map_some]
  exact congrArg (fun n => some n.oid) hu

theorem lookup (he : t.Extends t') {oid : String} {h : Handle} (hl : t.lookup oid = some h) :
    t'.lookup oid = some h := by
  obtain ⟨added, hadded⟩ := he.entries
  rw [Tree.lookup] at hl
  rw [Tree.lookup, ← hadded, List.lookup_append, hl, Option.some_or]

end Extends

theorem unlinked_run (t : Tree) (cs : List Change) : (t.run cs).list.map Node.unlinked =
    t.list.map Node.unlinked ++ cs.filterMap Change.created? := by
  induction cs generalizing t with
  | nil => exact (List.append_nil _).symm
  | cons c cs ih =>
    rw [run, List.foldl_cons, ← run, ih, c.unlinked_apply, List.append_assoc]
    cases hc : c.created? <;> simp [hc]

/-! ## The index -/

/-- Every entry of the index has a key of its own, the identifier of the node it points to. -/
structure Keyed (t : Tree) : Prop where
  keys : (t.index.map Prod.fst).Nodup
  entry : ∀ oid h, (oid, h) ∈ t.index → oid ≠ "" ∧ t.oid? h = some oid

namespace Keyed

theorem empty : Tree.empty.Keyed := ⟨List.nodup_nil, fun _ _ hm => absurd hm List.not_mem_nil⟩

theorem lookup_empty_key (ht : t.Keyed) : t.lookup "" = none :=
  lookup_eq_none_iff_not_mem.mpr fun h hm => (ht.entry "" h hm).1 rfl

theorem apply (ht : t.Keyed) (c : Change) : (c.apply t).Keyed := by
  have hkeep := Extends.apply t c
  constructor
  · rw [c.index_apply, List.map_append, List.nodup_append]
    refine ⟨ht.keys, by cases c.indexed? t <;> simp, ?_⟩
    rintro key hkey key' hkey' rfl
    obtain ⟨⟨_, h'⟩, he, rfl⟩ := List.mem_map.mp hkey'
    obtain ⟨⟨_, h⟩, hm, rfl⟩ := List.mem_map.mp hkey
    have hnew := Change.of_indexed? (Option.mem_toList.mp he)
    exact lookup_eq_none_iff_not_mem.mp hnew.2.2 h hm
  · intro oid h hm
    rw [c.index_apply, List.mem_append] at hm
    have hold : oid ≠ "" ∧ t.oid? h = some oid := by
      rcases hm with hm | hm
      · exact ht.entry oid h hm
      · have hnew := Change.of_indexed? (Option.mem_toList.mp hm)
        exact ⟨hnew.1, hnew.2.1⟩
    exact ⟨hold.1, (hkeep.oid? (oid?_lt_size hold.2)).trans hold.2⟩

theorem run (ht : t.Keyed) (cs : List Change) : (t.run cs).Keyed := by
  induction cs generalizing t with
  | nil => exact ht
  | cons c cs ih => exact ih (ht.apply c)

end Keyed

/-! ## Looking up -/

/-- A registration answers for the identifier of its node, unless that one is taken already. -/
theorem lookup_apply (c : Change) {oid : String} (hoid : oid ≠ "") : (c.apply t).lookup oid =
    (t.lookup oid).or (c.registered?.filter fun h => t.oid? h == some oid) := by
  rw [lookup, c.index_apply, List.lookup_append, ← lookup]
  cases hl : t.lookup oid with
  | some h => rfl
  | none =>
    rw [Option.none_or, Option.none_or]
    cases c with
    | register h =>
      by_cases ho : t.oid? h = some oid
      · have hr : t.registers h = true := registers_iff.mpr ⟨oid, ho, hoid, hl⟩
        simp [Change.indexed?, Change.registered?, Option.filter_some, hr, ho]
      · have hother : (t.oid? h == some oid) = false := beq_false_of_ne ho
        rw [Change.registered?, Option.filter_some, hother, Change.indexed?]
        cases hoid' : t.oid? h with
        | none => simp
        | some oid' =>
          have hne : oid ≠ oid' := fun he => ho (he ▸ hoid')
          split <;> simp [List.lookup_cons, beq_false_of_ne hne]
    | _ => rfl

theorem lookup_run {cs : List Change} (hcs : t.Admits cs) {oid : String} (hoid : oid ≠ "") :
    (t.run cs).lookup oid = (t.lookup oid).or
      ((cs.filterMap Change.registered?).find? fun h => (t.run cs).oid? h == some oid) := by
  induction cs generalizing t with
  | nil => exact (Option.or_none).symm
  | cons c cs ih =>
    have hrun : t.run (c :: cs) = (c.apply t).run cs := rfl
    rw [hrun, ih hcs.2, lookup_apply c hoid, Option.or_assoc]
    congr 1
    cases c with
    | register h =>
      -- the node carries the same identifier at the end
      have hkeep := (Extends.run t (.register h :: cs)).oid? (hcs.1 h List.mem_cons_self)
      rw [hrun] at hkeep
      rw [show (Change.register h :: cs).filterMap Change.registered? =
        h :: cs.filterMap Change.registered? from rfl, List.find?_cons, hkeep, Change.registered?,
        Option.filter_some]
      cases t.oid? h == some oid <;> rfl
    | _ => rfl

/-! ## From the empty tree -/

/-- Whatever has been done to a tree: its nodes are the ones that were added, in that order, and
differ in nothing but links; nodes and entries stay from then on; a registration either makes its
entry or does nothing; and an identifier is looked up among the registrations, the first of which
counts. -/
theorem run_of_admits {cs : List Change} (hcs : empty.Admits cs) :
    (empty.run cs).list.map Node.unlinked = cs.filterMap Change.created? ∧
    (∀ before after, cs = before ++ after → (empty.run before).Extends (empty.run cs) ∧
      ∀ oid h, (empty.run before).lookup oid = some h → (empty.run cs).lookup oid = some h) ∧
    (empty.run cs).Keyed ∧
    (∀ before h after, cs = before ++ .register h :: after →
      ∃ n, (empty.run before).node? h = some n ∧
        empty.run (before ++ [.register h]) =
          if (empty.run before).registers h then
            { empty.run before with index := (empty.run before).index ++ [(n.oid, h)] }
          else empty.run before) ∧
    ∀ oid, (empty.run cs).lookup oid =
      if oid = "" then none
      else (cs.filterMap Change.registered?).find? fun h => (empty.run cs).oid? h == some oid := by
  have hkeyed : (empty.run cs).Keyed := Keyed.empty.run cs
  refine ⟨unlinked_run empty cs, ?_, hkeyed, ?_, ?_⟩
  · rintro before after rfl
    have hkeep : (empty.run before).Extends (empty.run (before ++ after)) := by
      rw [run_append]
      exact Extends.run (empty.run before) after
    exact ⟨hkeep, fun oid h => hkeep.lookup⟩
  · rintro before h after rfl
    obtain ⟨n, hn⟩ := exists_node? ((admits_append.mp hcs).2.1 h List.mem_cons_self)
    refine ⟨n, hn, ?_⟩
    rw [run_append]
    change (empty.run before).register h = _
    rcases (empty.run before).register_cases h with ⟨hr, he⟩ | ⟨oid, hr, ho, he⟩
    · simp [hr, he]
    · have hoid : n.oid = oid := by simpa [oid?, hn] using ho
      rw [if_pos hr, he, hoid]
  · intro oid
    by_cases hoid : oid = ""
    · rw [if_pos hoid, hoid, hkeyed.lookup_empty_key]
    · rw [if_neg hoid, lookup_run hcs hoid]
      rfl

/-- Two groups and a delay; the second group is registered before the first, which carries the same
identifier, and the delay has none. -/
def lateRegistration : List Change :=
  [.add ⟨.group, "Group", "g", "Outer", .nothing⟩ "body" 0,
    .add ⟨.group, "Group", "g", "Inner", .nothing⟩ "body" 1,
    .register 1, .attach 1 0, .register 0,
    .add ⟨.delay, "Delay", "", "Wait", .delay "1"⟩ "body" 2,
    .register 2, .adopt [2] 1, .register 1]

theorem run_lateRegistration :
    empty.Admits lateRegistration ∧ (empty.run lateRegistration).lookup "g" = some 1 ∧
      (empty.run lateRegistration).lookup "" = none := by
  have hadmits : empty.Admits lateRegistration := by decide +kernel
  obtain ⟨-, -, -, -, hlookup⟩ := run_of_admits hadmits
  refine ⟨hadmits, (hlookup "g").trans ?_, (hlookup "").trans (if_pos rfl)⟩
  decide +kernel

end Tree

end Orchestration.Shape
