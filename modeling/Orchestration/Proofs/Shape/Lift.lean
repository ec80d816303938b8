import Orchestration.Proofs.Shape.Flatten
import Orchestration.Proofs.Shape.Relocation

/-!
# Orchestration.Proofs.Shape.Lift

A tree that holds the nodes of another from some handle on.

* `Tree.Lifts` — the nodes of one tree stand in another, moved up; what stands below them there is
  free.
* `Tree.Lifts.walk`, `Tree.Lifts.record` — walks from the moved handles are the moved walks, and
  records are the same: a record tells no handle.
* `Tree.Lifts.correlate` — binding correlation sets keeps the nodes so, if every use refers to the
  receive that it refers to in the other tree.
-/

namespace Orchestration.Shape

/-! ## Moved nodes -/

theorem Payload.fields_rename (f : Handle → Json) (g : Handle → Handle) (p : Payload) :
    (p.rename g).fields (fun hs => .arr (hs.map f)) =
      p.fields fun hs => .arr (hs.map fun h => f (g h)) := by
  cases p <;> simp [rename, fields, Function.comp_def]

/-- Entering a use into a content leaves the handles alone. -/
theorem Payload.enter_rename (g : Handle → Handle) (b : Binding) (p : Payload) :
    (p.enter b).rename g = (p.rename g).enter b := by
  cases p with
  | receive x activate initializes follows =>
    have hreceive : ∀ i f, (receive x activate i f).rename g = receive x activate i f :=
      fun _ _ => rfl
    rw [hreceive, enter_receive]
    split
    · rw [hreceive]
    · rw [hreceive]
  | _ => rfl

namespace Node

variable (k : Nat) (parent : Option Handle) (n : Node)

theorem moved_record (f : Handle → Json) :
    ((n.moved k parent).record fun hs => .arr (hs.map f)) =
      n.record fun hs => .arr (hs.map fun h => f (h + k)) := by
  rw [record, record, moved, Payload.fields_rename, List.map_map]
  rfl

theorem moved_bindings : (n.moved k parent).bindings = n.bindings := by
  rw [bindings, bindings, moved]
  cases n.payload <;> rfl

theorem moved_bindAll (bs : List Binding) :
    (n.bindAll bs).moved k parent = (n.moved k parent).bindAll bs := by
  have hpayload : ∀ p : Payload, (bs.foldl Payload.enter p).rename (· + k) =
      bs.foldl Payload.enter (p.rename (· + k)) := by
    induction bs with
    | nil => exact fun _ => rfl
    | cons b rest ih => exact fun p => by rw [List.foldl_cons, ih, Payload.enter_rename]; rfl
  rw [bindAll, bindAll, moved, hpayload]
  rfl

end Node

/-! ## Moved trees -/

namespace Tree

/-- From handle `k` on a tree holds the nodes of another, moved up. -/
structure Lifts (k : Nat) (t t' : Tree) : Prop where
  size : t'.size = t.size + k
  node? : ∀ h, t'.node? (h + k) = (t.node? h).map (Node.moved k none)

namespace Lifts

variable {k : Nat} {t t' : Tree} (hl : Lifts k t t')

include hl

theorem inside (h : Handle) : t'.inside (h + k) = (t.inside h).map (· + k) := by
  rw [Tree.inside, Tree.inside, hl.node?]
  cases t.node? h with
  | none => rfl
  | some n => exact n.moved_inside k none

theorem walkWithin (depth : Nat) (hs : List Handle) :
    t'.walkWithin depth (hs.map (· + k)) = (t.walkWithin depth hs).map (· + k) := by
  induction depth generalizing hs with
  | zero => rfl
  | succ depth ih =>
    rw [walkWithin_succ, walkWithin_succ, List.flatMap_map, List.map_flatMap]
    refine List.flatMap_congr fun h _ => ?_
    rw [hl.inside, ih, List.map_cons]

theorem recordWithin (depth : Nat) (h : Handle) :
    t'.recordWithin depth (h + k) = t.recordWithin depth h := by
  induction depth generalizing h with
  | zero => rfl
  | succ depth ih =>
    rw [Tree.recordWithin, Tree.recordWithin, hl.node?]
    cases t.node? h with
    | none => rfl
    | some n =>
      rw [Option.map_some]
      simp only [Node.moved_record, ih]

/-- The bound on the depth is larger in the larger tree, which makes no difference. -/
theorem walk (hr : t.Rising) (hs : List Handle) :
    t'.walk (hs.map (· + k)) = (t.walk hs).map (· + k) := by
  rw [Tree.walk, hl.walkWithin, hl.size, Tree.walk]
  refine congrArg _ (hr.walkWithin_eq (fun h _ => ?_) fun h _ => sub_lt_depth h)
  exact Nat.lt_of_lt_of_le (sub_lt_depth h) (by omega)

theorem record (hr : t.Rising) (h : Handle) : t'.record (h + k) = t.record h := by
  rw [Tree.record, hl.recordWithin, hl.size, Tree.record]
  exact hr.recordWithin_eq (Nat.lt_of_lt_of_le (sub_lt_depth h) (by omega)) (sub_lt_depth h)

theorem oid? (h : Handle) : t'.oid? (h + k) = t.oid? h := by
  rw [Tree.oid?, hl.node?, Option.map_map]
  rfl

theorem bindings (hs : List Handle) : t'.bindings (hs.map (· + k)) = t.bindings hs := by
  rw [Tree.bindings, Tree.bindings, flatMap_resolve, flatMap_resolve, List.flatMap_map]
  refine congrArg _ (List.flatMap_congr fun h _ => ?_)
  rw [hl.node?]
  cases t.node? h with
  | none => rfl
  | some n => exact n.moved_bindings k none

theorem declaredUses (hr : t.Rising) (roots : List Handle) :
    t'.declaredUses (roots.map (· + k)) = t.declaredUses roots := by
  rw [Tree.declaredUses, hl.walk hr, hl.bindings, Tree.declaredUses]

theorem correlate (hr : t.Rising) (roots : List Handle)
    (htarget : ∀ b, t'.target? b = (t.target? b).map (· + k)) :
    Lifts k (t.correlate roots).tree (t'.correlate (roots.map (· + k))).tree := by
  have huses : ∀ bs h, t'.usesOf bs (h + k) = t.usesOf bs h := by
    intro bs h
    refine List.filter_congr fun b _ => ?_
    rw [htarget]
    cases t.target? b with
    | none => rfl
    | some i => simp
  refine ⟨by rw [correlate_size, correlate_size, hl.size], fun h => ?_⟩
  rw [correlate_node?, correlate_node?, hl.declaredUses hr, huses, hl.node?]
  cases t.node? h with
  | none => rfl
  | some n => exact congrArg some (n.moved_bindAll k none _).symm

end Lifts

end Tree

end Orchestration.Shape
