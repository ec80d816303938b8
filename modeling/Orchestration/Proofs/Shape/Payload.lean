import Orchestration.Proofs.Shape.Layout

/-!
# Orchestration.Proofs.Shape.Payload

Payloads and the regions that are put into them.

* `Payload.suits` — a payload is of the sort that a kind asks for.
* `Payload.takes` — a payload has a region of a given sort.
* `Payload.handles_furnish` — putting regions into a payload that takes them loses no handle and
  adds none.
-/

namespace Orchestration.Shape

namespace Payload

/-- Whether the content is of the sort that shapes of a kind have. -/
def suits (k : Kind) : Payload → Bool
  | .nothing =>
    [Kind.scope, .group, .parallel, .parallelBranch, .task, .compensation, .atomicTransaction,
      .longRunningTransaction].contains k
  | .receive .. => k == .receive
  | .send _ => k == .send
  | .construct .. => k == .construct
  | .transform .. => k == .transform
  | .expression _ =>
    [Kind.messageAssignment, .variableAssignment, .while, .until, .expression].contains k
  | .loop .. => k == .loop
  | .invoke _ => [Kind.call, .start].contains k
  | .correlation .. => k == .correlationDeclaration
  | .decide .. => k == .decide
  | .switch .. => k == .switch
  | .listen _ => k == .listen
  | .terminate _ => k == .terminate
  | .delay _ => k == .delay
  | .compensate _ => k == .compensate
  | .exception .. => k == .catch
  | .variable .. => k == .variableDeclaration
  | .callRules _ => k == .callRules
  | .fallback _ => k == .fallback

/-- Whether the content has a region of a sort. -/
def takes (slot : Slot) : Payload → Bool
  | .decide .. => slot == .whenTrue || slot == .whenFalse
  | .switch .. =>
    match slot with
    | .case .. | .otherwise => true
    | _ => false
  | .listen _ =>
    match slot with
    | .branch _ => true
    | _ => false
  | .construct .. => slot == .inner
  | _ => false

/-- The content as it is before its regions are filled and before correlation sets are bound. -/
def bare : Payload → Payload
  | .receive x activate _ _ => .receive x activate [] []
  | .construct messages _ => .construct messages []
  | .decide condition _ _ => .decide condition [] []
  | .switch subject _ _ => .switch subject [] []
  | .listen _ => .listen []
  | p => p

theorem handles_bare (p : Payload) : p.bare.handles = [] := by cases p <;> rfl

theorem kind_of_suits {k : Kind} {p : Payload} (hp : p.suits k = true) (hs : p.slots ≠ []) :
    k ∈ [Kind.decide, .switch, .listen, .construct] := by
  cases p <;> simp_all [suits, slots]

theorem holdsSlots_of_suits {k : Kind} {p : Payload} (hp : p.suits k = true)
    (hs : p.slots ≠ []) : k.holdsSlots = true := by
  have hall : ∀ k ∈ [Kind.decide, .switch, .listen, .construct], k.holdsSlots = true := by decide
  exact hall k (kind_of_suits hp hs)

theorem receive_of_suits {p : Payload} (hp : p.suits .receive = true) :
    ∃ x activate initializes follows, p = .receive x activate initializes follows := by
  cases p with
  | receive x activate initializes follows => exact ⟨x, activate, initializes, follows, rfl⟩
  | _ => simp [suits] at hp

theorem expression_of_suits {p : Payload} (hp : p.suits .expression = true) :
    ∃ text, p = .expression text := by
  cases p with
  | expression text => exact ⟨text, rfl⟩
  | _ => simp [suits] at hp

theorem listen_of_suits {p : Payload} (hp : p.suits .listen = true) :
    ∃ branches, p = .listen branches := by
  cases p with
  | listen branches => exact ⟨branches, rfl⟩
  | _ => simp [suits] at hp

/-! ## One region -/

theorem numberBranches_handles (number : Nat) (branches : List (List Handle)) :
    (numberBranches number branches).flatMap Prod.snd = branches.flatten := by
  induction branches generalizing number with
  | nil => rfl
  | cons b rest ih => simp [numberBranches, ih]

@[simp] theorem handles_decide (condition : String) (t f : List Handle) :
    (Payload.decide condition t f).handles = t ++ f := by
  simp [handles, slots]

@[simp] theorem handles_switch (subject : String) (cases : List (String × List Handle))
    (d : List Handle) :
    (Payload.switch subject cases d).handles = cases.flatMap Prod.snd ++ d := by
  simp [handles, slots, List.flatMap_map]

@[simp] theorem handles_listen (branches : List (List Handle)) :
    (Payload.listen branches).handles = branches.flatten := by
  simp [handles, slots, numberBranches_handles]

@[simp] theorem handles_construct (messages : List String) (inner : List Handle) :
    (Payload.construct messages inner).handles = inner := by
  simp [handles, slots]

theorem putCase_handles (key : String) (hs : List Handle) (cases : List (String × List Handle)) :
    ((putCase key hs cases).flatMap Prod.snd).Perm (cases.flatMap Prod.snd ++ hs) := by
  induction cases with
  | nil => simp [putCase]
  | cons c rest ih =>
    obtain ⟨k, old⟩ := c
    rw [putCase]
    split
    · simp only [List.flatMap_cons, List.append_assoc]
      exact List.perm_append_comm.append_left old
    · simpa using ih.append_left old

theorem put_suits (k : Kind) (slot : Slot) (hs : List Handle) (p : Payload) :
    (p.put slot hs).suits k = p.suits k := by
  cases p <;> cases slot <;> rfl

theorem put_takes (slot slot' : Slot) (hs : List Handle) (p : Payload) :
    (p.put slot hs).takes slot' = p.takes slot' := by
  cases p <;> cases slot <;> rfl

theorem handles_put {slot : Slot} {p : Payload} (hs : List Handle) (hp : p.takes slot = true) :
    (p.put slot hs).handles.Perm (p.handles ++ hs) := by
  cases p with
  | decide condition t f =>
    cases slot with
    | whenTrue =>
      simp only [put, handles_decide, List.append_assoc]
      exact List.perm_append_comm.append_left t
    | whenFalse => simp [put]
    | _ => simp [takes] at hp
  | switch subject cases d =>
    cases slot with
    | case number key =>
      simp only [put, handles_switch]
      refine ((putCase_handles key hs cases).append_right d).trans ?_
      simp only [List.append_assoc]
      exact List.perm_append_comm.append_left _
    | otherwise => simp [put]
    | _ => simp [takes] at hp
  | listen branches =>
    cases slot with
    | branch number => simp [put]
    | _ => simp [takes] at hp
  | construct messages inner =>
    cases slot with
    | inner => simp [put]
    | _ => simp [takes] at hp
  | _ => simp [takes] at hp

/-! ## All regions -/

theorem furnish_cons (p : Payload) (r : Slot × List Handle) (rs : List (Slot × List Handle)) :
    p.furnish (r :: rs) = (p.put r.1 r.2).furnish rs := rfl

theorem furnish_of_put {p : Payload} (hp : ∀ slot hs, p.put slot hs = p)
    (rs : List (Slot × List Handle)) : p.furnish rs = p := by
  induction rs with
  | nil => rfl
  | cons r rest ih => rw [furnish_cons, hp, ih]

theorem furnish_suits (k : Kind) (regions : List (Slot × List Handle)) (p : Payload) :
    (p.furnish regions).suits k = p.suits k := by
  induction regions generalizing p with
  | nil => rfl
  | cons r rest ih =>
    have h := ih (p.put r.1 r.2)
    rw [put_suits] at h
    simpa [furnish] using h

theorem furnish_unbound {p : Payload} (hp : p.bare = p) (rs : List (Slot × List Handle))
    {x : Exchange} {activate : Bool} {initializes follows : List String}
    (h : p.furnish rs = .receive x activate initializes follows) :
    initializes = [] ∧ follows = [] := by
  have hs : p.suits .receive = true := by
    rw [← furnish_suits .receive rs p, h]
    rfl
  obtain ⟨x', activate', initializes', follows', rfl⟩ := receive_of_suits hs
  rw [furnish_of_put fun slot _ => by cases slot <;> rfl] at h
  injection hp with _ _ hi hf
  injection h with _ _ hi' hf'
  exact ⟨hi'.symm.trans hi.symm, hf'.symm.trans hf.symm⟩

theorem handles_furnish (regions : List (Slot × List Handle)) {p : Payload}
    (hp : ∀ r ∈ regions, p.takes r.1 = true) :
    (p.furnish regions).handles.Perm (p.handles ++ regions.flatMap Prod.snd) := by
  induction regions generalizing p with
  | nil => simp [furnish]
  | cons r rest ih =>
    have hr : (p.put r.1 r.2).handles.Perm (p.handles ++ r.2) := handles_put r.2 (hp r (by simp))
    have hrest : ∀ r' ∈ rest, (p.put r.1 r.2).takes r'.1 = true := by
      intro r' hr'
      rw [put_takes]
      exact hp r' (by simp [hr'])
    have h := (ih hrest).trans (hr.append_right _)
    simpa [furnish] using h

end Payload

end Orchestration.Shape
