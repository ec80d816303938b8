import Orchestration.Yaml.Document

/-!
# Orchestration.Proofs.Yaml.Document

What every value that is read has in common.

* `Value.Sound` — no mapping in it has two pairs with the same text as their key.
* `Builder.Flat` — what is built as a scalar is no mapping; kept by every step of the building.
* `read_sound` — the value of a text is sound, at any depth.
-/

namespace Orchestration.Yaml

/-- No text is the key of two pairs. -/
def Apart (keys : List Value) : Prop := keys.Pairwise fun k k' => ∀ s, k = .str s → k' ≠ .str s

namespace Value

def IsFlat (v : Value) : Prop := ∀ entries, v ≠ .mapping entries

/-- A value in which no mapping has a text as its key twice; mappings are looked for inside mappings
only. -/
inductive Sound : Value → Prop where
  | mapping {entries : List (Value × Value)} : Apart (entries.map Prod.fst) →
      (∀ e ∈ entries, Sound e.2) → Sound (.mapping entries)
  | flat {v : Value} : v.IsFlat → Sound v

variable {entries : List (Value × Value)}

theorem Sound.apart (h : Sound (.mapping entries)) : Apart (entries.map Prod.fst) := by
  cases h with
  | mapping hkeys _ => exact hkeys
  | flat hflat => exact absurd rfl (hflat entries)

theorem Sound.inner (h : Sound (.mapping entries)) {e : Value × Value} (he : e ∈ entries) :
    Sound e.2 := by
  cases h with
  | mapping _ hinner => exact hinner e he
  | flat hflat => exact absurd rfl (hflat entries)

/-! ## Entering pairs -/

theorem enter_keys (key value : Value) (entries : List (Value × Value)) :
    (enter key value entries).map Prod.fst = entries.map Prod.fst ∨
      (∀ k ∈ entries.map Prod.fst, sameKey k key = false) ∧
        (enter key value entries).map Prod.fst = entries.map Prod.fst ++ [key] := by
  induction entries with
  | nil => exact .inr ⟨by simp, rfl⟩
  | cons e rest ih =>
    obtain ⟨k, v⟩ := e
    by_cases hk : sameKey k key = true
    · left
      simp [enter, hk]
    · rcases ih with ih | ⟨hfresh, ih⟩
      · left
        simp [enter, hk, ih]
      · right
        rw [List.map_cons, List.forall_mem_cons, enter, if_neg hk, List.map_cons, ih]
        exact ⟨⟨Bool.eq_false_iff.mpr hk, hfresh⟩, rfl⟩

theorem mem_enter {key value : Value} {e : Value × Value} (he : e ∈ enter key value entries) :
    e ∈ entries ∨ e.2 = value := by
  induction entries with
  | nil =>
    obtain rfl := List.mem_singleton.mp he
    exact .inr rfl
  | cons x rest ih =>
    obtain ⟨k, v⟩ := x
    rw [enter] at he
    split at he
    · rcases List.mem_cons.mp he with rfl | he
      · exact .inr rfl
      · exact .inl (List.mem_cons_of_mem _ he)
    · rcases List.mem_cons.mp he with rfl | he
      · exact .inl (List.mem_cons_self ..)
      · exact (ih he).imp_left (List.mem_cons_of_mem _)

theorem Sound.enter (h : Sound (.mapping entries)) (key : Value) {value : Value}
    (hvalue : value.Sound) : Sound (.mapping (enter key value entries)) := by
  refine .mapping ?_ fun e he => ?_
  · rcases enter_keys key value entries with hkeys | ⟨hfresh, hkeys⟩
    · rw [hkeys]
      exact h.apart
    · rw [hkeys, Apart, List.pairwise_append]
      refine ⟨h.apart, List.pairwise_singleton .., fun k hk k' hk' s hs hs' => ?_⟩
      obtain rfl := List.mem_singleton.mp hk'
      have hdiffers := hfresh k hk
      rw [hs, hs'] at hdiffers
      simp [sameKey] at hdiffers
  · rcases mem_enter he with he | rfl
    · exact h.inner he
    · exact hvalue

end Value

/-! ## Scalars -/

/-- Whatever is read has a property. -/
def Ensures {α : Type} (x : Except Fault α) (P : α → Prop) : Prop := ∀ a, x = .ok a → P a

namespace Ensures

variable {α β : Type}

theorem ok {P : α → Prop} {a : α} (h : P a) : Ensures (.ok a) P := fun _ he =>
  Except.ok.inj he ▸ h

theorem error {P : α → Prop} {e : Fault} : Ensures (.error e) P := fun _ he => nomatch he

theorem bind {x : Except Fault α} {f : α → Except Fault β} {P : α → Prop} {Q : β → Prop}
    (hx : Ensures x P) (hf : ∀ a, P a → Ensures (f a) Q) : Ensures (x >>= f) Q := by
  cases x with
  | error e => exact error
  | ok a => exact hf a (hx a rfl)

theorem trivial (x : Except Fault α) : Ensures x fun _ => True := fun _ _ => True.intro

theorem foldlM {f : β → α → Except Fault β} {P : β → Prop}
    (hstep : ∀ b a, P b → Ensures (f b a) P) (l : List α) {b : β} (hb : P b) :
    Ensures (l.foldlM f b) P := by
  induction l generalizing b with
  | nil => exact ok hb
  | cons a rest ih =>
    rw [List.foldlM_cons]
    exact bind (hstep b a hb) fun _ => ih

end Ensures

namespace Scalar

theorem bool_flat (text : String) : Ensures (bool text) Value.IsFlat := by
  simp only [bool]
  split
  · exact .ok nofun
  · split
    · exact .ok nofun
    · exact .error

theorem int_flat (text : String) : Ensures (int text) Value.IsFlat :=
  .bind (.trivial _) fun _ _ => .bind (.trivial _) fun _ _ => .ok nofun

theorem real_flat (text : String) : Ensures (real text) Value.IsFlat :=
  .bind (.trivial _) fun _ _ => .bind (.trivial _) fun _ _ => .ok nofun

theorem binary_flat (text : String) : Ensures (binary text) Value.IsFlat := by
  unfold binary
  split
  · split
    · exact .ok nofun
    · exact .error
  · exact .error

theorem date_flat (text : String) : Ensures (date text) Value.IsFlat := by
  unfold date
  split
  · next m _ =>
    cases m.text with
    | error e => exact .error
    | ok shown => exact .ok nofun
  · exact .error

end Scalar

/-! ## Building -/

namespace Builder

/-- Everything that is built as a scalar is no mapping. -/
def Flat (b : Builder) : Prop := ∀ (i : Nat) (v : Value), b.at? i = some (.scalar v) → v.IsFlat

variable {b : Builder}

theorem Flat.note (hb : b.Flat) (i : Nat) {x : Built} (hx : ∀ v, x = .scalar v → v.IsFlat) :
    (b.note i x).Flat := by
  intro j v hv
  simp only [at?, Builder.note, Array.getElem?_setIfInBounds] at hv
  split at hv
  · split at hv
    · exact hx v (by simpa using hv)
    · cases hv
  · exact hb j v hv

theorem Flat.scalar (hb : b.Flat) (i : Nat) {read : Text.Wide → Except Fault Value}
    (hread : ∀ text, Ensures (read text) Value.IsFlat) : Ensures (b.scalar i read) Flat :=
  .bind (.trivial _) fun text _ => .bind (hread text) fun v hv =>
    .ok (hb.note i fun w hw => by cases hw; exact hv)

theorem Flat.literal (hb : b.Flat) (i : Nat) {read : String → Except Fault Value}
    (hread : ∀ text, Ensures (read text) Value.IsFlat) : Ensures (b.literal i read) Flat :=
  hb.scalar i fun text => hread text.shown

theorem Flat.build (hb : b.Flat) (i : Nat) : Ensures (b.build i) Flat := by
  unfold Builder.build
  split
  · exact .ok hb
  · cases b.graph.tag i with
    | null => exact hb.scalar i fun _ => .ok nofun
    | bool => exact hb.literal i Scalar.bool_flat
    | int => exact hb.literal i Scalar.int_flat
    | real => exact hb.literal i Scalar.real_flat
    | binary => exact hb.literal i Scalar.binary_flat
    | date =>
      refine .bind (.trivial _) fun text _ => ?_
      split
      · exact hb.scalar i fun _ => Scalar.date_flat text.shown
      · exact .error
    | str => exact hb.scalar i fun _ => .ok nofun
    | seq => exact .ok (hb.note i nofun)
    | orderedPairs => exact .ok (hb.note i nofun)
    | pairs => exact .ok (hb.note i nofun)
    | map => exact .ok (hb.note i nofun)
    | set => exact .ok (hb.note i nofun)
    | merge => exact .error
    | equals => exact .error
    | foreign => exact .error

theorem Flat.entry (hb : b.Flat) (p : Nat × Nat) : Ensures (b.entry p) Flat :=
  .bind (hb.build p.1) fun b hb => by
    split
    · exact hb.build p.2
    · exact .error

theorem Flat.entries (hb : b.Flat) (i : Nat) : Ensures (b.entries i) fun x => x.2.Flat := by
  unfold Builder.entries
  split
  · refine .bind (.trivial _) fun g _ => .bind (P := Flat) ?_ fun b hb => .ok hb
    exact .foldlM (fun _ p hb => hb.entry p) _ hb
  · exact .error

theorem Flat.single (hb : b.Flat) (i : Nat) : Ensures (b.single i) fun x => x.2.Flat := by
  unfold Builder.single
  split
  · exact .bind (hb.build _) fun b hb => .bind (hb.build _) fun b hb => .ok hb
  · exact .error

theorem Flat.singles (hb : b.Flat) (is : List Nat) : Ensures (b.singles is) fun x => x.2.Flat := by
  induction is generalizing b with
  | nil => exact .ok hb
  | cons i rest ih =>
    exact .bind (hb.single i) fun x hx => .bind (ih hx) fun y hy => .ok hy

theorem Flat.complete (hb : b.Flat) (i : Nat) : Ensures (b.complete i) Flat := by
  unfold Builder.complete
  split
  · refine .bind (.trivial _) fun is _ => .bind (P := Flat) ?_ fun b hb => .ok (hb.note i nofun)
    exact .foldlM (fun _ i hb => hb.build i) _ hb
  · exact .bind (.trivial _) fun is _ => .bind (hb.singles is) fun x hx => .ok (hx.note i nofun)
  · exact .bind (hb.entries i) fun x hx => .ok (hx.note i nofun)
  · exact .bind (hb.entries i) fun x hx => .ok (hx.note i nofun)
  · exact .ok hb

theorem Flat.completeAll (fuel : Nat) (hb : b.Flat) : Ensures (b.completeAll fuel) Flat := by
  induction fuel generalizing b with
  | zero => exact .ok hb
  | succ fuel ih =>
    unfold Builder.completeAll
    split
    · exact .ok hb
    · next i rest _ => exact .bind (Flat.complete (b := { b with waiting := rest }) hb i) fun _ => ih

end Builder

/-! ## Values -/

namespace Document

/-- Everything that stands as a scalar is no mapping. -/
def Flat (d : Document) : Prop :=
  ∀ (i : Nat) (v : Value), d.built[i]?.join = some (.scalar v) → v.IsFlat

theorem ofGraph_flat (g : Graph) (root : Nat) : Ensures (ofGraph g root) Flat := by
  have hempty : Builder.Flat ⟨g, Array.replicate g.size none, []⟩ := by
    intro i v hv
    simp only [Builder.at?, Array.getElem?_replicate] at hv
    split at hv
    · cases hv
    · cases hv
  exact .bind (hempty.build root) fun b hb => .bind (hb.completeAll _) fun b hb => .ok hb

theorem Flat.sound {d : Document} (hd : d.Flat) (depth i : Nat) : (d.valueAt depth i).Sound := by
  induction depth generalizing i with
  | zero =>
    unfold valueAt
    cases hi : d.built[i]?.join with
    | none => exact .flat fun _ => Value.noConfusion
    | some x =>
      cases x with
      | scalar v => exact .flat (hd i v hi)
      | mapping ps => exact .mapping List.Pairwise.nil (List.forall_mem_nil _)
      | _ => exact .flat fun _ => Value.noConfusion
  | succ depth ih =>
    unfold valueAt
    cases hi : d.built[i]?.join with
    | none => exact .flat fun _ => Value.noConfusion
    | some x =>
      cases x with
      | scalar v => exact .flat (hd i v hi)
      | mapping ps =>
        have hpairs : ∀ (ps : List (Nat × Nat)) (es : List (Value × Value)),
            Value.Sound (.mapping es) → Value.Sound (.mapping (ps.foldl (fun es p =>
              Value.enter (d.valueAt depth p.1) (d.valueAt depth p.2) es) es)) := by
          intro ps
          induction ps with
          | nil => exact fun _ h => h
          | cons p rest ihRest => exact fun es h => ihRest _ (h.enter _ (ih p.2))
        exact hpairs ps [] (.mapping List.Pairwise.nil (List.forall_mem_nil _))
      | _ => exact .flat fun _ => Value.noConfusion

end Document

/-- In a value that is read no mapping has a text as its key twice. -/
theorem read_sound (depth : Nat) (t : Supply) : Ensures (read depth t) Value.Sound := by
  refine .bind (.trivial _) fun found _ => ?_
  split
  · exact .ok (.flat nofun)
  · next g root =>
    intro v hv
    cases hd : Document.ofGraph g root with
    | error e =>
      rw [hd] at hv
      cases hv
    | ok d =>
      rw [hd] at hv
      obtain rfl := Except.ok.inj hv
      exact (Document.ofGraph_flat g root d hd).sound depth d.root

end Orchestration.Yaml
