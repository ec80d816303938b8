import Orchestration.Proofs.Shape.Plain

/-!
# Orchestration.Proofs.Shape.Tag

Kinds and tags of shapes. A tag is spelled as its element's type in some forms and fixed in others;
in lower case it belongs to one kind all the same.

* `Kind.Tagged` — a kind with a tag that its shapes can have.
* `Kind.Told` — lower-cased tags that tell the kinds `ks`, apart from types that no form knows.
* `Sketch.tagged` — the shape of any element has a tag of its kind.
* `Outline.laidAll_map` — when shapes grow they keep what their sketches tell.
-/

namespace Orchestration.Shape

open Designer (Element)

namespace Kind

/-- The lower-cased tags of a kind. A fallback can have any tag that is not the name of a form. -/
def tags : Kind → List String
  | .receive => ["receive"]
  | .send => ["send"]
  | .construct => ["construct"]
  | .transform => ["transform"]
  | .messageAssignment => ["messageassignment"]
  | .variableAssignment => ["variableassignment"]
  | .while => ["while"]
  | .until => ["until"]
  | .loop => ["loop", "foreach"]
  | .call => ["call"]
  | .start => ["startorchestration"]
  | .correlationDeclaration => ["correlationdeclaration"]
  | .decide => ["decide"]
  | .switch => ["switch"]
  | .listen => ["listen"]
  | .scope => ["scope"]
  | .terminate => ["throw", "suspend", "terminate"]
  | .expression => ["expression"]
  | .delay => ["delay"]
  | .compensate => ["compensate"]
  | .group => ["group"]
  | .parallel => ["parallel"]
  | .parallelBranch => ["parallelbranch"]
  | .task => ["task"]
  | .catch => ["catch", "catchexception"]
  | .compensation => ["compensation"]
  | .atomicTransaction => ["atomictransaction"]
  | .longRunningTransaction => ["longrunningtransaction"]
  | .variableDeclaration => ["variabledeclaration"]
  | .callRules => ["callrules"]
  | .fallback => []

/-- A kind and a tag that go together. -/
structure Tagged (kind : Kind) (tag : String) : Prop where
  given : tag ≠ ""
  known : kind ≠ .fallback → Text.lower tag ∈ kind.tags
  foreign : kind = .fallback → Text.lower tag ∉ Form.names

variable {kind : Kind} {tag : String}

theorem tagged_label (kind : Kind) : kind.Tagged kind.label := by
  have hall : ∀ kind ∈ all, kind.label ≠ "" ∧
      (kind ≠ .fallback → Text.lower kind.label ∈ kind.tags) ∧
      (kind = .fallback → Text.lower kind.label ∉ Form.names) := by decide +kernel
  obtain ⟨hgiven, hknown, hforeign⟩ := hall kind kind.mem_all
  exact ⟨hgiven, hknown, hforeign⟩

theorem Tagged.of_mem_tags (hgiven : tag ≠ "") (hm : Text.lower tag ∈ kind.tags) :
    kind.Tagged tag := by
  refine ⟨hgiven, fun _ => hm, ?_⟩
  rintro rfl
  exact absurd hm List.not_mem_nil

theorem Tagged.orElse_label (h : tag ≠ "" → kind.Tagged tag) :
    kind.Tagged (Text.orElse tag kind.label) := by
  unfold Text.orElse
  split
  · exact tagged_label kind
  · next hne => exact h hne

/-- The tags `ts` are those of the kinds `ks`, and `fs`, which no form knows. -/
def Told (ts : List String) (ks : List Kind) (fs : List String) : Prop :=
  (∀ kind ∈ all, kind ≠ .fallback → ∀ tag ∈ kind.tags, (tag ∈ ts ↔ kind ∈ ks)) ∧
    .fallback ∉ ks ∧ (∀ tag ∈ fs, tag ∈ ts) ∧ ∀ tag ∈ ts, tag ∈ fs ∨ tag ∈ Form.names

instance (ts : List String) (ks : List Kind) (fs : List String) : Decidable (Told ts ks fs) :=
  inferInstanceAs (Decidable (_ ∧ _ ∧ _ ∧ _))

theorem Told.mem_iff {ts : List String} {ks : List Kind} {fs : List String} (h : Told ts ks fs)
    (ht : kind.Tagged tag) :
    Text.lower tag ∈ ts ↔ kind ∈ ks ∨ kind = .fallback ∧ Text.lower tag ∈ fs := by
  obtain ⟨hkinds, hfallback, hforeign, hnames⟩ := h
  by_cases hk : kind = .fallback
  · subst hk
    refine ⟨fun hm => .inr ⟨rfl, ?_⟩, ?_⟩
    · exact (hnames _ hm).resolve_right (ht.foreign rfl)
    · rintro (hm | ⟨-, hm⟩)
      · exact absurd hm hfallback
      · exact hforeign _ hm
  · rw [hkinds kind kind.mem_all hk _ (ht.known hk)]
    simp [hk]

end Kind

/-! ## Elements -/

namespace Form

/-- Forms that keep the type as it is spelled are known by tags of their kinds; no known type is
read as a fallback. -/
theorem fits_of_mem_table : ∀ row ∈ table, row.2.kind? ≠ some .fallback ∧
    (row.2 = .loop → row.1 ∈ Kind.loop.tags) ∧
    (row.2 = .exception → row.1 ∈ Kind.catch.tags) := by
  decide

end Form

theorem Sketch.tagged {e : Element} {s : Sketch} (h : ofElement? e = some s) :
    s.kind.Tagged s.tag := by
  obtain ⟨kind, hkind, rfl⟩ := Option.map_eq_some_iff.mp h
  show kind.Tagged ((Form.ofType e.type).tag kind e)
  rcases Form.ofType_cases e.type with hf | hf | hrow | ⟨hf, hforeign⟩
  · rw [hf] at hkind ⊢
    exact Kind.tagged_label kind
  · rw [hf] at hkind
    cases hkind
  · obtain ⟨hfallback, hloop, hexception⟩ := Form.fits_of_mem_table _ hrow
    cases hf : Form.ofType e.type with
    | loop =>
      rw [hf] at hkind
      obtain rfl := Option.some.inj hkind
      exact .orElse_label fun hne => .of_mem_tags hne (hloop hf)
    | exception =>
      rw [hf] at hkind
      obtain rfl := Option.some.inj hkind
      exact .orElse_label fun hne => .of_mem_tags hne (hexception hf)
    | fallback =>
      exact absurd (congrArg Form.kind? hf) hfallback
    | throw | suspend | terminate =>
      rw [hf] at hkind
      obtain rfl := Option.some.inj hkind
      rw [Form.tag]
      exact .of_mem_tags (by decide) (by decide)
    | _ => exact Kind.tagged_label kind
  · rw [hf] at hkind ⊢
    obtain rfl := Option.some.inj hkind
    exact .orElse_label fun hne => ⟨hne, fun hk => absurd rfl hk, fun _ => hforeign⟩

theorem Outline.flatAll_tagged (es : List Element) :
    ∀ o ∈ flatAll (ofElements es), o.sketch.kind.Tagged o.sketch.tag := by
  have hshape : ∀ e s, True → Sketch.ofElement? e = some s →
      (complete (Form.ofType e.type) e s).sketch.kind.Tagged
        (complete (Form.ofType e.type) e s).sketch.tag := by
    intro e s _ hs
    obtain ⟨p, hp⟩ := sketch_complete (Form.ofType e.type) e s
    have htagged : s.kind.Tagged s.tag := Sketch.tagged hs
    rw [hp]
    exact htagged
  exact (forall_flat hshape (fun e s _ hs => Sketch.tagged hs) ⟨none, none, [], es⟩
    fun _ _ => trivial).2

/-! ## Growing -/

/-- Kind and tag of a shape. -/
def Sketch.heading (s : Sketch) : Kind × String := (s.kind, s.tag)

def Node.heading (n : Node) : Kind × String := (n.kind, n.tag)

/-- What a node shows is decided by its sketch, wherever the shape grows and whatever is inside. -/
def Sketched {α : Type} (f : Node → α) (g : Sketch → α) : Prop :=
  ∀ (s : Sketch) (path : String) (sequence : Int) (parent : Option Handle)
    (regions : List (Slot × List Handle)) (children : List Handle),
    f (s.owner path sequence parent regions children) = g s

namespace Outline

section

variable {α : Type} {f : Node → α} {g : Sketch → α}

mutual

theorem laid_map (hfg : Sketched f g) (start : Nat) (path : String) (next : Nat)
    (parent : Option Handle) :
    (o : Outline) → (o.laid start path next parent).map (fun x => f x.2) =
      o.flat.map fun o => g o.sketch
  | ⟨s, regions, children⟩ => by
    have hr := laidRegions_map hfg (start + 1) s path next start regions
    have hc := laidAll_map hfg (start + 1 + countRegions regions) path (next + 1) (some start)
      children
    rw [laid, flat, List.map_cons, List.map_append, hr, hc, List.map_cons, List.map_append, hfg]

theorem laidRegions_map (hfg : Sketched f g) (start : Nat) (s : Sketch) (path : String)
    (sequence : Nat) (owner : Handle) : (regions : List (Slot × List Outline)) →
      (laidRegions start s path sequence owner regions).map (fun x => f x.2) =
        (flatRegions regions).map fun o => g o.sketch
  | [] => rfl
  | (slot, shapes) :: rest => by
    have hs := laidAll_map hfg start (s.regionPath path sequence slot) 0 (some owner) shapes
    have hr := laidRegions_map hfg (start + countAll shapes) s path sequence owner rest
    rw [laidRegions, flatRegions, List.map_append, hs, hr, List.map_append]

theorem laidAll_map (hfg : Sketched f g) (start : Nat) (path : String) (next : Nat)
    (parent : Option Handle) :
    (os : List Outline) → (laidAll start path next parent os).map (fun x => f x.2) =
      (flatAll os).map fun o => g o.sketch
  | [] => rfl
  | o :: rest => by
    have ho := laid_map hfg start path next parent o
    have hr := laidAll_map hfg (start + o.count) path (next + o.width) parent rest
    rw [laidAll, flatAll, List.map_append, ho, hr, List.map_append]

end

end

end Outline

end Orchestration.Shape
