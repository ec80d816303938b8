import Orchestration.Proofs.Shape.Correlation
import Orchestration.Proofs.Shape.Plain
import Orchestration.Proofs.Shape.Regions

/-!
# Orchestration.Proofs.Shape.Reading

Trees into which elements have been read, seen from one shape and the regions that it owns.

* `Tree.read` — shapes grow out of elements, then correlation sets are bound. The tree of every
  model is one of these.
* `Outline.Reached` — an element becomes the shape at some place of what is read.
* `Tree.Shows` — nodes side by side, one for each of the elements that are shapes.
* `Tree.Renders` — the same, with everything below these nodes.
* `Tree.Furnished` — a node with the handles in the regions of its outline, none of them twice.
* `Tree.read_furnished`, `Tree.read_reached` — whatever is reached has such a node.
-/

namespace Orchestration.Shape

open Designer (Element)

/-- A node tells what an element says about its shape. -/
structure Node.Depicts (n : Node) (s : Sketch) : Prop where
  kind : n.kind = s.kind
  tag : n.tag = s.tag
  oid : n.oid = s.oid
  name : n.name = s.name

theorem exists_related {α β : Type} {R : α → β → Prop} {xs : List α} {ys : List β}
    (h : List.Forall₂ R xs ys) {y : β} (hy : y ∈ ys) : ∃ x ∈ xs, R x y := by
  induction h with
  | nil => cases hy
  | @cons x y' xs ys hfirst _ ih =>
    rcases List.mem_cons.mp hy with rfl | hy
    · exact ⟨x, List.mem_cons_self .., hfirst⟩
    · obtain ⟨x', hx', hr⟩ := ih hy
      exact ⟨x', List.mem_cons_of_mem _ hx', hr⟩

/-- The shapes directly among elements. -/
def sketches (es : List Element) : List Sketch := es.filterMap Sketch.ofElement?

theorem sketches_append (es es' : List Element) :
    sketches (es ++ es') = sketches es ++ sketches es' := List.filterMap_append

/-- The shape of an element that is read at some depth is the one at place `i`, in the order in
which shapes grow. -/
def Outline.Reached (es : List Element) (i : Nat) (e : Element) : Prop :=
  ∃ o, Outline.ofElement? e = some o ∧ (Outline.flatAll (Outline.ofElements es))[i]? = some o

namespace Tree

/-- A tree into which elements have been read in a context. Without roots nothing is bound. -/
def read (t : Tree) (c : Context) (parent : Option Handle) (es : List Element)
    (roots : List Handle) : Tree :=
  ((t.grow c parent (Outline.ofElements es)).tree.correlate roots).tree

/-- The handles are those of the shapes that the elements describe, one for each element but
metadata, in their order and under `owner`. -/
def Shows (t : Tree) (owner : Handle) (es : List Element) (hs : List Handle) : Prop :=
  List.Forall₂ (fun s h => ∃ n, t.node? h = some n ∧ n.Depicts s ∧ n.parent = some owner)
    (sketches es) hs

/-- The node of an outline under an owner. -/
def Carries (t : Tree) (owner : Handle) (o : Outline) (h : Handle) : Prop :=
  ∃ path sequence regions children uses, t.node? h =
    some ((o.sketch.owner path sequence (some owner) regions children).bindAll uses)

/-- A tree that holds nodes at their handles, but for correlation sets that are bound. -/
def Keeps (t : Tree) (l : List (Handle × Node)) : Prop :=
  ∀ x ∈ l, ∃ uses, t.node? x.1 = some (x.2.bindAll uses)

/-- The handles of outlines in a context of their own, where everything below them stands too. -/
def Lodges (t : Tree) (owner : Handle) (os : List Outline) (hs : List Handle) : Prop :=
  ∃ start path, hs = Outline.handles start os ∧
    t.Keeps (Outline.laidAll start path 0 (some owner) os)

/-- The handles are those of all that the elements describe, whatever stands below included. -/
structure Renders (t : Tree) (owner : Handle) (es : List Element) (hs : List Handle) : Prop where
  shows : t.Shows owner es hs
  lodges : t.Lodges owner (Outline.ofElements es) hs

/-- A region and the handles in it. -/
structure Region (t : Tree) (owner : Handle) (r : Slot × List Outline) (r' : Slot × List Handle) :
    Prop where
  slot : r'.1 = r.1
  lodges : t.Lodges owner r.2 r'.2

/-- The node of an outline, and the handles in each of its regions. -/
structure Furnished (t : Tree) (h : Handle) (o : Outline) (n : Node)
    (rs : List (Slot × List Handle)) : Prop where
  node : t.node? h = some n
  payload : ∃ uses : List Binding,
    n.payload = uses.foldl Payload.enter (o.sketch.payload.furnish rs)
  regions : List.Forall₂ (t.Region h) o.regions rs
  nodup : (rs.flatMap Prod.snd).Nodup

end Tree

/-! ## What has been laid -/

namespace Tree

variable {t : Tree} {owner : Handle}

theorem Keeps.subset {l l' : List (Handle × Node)} (h : t.Keeps l) (hl : l' ⊆ l) : t.Keeps l' :=
  fun x hx => h x (hl hx)

theorem keeps_correlate {l : List (Handle × Node)} (h : Outline.Held t l) (roots : List Handle) :
    (t.correlate roots).tree.Keeps l := by
  intro x hx
  exact ⟨_, by rw [correlate_node?, h x hx]; rfl⟩

theorem keeps_owner {start : Handle} {path : String} {next : Nat} {parent : Option Handle}
    {o : Outline} (h : t.Keeps (o.laid start path next parent)) :
    ∃ regions children uses, t.node? start =
      some ((o.sketch.owner path next parent regions children).bindAll uses) := by
  obtain ⟨s, regions, children⟩ := o
  rw [Outline.laid] at h
  obtain ⟨uses, hn⟩ := h _ (List.mem_cons_self ..)
  exact ⟨_, _, uses, hn⟩

theorem carries_handles (start : Nat) (path : String) (next : Nat) {os : List Outline}
    (h : t.Keeps (Outline.laidAll start path next (some owner) os)) :
    List.Forall₂ (t.Carries owner) os (Outline.handles start os) := by
  induction os generalizing start next with
  | nil => exact .nil
  | cons o rest ih =>
    rw [Outline.laidAll] at h
    obtain ⟨regions, children, uses, hn⟩ := keeps_owner (h.subset (List.subset_append_left ..))
    exact .cons ⟨_, _, regions, children, uses, hn⟩
      (ih _ _ (h.subset (List.subset_append_right ..)))

theorem Lodges.carries {os : List Outline} {hs : List Handle} (h : t.Lodges owner os hs) :
    List.Forall₂ (t.Carries owner) os hs := by
  obtain ⟨start, path, rfl, hkeeps⟩ := h
  exact carries_handles start path 0 hkeeps

theorem sequence_handles (start : Nat) (path : String) (next : Nat) {parent : Option Handle}
    {os : List Outline} (h : t.Keeps (Outline.laidAll start path next parent os)) (k : Nat)
    (x : Handle) (hx : (Outline.handles start os)[k]? = some x) :
    ∃ n, t.node? x = some n ∧ n.sequence = (next + Outline.widthAll (os.take k) : Nat) := by
  induction os generalizing start next k with
  | nil => simp [Outline.handles] at hx
  | cons o rest ih =>
    rw [Outline.laidAll] at h
    cases k with
    | zero =>
      obtain rfl : start = x := by simpa [Outline.handles] using hx
      obtain ⟨regions, children, uses, hn⟩ := keeps_owner (h.subset (List.subset_append_left ..))
      exact ⟨_, hn, rfl⟩
    | succ k =>
      rw [Outline.handles, List.getElem?_cons_succ] at hx
      obtain ⟨n, hn, hs⟩ := ih _ _ (h.subset (List.subset_append_right ..)) k hx
      refine ⟨n, hn, ?_⟩
      rw [hs, List.take_succ_cons, Outline.widthAll, Nat.add_assoc]

/-- What stands in a region is numbered from zero; each shape takes as many numbers as it has nodes
in its context. -/
theorem Lodges.sequence {os : List Outline} {hs : List Handle} (h : t.Lodges owner os hs) {k : Nat}
    {x : Handle} (hx : hs[k]? = some x) :
    ∃ n, t.node? x = some n ∧ n.sequence = Outline.widthAll (os.take k) := by
  obtain ⟨start, path, rfl, hkeeps⟩ := h
  obtain ⟨n, hn, hs⟩ := sequence_handles start path 0 hkeeps k x hx
  exact ⟨n, hn, by rw [hs, Nat.zero_add]⟩

theorem region_handles {s : Sketch} {path : String} {sequence : Nat} (start : Nat)
    {regions : List (Slot × List Outline)}
    (h : t.Keeps (Outline.laidRegions start s path sequence owner regions)) :
    List.Forall₂ (t.Region owner) regions (Outline.regionHandles start regions) := by
  induction regions generalizing start with
  | nil => exact .nil
  | cons r rest ih =>
    obtain ⟨slot, shapes⟩ := r
    rw [Outline.laidRegions] at h
    exact .cons ⟨rfl, _, _, rfl, h.subset (List.subset_append_left ..)⟩
      (ih _ (h.subset (List.subset_append_right ..)))

/-- The regions of one sort. -/
theorem regions_filter {regions : List (Slot × List Outline)} {rs : List (Slot × List Handle)}
    (h : List.Forall₂ (t.Region owner) regions rs) (slot : Slot) :
    List.Forall₂ (t.Region owner) (regions.filter fun r => r.1 == slot)
      (rs.filter fun r => r.1 == slot) :=
  List.rel_filter (fun _ _ hr => by simp [hr.slot]) h

end Tree

namespace Outline

theorem handles_sublist (start : Nat) (os : List Outline) :
    (handles start os).Sublist (List.range' start (countAll os)) := by
  induction os generalizing start with
  | nil => exact List.Sublist.refl _
  | cons o rest ih =>
    have hfirst : [start].Sublist (List.range' start o.count) := by
      obtain ⟨s, regions, children⟩ := o
      rw [List.singleton_sublist, List.mem_range'_1, count]
      omega
    rw [handles, countAll, ← List.range'_append_1]
    exact hfirst.append (ih (start + o.count))

theorem regionHandles_nodup (start : Nat) (regions : List (Slot × List Outline)) :
    ((regionHandles start regions).flatMap Prod.snd).Nodup := by
  have hsub : ∀ start, ((regionHandles start regions).flatMap Prod.snd).Sublist
      (List.range' start (countRegions regions)) := by
    induction regions with
    | nil => exact fun _ => List.Sublist.refl _
    | cons r rest ih =>
      intro start
      rw [regionHandles, List.flatMap_cons, countRegions, ← List.range'_append_1]
      exact (handles_sublist start r.2).append (ih _)
  exact (hsub start).nodup List.nodup_range'

end Outline

/-! ## One element -/

/-- The sketch of an element's outline tells more only in the content. -/
theorem Outline.sketch_of_ofElement? {e : Element} {o : Outline} (h : ofElement? e = some o) :
    ∃ s, Sketch.ofElement? e = some s ∧ ∀ n : Node, n.Depicts o.sketch ↔ n.Depicts s := by
  obtain ⟨s, hs, rfl⟩ := ofElement?_eq_some h
  obtain ⟨p, hp⟩ := sketch_complete (Form.ofType e.type) e s
  refine ⟨s, hs, fun n => ?_⟩
  rw [hp]
  exact ⟨fun h => ⟨h.kind, h.tag, h.oid, h.name⟩, fun h => ⟨h.kind, h.tag, h.oid, h.name⟩⟩

/-- Every shape directly among the elements is reached. -/
theorem Outline.reached_of_append (before after : List Element) {e : Element}
    (h : (ofElement? e).isSome = true) :
    Reached (before ++ e :: after) (countAll (ofElements before)) e := by
  obtain ⟨o, ho⟩ := Option.isSome_iff_exists.mp h
  have hsplit : ofElements (before ++ e :: after) = ofElements before ++ o :: ofElements after := by
    simp [ofElements_eq, ho]
  have hflat : ∀ os os', flatAll (os ++ os') = flatAll os ++ flatAll os' := by
    intro os os'
    induction os with
    | nil => rfl
    | cons p rest ih => rw [List.cons_append, flatAll, ih, flatAll, List.append_assoc]
  refine ⟨o, ho, ?_⟩
  rw [hsplit, hflat, ← length_flatAll, List.getElem?_append_right (Nat.le_refl _), Nat.sub_self,
    flatAll, flat_eq]
  rfl

/-- All elements but metadata are shapes. -/
theorem Outline.isSome_ofElement? (e : Element) :
    (ofElement? e).isSome = (Form.ofType e.type).kind?.isSome := by
  rw [ofElement?_eq, Option.isSome_map, Form.sketch?, Option.isSome_map]

theorem Outline.ofElement?_eq_none_iff (e : Element) :
    ofElement? e = none ↔ Sketch.ofElement? e = none := by
  rw [ofElement?_eq, Option.map_eq_none_iff]
  rfl

namespace Tree

variable {t : Tree} {owner : Handle}

theorem Carries.exists_node {o : Outline} {h : Handle} (hc : t.Carries owner o h) :
    ∃ n, t.node? h = some n ∧ n.Depicts o.sketch ∧ n.parent = some owner := by
  obtain ⟨path, sequence, regions, children, uses, hn⟩ := hc
  exact ⟨_, hn, ⟨rfl, rfl, rfl, rfl⟩, rfl⟩

/-- The nodes of a container's outlines are those of its elements. -/
theorem shows_of_carries {es : List Element} {hs : List Handle}
    (h : List.Forall₂ (t.Carries owner) (Outline.ofElements es) hs) : t.Shows owner es hs := by
  induction es generalizing hs with
  | nil =>
    cases h
    exact .nil
  | cons e rest ih =>
    rw [Outline.ofElements] at h
    rw [Shows, sketches, List.filterMap_cons]
    cases ho : Outline.ofElement? e with
    | none =>
      rw [ho] at h
      rw [(Outline.ofElement?_eq_none_iff e).mp ho]
      exact ih h
    | some o =>
      rw [ho] at h
      obtain ⟨s, hs, hdepicts⟩ := Outline.sketch_of_ofElement? ho
      rw [hs]
      cases h with
      | cons hfirst hrest =>
        obtain ⟨n, hn, hd, hp⟩ := hfirst.exists_node
        exact .cons ⟨n, hn, (hdepicts n).mp hd, hp⟩ (ih hrest)

theorem renders_of_lodges {es : List Element} {hs : List Handle}
    (h : t.Lodges owner (Outline.ofElements es) hs) : t.Renders owner es hs :=
  ⟨shows_of_carries h.carries, h⟩

/-- Nothing that is shown is lost. -/
theorem Shows.exists_handle {es : List Element} {hs : List Handle} (h : t.Shows owner es hs)
    {e : Element} (he : e ∈ es) {s : Sketch} (hsketch : Sketch.ofElement? e = some s) :
    ∃ c ∈ hs, ∃ n, t.node? c = some n ∧ n.Depicts s := by
  have hs' : s ∈ sketches es := List.mem_filterMap.mpr ⟨e, he, hsketch⟩
  obtain ⟨c, hc, n, hn, hd, -⟩ := exists_related (List.Forall₂.flip h) hs'
  exact ⟨c, hc, n, hn, hd⟩

theorem Shows.length {es : List Element} {hs : List Handle} (h : t.Shows owner es hs) :
    hs.length = (sketches es).length :=
  (List.Forall₂.length_eq h).symm

/-! ## One node -/

namespace Furnished

variable {h : Handle} {o : Outline} {n : Node} {rs : List (Slot × List Handle)}

theorem takes (hf : t.Furnished h o n rs) (ho : o.Proper) :
    ∀ r ∈ rs, o.sketch.payload.takes r.1 = true := by
  intro r hr
  obtain ⟨s, regions, children⟩ := o
  rw [Outline.Proper] at ho
  obtain ⟨r', hr', hregion⟩ := exists_related hf.regions hr
  rw [hregion.slot]
  exact ((Outline.properRegions_iff _ _).mp ho.2.2.1 r' hr').1

/-- The slots of the node hold what stands in its regions. -/
theorem handles_perm (hf : t.Furnished h o n rs) (ho : o.Proper) :
    n.payload.handles.Perm (rs.flatMap Prod.snd) := by
  obtain ⟨uses, hp⟩ := hf.payload
  have hperm := Payload.handles_furnish rs (hf.takes ho)
  rwa [ho.fresh.handles, List.nil_append, ← Payload.handles_bindAll uses, ← hp] at hperm

theorem handles_nodup (hf : t.Furnished h o n rs) (ho : o.Proper) : n.payload.handles.Nodup :=
  (hf.handles_perm ho).nodup_iff.mpr hf.nodup

theorem exists_parent (hf : t.Furnished h o n rs) (ho : o.Proper) :
    ∀ c ∈ n.payload.handles, ∃ m, t.node? c = some m ∧ m.parent = some h := by
  intro c hc
  obtain ⟨r, hr, hcr⟩ := List.mem_flatMap.mp ((hf.handles_perm ho).mem_iff.mp hc)
  obtain ⟨r', -, hregion⟩ := exists_related hf.regions hr
  obtain ⟨o', -, hcarries⟩ := exists_related hregion.lodges.carries hcr
  obtain ⟨m, hm, -, hparent⟩ := hcarries.exists_node
  exact ⟨m, hm, hparent⟩

end Furnished

/-! ## Reading -/

theorem lt_of_no_parent (t : Tree) : ∀ p, (none : Option Handle) = some p → p < t.size := by
  rintro p ⟨⟩

section

variable (t : Tree) (c : Context) {parent : Option Handle} (es : List Element)
  (roots : List Handle)

/-- Each outline, at whatever depth, stands where it has been laid. -/
theorem read_keeps (hparent : ∀ p, parent = some p → p < t.size) {i : Nat} {o : Outline}
    (ho : (Outline.flatAll (Outline.ofElements es))[i]? = some o) :
    ∃ path next p, (t.read c parent es roots).Keeps (o.laid (t.size + i) path next p) := by
  obtain ⟨path, next, p, hsub⟩ :=
    Outline.laidAll_flat t.size c.path c.next parent (Outline.ofElements es) i o ho
  exact ⟨path, next, p, keeps_correlate ((t.grow_held c hparent _).subset hsub) roots⟩

/-- It has a node with its regions. -/
theorem read_furnished (hparent : ∀ p, parent = some p → p < t.size) {i : Nat} {o : Outline}
    (ho : (Outline.flatAll (Outline.ofElements es))[i]? = some o) :
    ∃ n rs, (t.read c parent es roots).Furnished (t.size + i) o n rs := by
  obtain ⟨path, next, p, hkeeps⟩ := t.read_keeps c es roots hparent ho
  have hregions := hkeeps.subset (Outline.regions_subset_laid (t.size + i) path next p o)
  obtain ⟨s, regions, children⟩ := o
  rw [Outline.laid] at hkeeps
  obtain ⟨uses, hn⟩ := hkeeps _ (List.mem_cons_self ..)
  exact ⟨_, Outline.regionHandles (t.size + i + 1) regions, hn, ⟨uses, rfl⟩,
    region_handles _ hregions, Outline.regionHandles_nodup _ regions⟩

/-- The same for an element of a given form. -/
theorem read_reached (hparent : ∀ p, parent = some p → p < t.size) {i : Nat} {e : Element}
    {f : Form} (h : Outline.Reached es i e) (hform : Form.ofType e.type = f) :
    ∃ n s rs, f.sketch? e = some s ∧ (Outline.complete f e s).Proper ∧
      (t.read c parent es roots).Furnished (t.size + i) (Outline.complete f e s) n rs := by
  obtain ⟨o, ho, hi⟩ := h
  have hproper := (Outline.ofElement_proper e).1 o ho
  obtain ⟨n, rs, hf⟩ := t.read_furnished c es roots hparent hi
  obtain ⟨s, hs, rfl⟩ := Outline.ofElement?_eq_some ho
  rw [hform] at hs hproper hf
  exact ⟨n, s, rs, hs, hproper, hf⟩

end

end Tree

end Orchestration.Shape
