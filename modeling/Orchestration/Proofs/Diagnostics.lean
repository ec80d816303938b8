import Orchestration.Diagnostics
import Orchestration.Proofs.Shape.Walk

/-!
# Orchestration.Proofs.Diagnostics

Which shapes the hierarchy of a model shows.

* `headers` — the lines that show a shape, told by their first character after the margin, without
  the margin.
* `headers_render` — they are the lines of the nodes that a walk of the body meets, each once.
-/

namespace Orchestration.Diagnostics

open Shape (Handle Node Payload Tree)

/-- A line without its margin. -/
def unindent (line : String) : String := String.ofList (line.toList.dropWhile (· == ' '))

/-- Whether a line shows a shape. -/
def isHeader (line : String) : Bool := (line.toList.dropWhile (· == ' ')).head? == some '['

/-- The lines that show shapes. -/
def headers (lines : List String) : List String := (lines.filter isHeader).map unindent

theorem headers_append (xs ys : List String) : headers (xs ++ ys) = headers xs ++ headers ys := by
  simp [headers]

theorem headers_flatMap {α : Type} (f : α → List String) (xs : List α) :
    headers (xs.flatMap f) = xs.flatMap fun x => headers (f x) := by
  induction xs with
  | nil => rfl
  | cons x rest ih => rw [List.flatMap_cons, List.flatMap_cons, headers_append, ih]

/-! ## Single lines -/

theorem dropWhile_margin (level : Nat) (line : String) :
    (margin level ++ line).toList.dropWhile (· == ' ') = line.toList.dropWhile (· == ' ') := by
  rw [String.toList_append, margin, Text.fill, String.toList_ofList]
  induction 2 * level with
  | zero => rfl
  | succ n ih => rw [List.replicate_succ, List.cons_append, List.dropWhile_cons_of_pos rfl, ih]

theorem isHeader_margin (level : Nat) (line : String) :
    isHeader (margin level ++ line) = isHeader line := by
  rw [isHeader, isHeader, dropWhile_margin]

theorem unindent_margin (level : Nat) (line : String) :
    unindent (margin level ++ line) = unindent line := by
  rw [unindent, unindent, dropWhile_margin]

/-- The character that a line starts with; the rest of the line does not matter. -/
def startsWith (c : Char) (line : String) : Prop := ∃ rest, line.toList = c :: rest

theorem startsWith.append {c : Char} {line : String} (h : startsWith c line) (more : String) :
    startsWith c (line ++ more) := by
  obtain ⟨rest, h⟩ := h
  exact ⟨rest ++ more.toList, by rw [String.toList_append, h, List.cons_append]⟩

theorem startsWith.dropWhile {c : Char} {line : String} (h : startsWith c line) (hc : c ≠ ' ') :
    line.toList.dropWhile (· == ' ') = line.toList := by
  obtain ⟨rest, h⟩ := h
  rw [h]
  simp [hc]

theorem startsWith.isHeader {c : Char} {line : String} (h : startsWith c line) (hc : c ≠ ' ') :
    isHeader line = (c == '[') := by
  rw [Diagnostics.isHeader, h.dropWhile hc]
  obtain ⟨rest, h⟩ := h
  rw [h]
  rfl

theorem startsWith.unindent {c : Char} {line : String} (h : startsWith c line) (hc : c ≠ ' ') :
    unindent line = line := by
  rw [Diagnostics.unindent, h.dropWhile hc, String.ofList_toList]

theorem headers_headline (level : Nat) (n : Node) :
    headers [margin level ++ headline n] = [headline n] := by
  have hstart : startsWith '[' (headline n) := by
    unfold headline
    repeat refine startsWith.append ?_ _
    exact ⟨[], rfl⟩
  have hblank : '[' ≠ ' ' := by decide
  have hheader : isHeader (margin level ++ headline n) = true := by
    rw [isHeader_margin, hstart.isHeader hblank]
    rfl
  rw [headers, List.filter_cons_of_pos hheader, List.filter_nil, List.map_cons, List.map_nil,
    unindent_margin, hstart.unindent hblank]

theorem headers_eq_nil {lines : List String} (level : Nat)
    (hlines : ∀ line ∈ lines, isHeader line = false) :
    headers (lines.map (margin level ++ ·)) = [] := by
  have hnone : (lines.map (margin level ++ ·)).filter isHeader = [] := by
    rw [List.filter_eq_nil_iff]
    intro line hline
    obtain ⟨x, hx, rfl⟩ := List.mem_map.mp hline
    rw [isHeader_margin, hlines x hx]
    exact Bool.false_ne_true
  rw [headers, hnone, List.map_nil]

theorem not_header {c : Char} {line : String} (h : startsWith c line)
    (hc : c ≠ ' ' ∧ c ≠ '[') : isHeader line = false := by
  rw [h.isHeader hc.1]
  simpa using hc.2

theorem describe_lines (p : Payload) : ∀ line ∈ (describe p).1, isHeader line = false := by
  have hexpression : ∀ text, isHeader ("Expression: " ++ text) = false := fun text =>
    not_header (startsWith.append ⟨_, rfl⟩ text) (by decide : 'E' ≠ ' ' ∧ 'E' ≠ '[')
  have hconstructs : ∀ text, isHeader ("Constructs: " ++ text) = false := fun text =>
    not_header (startsWith.append ⟨_, rfl⟩ text) (by decide : 'C' ≠ ' ' ∧ 'C' ≠ '[')
  cases p with
  | decide condition t f => simp [describe, hexpression]
  | switch subject cases d => simp [describe, hexpression]
  | construct messages inner =>
    simp only [describe]
    split <;> simp [hconstructs]
  | _ => simp [describe]

theorem branchParts_titles (number : Nat) (branches : List (List Handle)) :
    ∀ part ∈ branchParts number branches, ∀ title ∈ part.title, isHeader title = false := by
  induction branches generalizing number with
  | nil => simp [branchParts]
  | cons b rest ih =>
    intro part hpart
    rcases List.mem_cons.mp hpart with rfl | hpart
    · intro title htitle
      obtain rfl := Option.some.inj htitle
      refine not_header (c := 'B') ?_ (by decide)
      repeat refine startsWith.append ?_ _
      exact ⟨_, rfl⟩
    · exact ih (number + 1) part hpart

theorem unlessEmpty_titles {c : Char} {title : String} (hs : List Handle)
    (htitle : startsWith c title) (hc : c ≠ ' ' ∧ c ≠ '[') :
    ∀ part ∈ unlessEmpty title hs, ∀ line ∈ part.title, isHeader line = false := by
  intro part hpart line hline
  unfold unlessEmpty at hpart
  split at hpart
  · simp at hpart
  · obtain rfl := List.mem_singleton.mp hpart
    obtain rfl := Option.some.inj hline
    exact not_header (((htitle.append _).append _).append _) hc

theorem describe_titles (p : Payload) :
    ∀ part ∈ (describe p).2, ∀ title ∈ part.title, isHeader title = false := by
  cases p with
  | decide condition t f =>
    intro part hpart
    rcases List.mem_append.mp hpart with hpart | hpart
    · exact unlessEmpty_titles (c := 'T') t ⟨_, rfl⟩ (by decide) part hpart
    · exact unlessEmpty_titles (c := 'F') f ⟨_, rfl⟩ (by decide) part hpart
  | switch subject cases d =>
    intro part hpart
    rcases List.mem_append.mp hpart with hpart | hpart
    · obtain ⟨c, -, rfl⟩ := List.mem_map.mp hpart
      intro title htitle
      obtain rfl := Option.some.inj htitle
      refine not_header (c := 'C') ?_ (by decide)
      repeat refine startsWith.append ?_ _
      exact ⟨_, rfl⟩
    · exact unlessEmpty_titles (c := 'D') d ⟨_, rfl⟩ (by decide) part hpart
  | listen branches => exact branchParts_titles 1 branches
  | construct messages inner => simp [describe]
  | _ => simp [describe]

/-! ## Regions -/

theorem branchParts_shapes (number : Nat) (branches : List (List Handle)) :
    (branchParts number branches).flatMap Part.shapes = branches.flatten := by
  induction branches generalizing number with
  | nil => rfl
  | cons b rest ih => rw [branchParts, List.flatMap_cons, ih, List.flatten_cons]

theorem unlessEmpty_shapes (title : String) (hs : List Handle) :
    (unlessEmpty title hs).flatMap Part.shapes = hs := by
  cases hs <;> simp [unlessEmpty]

/-- Leaving out empty regions leaves out no shape. -/
theorem describe_shapes (p : Payload) : (describe p).2.flatMap Part.shapes = p.handles := by
  cases p with
  | decide condition t f =>
    simp only [describe, List.flatMap_append, unlessEmpty_shapes, Shape.Payload.handles_decide]
  | switch subject cases d =>
    simp only [describe, List.flatMap_append, unlessEmpty_shapes, Shape.Payload.handles_switch,
      List.flatMap_map]
  | listen branches =>
    rw [describe, branchParts_shapes, Shape.Payload.handles_listen]
  | construct messages inner => simp [describe]
  | _ => rfl

/-! ## The hierarchy -/

section

variable {t : Tree} {roots : List Handle}

/-- Handles with the numbers by which they are put in order. -/
theorem snd_numbered {hs : List Handle} (hhs : ∀ h ∈ hs, h < t.size) :
    (hs.filterMap fun h => (t.node? h).map fun n => (n.sequence, h)).map Prod.snd = hs := by
  induction hs with
  | nil => rfl
  | cons h rest ih =>
    obtain ⟨n, hn⟩ := Tree.exists_node? (hhs h (List.mem_cons_self ..))
    have hrest := ih fun x hx => hhs x (List.mem_cons_of_mem _ hx)
    rw [List.filterMap_cons, hn, Option.map_some, List.map_cons, hrest]

theorem inSequence_perm {hs : List Handle} (hhs : ∀ h ∈ hs, h < t.size) :
    (inSequence t hs).Perm hs := by
  have hsort := (List.mergeSort_perm (hs.filterMap fun h =>
    (t.node? h).map fun n => (n.sequence, h)) fun a b => decide (a.1 ≤ b.1)).map Prod.snd
  rw [snd_numbered hhs] at hsort
  exact hsort

/-- The lines that a walk from these roots asks for. -/
def walkLines (t : Tree) (hs : List Handle) : List String :=
  (t.resolve (t.walk hs)).map headline

theorem walkLines_append (hs hs' : List Handle) :
    walkLines t (hs ++ hs') = walkLines t hs ++ walkLines t hs' := by
  rw [walkLines, Tree.walk_append, Tree.resolve, List.filterMap_append, List.map_append]
  rfl

theorem walkLines_flatMap {α : Type} (f : α → List Handle) (xs : List α) :
    walkLines t (xs.flatMap f) = xs.flatMap fun x => walkLines t (f x) := by
  induction xs with
  | nil => simp [walkLines, Tree.resolve]
  | cons x rest ih => rw [List.flatMap_cons, List.flatMap_cons, walkLines_append, ih]

theorem walkLines_node (hr : t.Rising) {h : Handle} {n : Node} (hn : t.node? h = some n) :
    walkLines t [h] = headline n :: walkLines t n.inside := by
  rw [walkLines, hr.walk_singleton, Tree.inside_of_node? hn, Tree.resolve,
    List.filterMap_cons_some hn, List.map_cons]
  rfl

theorem walkLines_eq_flatMap (hs : List Handle) :
    walkLines t hs = hs.flatMap fun h => walkLines t [h] := by
  rw [← walkLines_flatMap]
  simp

/-- The lines of shapes side by side with everything below them. -/
def shownBelow (t : Tree) (depth level : Nat) (hs : List Handle) : List String :=
  (inSequence t hs).flatMap fun h => headers (renderWithin t depth level h)

/-- A shape shows itself, then its regions, then its children. -/
theorem headers_node {h : Handle} {n : Node} (hn : t.node? h = some n) (depth level : Nat) :
    headers (renderWithin t (depth + 1) level h) = headline n ::
      (((describe n.payload).2.flatMap fun p => shownBelow t depth (level + p.depth) p.shapes) ++
        shownBelow t depth (level + 1) n.children) := by
  have htitle : ∀ p ∈ (describe n.payload).2,
      headers (p.title.toList.map (margin (level + 1) ++ ·)) = [] := fun p hp =>
    headers_eq_nil (level + 1) fun title ht =>
      describe_titles n.payload p hp title (Option.mem_toList.mp ht)
  have hparts : (headers ((describe n.payload).2.flatMap fun p =>
      p.title.toList.map (margin (level + 1) ++ ·) ++
        (inSequence t p.shapes).flatMap (renderWithin t depth (level + p.depth)))) =
      (describe n.payload).2.flatMap fun p => shownBelow t depth (level + p.depth) p.shapes := by
    rw [headers_flatMap]
    refine List.flatMap_congr fun p hp => ?_
    rw [headers_append, htitle p hp, List.nil_append, headers_flatMap, shownBelow]
  have hlines := headers_eq_nil (level + 1) (describe_lines n.payload)
  rw [renderWithin, hn]
  simp only [headers_append, headers_headline, hlines, hparts]
  rw [headers_flatMap, shownBelow]
  rfl

/-- Shapes side by side are shown in another order, each with everything below it. -/
theorem shownBelow_perm {depth level : Nat} {hs : List Handle} (hhs : ∀ h ∈ hs, h < t.size)
    (hf : ∀ h ∈ hs, (headers (renderWithin t depth level h)).Perm (walkLines t [h])) :
    (shownBelow t depth level hs).Perm (walkLines t hs) := by
  rw [shownBelow, walkLines_eq_flatMap]
  exact ((inSequence_perm hhs).flatMap_right _).trans (List.Perm.flatMap_left hs hf)

theorem headers_renderWithin (hl : t.Linked roots) {depth : Nat} (level : Nat) {h : Handle}
    (hh : h < t.size) (hd : t.size - h < depth) :
    (headers (renderWithin t depth level h)).Perm (walkLines t [h]) := by
  induction depth generalizing level h with
  | zero => exact absurd hd (Nat.not_lt_zero _)
  | succ depth ih =>
    obtain ⟨n, hn⟩ := Tree.exists_node? hh
    have hbelow : ∀ (level : Nat) (hs : List Handle), (∀ c ∈ hs, c ∈ n.inside) →
        (shownBelow t depth level hs).Perm (walkLines t hs) := by
      intro level hs hhs
      have hinside : ∀ c ∈ hs, c ∈ t.inside h := by
        rw [Tree.inside_of_node? hn]
        exact hhs
      refine shownBelow_perm (fun c hc => hl.inside_lt_size (hinside c hc)) fun c hc => ?_
      refine ih level (hl.inside_lt_size (hinside c hc)) ?_
      exact Nat.lt_of_lt_of_le (hl.rising.sub_lt (hinside c hc)) (Nat.le_of_lt_succ hd)
    have hparts : ((describe n.payload).2.flatMap fun p =>
        shownBelow t depth (level + p.depth) p.shapes).Perm (walkLines t n.payload.handles) := by
      rw [← describe_shapes, walkLines_flatMap]
      refine List.Perm.flatMap_left _ fun p hp => hbelow _ _ fun c hc => ?_
      rw [Node.inside, ← describe_shapes]
      exact List.mem_append_right _ (List.mem_flatMap.mpr ⟨p, hp, hc⟩)
    have hchildren := hbelow (level + 1) n.children fun c hc => List.mem_append_left _ hc
    rw [headers_node hn, walkLines_node hl.rising hn, Node.inside, walkLines_append]
    exact ((hparts.append hchildren).trans List.perm_append_comm).cons _

/-- The hierarchy shows every node below the roots of the body exactly once. -/
theorem headers_render {m : Model} (hl : m.tree.Linked roots)
    (hshapes : ∀ h ∈ m.shapes, h < m.tree.size) :
    (headers (render m)).Perm (walkLines m.tree m.shapes) := by
  rw [render, headers_flatMap]
  exact shownBelow_perm hshapes fun h hh =>
    headers_renderWithin hl 0 (hshapes h hh) (Tree.sub_lt_depth h)

end

end Orchestration.Diagnostics
