import Orchestration.Proofs.Model.Assembly

/-!
# Orchestration.Proofs.Model.Links

Where the shapes of a model are listed.

* `Place` — one of the lists that hold handles: the roots of the model, the children of a node, a
  region of a node.
* `Model.lists` — every such list of a model.
* `Model.Hung` — every node stands in exactly one of them, its parent tells where, and no node has
  both regions and children. The model of every text is like that.
-/

namespace Orchestration

open Shape (Handle Kind Node Tree)

/-- A list that holds handles. -/
inductive Place where
  | declaredVariables
  | declaredCorrelations
  | body
  | children (owner : Handle)
  | slot (owner : Handle) (label : String)
  deriving DecidableEq

/-- The node that a list belongs to; the roots belong to none. -/
def Place.owner? : Place → Option Handle
  | .declaredVariables | .declaredCorrelations | .body => none
  | .children owner | .slot owner _ => some owner

namespace Model

/-- The lists of roots. -/
def rootLists (m : Model) : List (Place × List Handle) :=
  [(.declaredVariables, m.declaredVariables), (.declaredCorrelations, m.declaredCorrelations),
    (.body, m.shapes)]

/-- The lists of one node: its children and each of its regions. -/
def nodeLists (h : Handle) (n : Node) : List (Place × List Handle) :=
  (.children h, n.children) :: n.payload.slots.map fun s => (.slot h s.1, s.2)

/-- Every list of handles in a model. -/
def lists (m : Model) : List (Place × List Handle) :=
  m.rootLists ++
    (List.range m.tree.size).flatMap fun h => ((m.tree.node? h).map (nodeLists h)).getD []

/-- A model in which every node has its place. -/
structure Hung (m : Model) : Prop where
  /-- Every handle of the tree is in one list, there once, and the lists hold no other handle. -/
  once : (m.lists.flatMap Prod.snd).Perm (List.range m.tree.size)
  /-- A node's parent is the owner of the list that the node is in. -/
  parent : ∀ x ∈ m.lists, ∀ h ∈ x.2, ∃ n, m.tree.node? h = some n ∧ n.parent = x.1.owner?
  orphan : ∀ h n, m.tree.node? h = some n → (n.parent = none ↔ h ∈ m.roots)
  earlier : ∀ h n p, m.tree.node? h = some n → n.parent = some p → p < h
  /-- Regions and children exclude each other. -/
  childless : ∀ h n, m.tree.node? h = some n → n.payload.slots ≠ [] → n.children = []
  slots : ∀ h n, m.tree.node? h = some n → n.payload.slots ≠ [] →
    n.kind ∈ [Kind.decide, .switch, .listen, .construct]
  leaves : ∀ h n, m.tree.node? h = some n →
    n.kind ∈ [Kind.decide, .switch, .listen, .construct, .messageAssignment] → n.children = []

theorem nodeLists_handles (h : Handle) (n : Node) :
    (nodeLists h n).flatMap Prod.snd = n.inside := by
  simp [nodeLists, Node.inside, Shape.Payload.handles, List.flatMap_map]

theorem nodeLists_owner {h : Handle} {n : Node} {x : Place × List Handle}
    (hx : x ∈ nodeLists h n) : x.1.owner? = some h := by
  rcases List.mem_cons.mp hx with rfl | hx
  · rfl
  · obtain ⟨s, -, rfl⟩ := List.mem_map.mp hx
    rfl

theorem rootLists_handles (m : Model) : m.rootLists.flatMap Prod.snd = m.roots := by
  simp [rootLists, roots, declared]

theorem rootLists_owner {m : Model} {x : Place × List Handle} (hx : x ∈ m.rootLists) :
    x.1.owner? = none := by
  have hall : ∀ x ∈ m.rootLists, x.1.owner? = none := by simp [rootLists, Place.owner?]
  exact hall x hx

theorem lists_handles (m : Model) :
    m.lists.flatMap Prod.snd = m.roots ++ (List.range m.tree.size).flatMap m.tree.inside := by
  rw [lists, List.flatMap_append, rootLists_handles, List.flatMap_assoc]
  refine congrArg (m.roots ++ ·) (List.flatMap_congr fun h _ => ?_)
  cases hn : m.tree.node? h with
  | none => simp [Tree.inside, hn]
  | some n => simp [Tree.inside, hn, nodeLists_handles]

theorem mem_lists {m : Model} {x : Place × List Handle} (hx : x ∈ m.lists) :
    x ∈ m.rootLists ∨ ∃ p n, m.tree.node? p = some n ∧ x ∈ nodeLists p n := by
  rcases List.mem_append.mp hx with hx | hx
  · exact .inl hx
  · obtain ⟨p, -, hx⟩ := List.mem_flatMap.mp hx
    cases hn : m.tree.node? p with
    | none => simp [hn] at hx
    | some n => exact .inr ⟨p, n, hn, by simpa [hn] using hx⟩

theorem hung_of_linked {m : Model} (hl : m.tree.Linked m.roots) : m.Hung where
  once := by
    rw [lists_handles]
    exact hl.listed
  parent := by
    intro x hx h hh
    rcases mem_lists hx with hx | ⟨p, n, hn, hx⟩
    · have hr : h ∈ m.roots := by
        rw [← rootLists_handles]
        exact List.mem_flatMap.mpr ⟨x, hx, hh⟩
      rw [rootLists_owner hx]
      exact hl.root h hr
    · have hi : h ∈ n.inside := by
        rw [← nodeLists_handles p]
        exact List.mem_flatMap.mpr ⟨x, hx, hh⟩
      rw [nodeLists_owner hx]
      exact (hl.link p n hn h hi).2
  orphan := fun _ _ hn => hl.parent_eq_none_iff hn
  earlier := fun _ _ _ hn hp => hl.parent_lt hn hp
  childless := fun _ _ hn hs => hl.childless hn hs
  slots := fun h n hn hs => Shape.Payload.kind_of_suits (hl.fits h n hn).suits hs
  leaves := by
    intro h n hn hk
    refine (hl.fits h n hn).childless ?_
    have hall : ∀ k ∈ [Kind.decide, .switch, .listen, .construct, .messageAssignment],
        k.holdsSlots = true := by decide
    exact hall n.kind hk

/-- In the model of a text every node has its place. -/
theorem hung_of_ofText {text source : String} {m : Model} (h : ofText text source = .ok m) :
    m.Hung := by
  obtain ⟨d, hd⟩ := assembled_of_ofText h
  exact hung_of_linked hd.linked

theorem hung_sample :
    ∃ m, ofText sample "orders.odx" = .ok m ∧ m.tree.size = 5 ∧ m.Hung := by
  obtain ⟨m, hm, hv⟩ := sample_parsed
  exact ⟨m, hm, congrArg Prod.fst hv, hung_of_ofText hm⟩

end Model

end Orchestration
