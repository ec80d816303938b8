import Orchestration.Proofs.Model.Assembly
import Orchestration.Proofs.Shape.Regions

/-!
# Orchestration.Proofs.Model.Correlation

Which correlation sets the receives of a model list.

* `Tree.references` — the names of the sets that are declared below some roots and refer to a
  receive in one of the two roles, in order, once for each reference.
* `Model.Assembled.receive_payload` — a receive lists these names, each at its first place.
* `Model.Assembled.mem_references` — every declaration of the tree counts, wherever it stands.
-/

namespace Orchestration

namespace Shape

/-- The references that a node makes to statements. -/
def Node.refs (n : Node) : List StatementRef :=
  match n.payload with
  | .correlation _ refs => refs
  | _ => []

/-- A reference in the given role whose identifier is registered for `r`. -/
def Tree.pointsTo (t : Tree) (role : Bool) (r : Handle) (ref : StatementRef) : Bool :=
  ref.statement != "" && ref.initializes == role && t.lookup ref.statement == some r

/-- The names of the correlation sets declared below the roots that refer to `r`, one for each
reference. -/
def Tree.references (t : Tree) (roots : List Handle) (role : Bool) (r : Handle) : List String :=
  (t.resolve (t.walk roots)).flatMap fun d =>
    if d.kind = .correlationDeclaration then
      (d.refs.filter (t.pointsTo role r)).map fun _ => d.name
    else []

theorem Node.bindings_eq (n : Node) :
    n.bindings = if n.kind = .correlationDeclaration then n.refs.map (⟨n.name, ·⟩) else [] := by
  rw [bindings]
  split
  · rw [refs]
    cases n.payload <;> rfl
  · rfl

namespace Tree

variable {t : Tree}

theorem target?_beq {r : Handle} {n : Node} (hn : t.node? r = some n) (hk : n.kind = .receive)
    (b : Binding) : (t.target? b == some r) = (t.lookup b.ref.statement == some r) := by
  rw [Bool.eq_iff_iff, beq_iff_eq, beq_iff_eq, target?_eq_some_iff]
  constructor
  · exact And.left
  · exact fun hl => ⟨hl, n, hn, hk⟩

/-- The uses that are entered into a receive are the references to it. -/
theorem namesIn_usesOf (roots : List Handle) (role : Bool) {r : Handle} {n : Node}
    (hn : t.node? r = some n) (hk : n.kind = .receive) :
    Payload.namesIn role (t.usesOf (t.declaredUses roots) r) = t.references roots role r := by
  simp only [Payload.namesIn, usesOf, declaredUses, bindings, references, List.filter_flatMap,
    List.map_flatMap, target?_beq hn hk]
  refine List.flatMap_congr fun d _ => ?_
  rw [Node.bindings_eq]
  split
  · simp only [List.filter_map, List.filter_filter, List.map_map, Function.comp_def]
    refine congrArg (List.map _) (List.filter_congr fun ref _ => ?_)
    rw [pointsTo, Bool.eq_iff_iff]
    simp only [Bool.and_eq_true, bne_iff_ne, beq_iff_eq, decide_eq_true_eq]
    constructor
    · rintro ⟨hrole, hlookup, hid⟩
      exact ⟨⟨hid, hrole⟩, hlookup⟩
    · rintro ⟨⟨hid, hrole⟩, hlookup⟩
      exact ⟨hrole, hlookup, hid⟩
  · rfl

end Tree

end Shape

namespace Model

open Shape (Handle Node Payload Sketch StatementRef Tree standAlone)

/-- The references to a receive that the correlation sets of a model make in one role: those of the
sets declared beside the body, then those of the body in the order of the walk. -/
def references (m : Model) (role : Bool) (r : Handle) : List String :=
  m.tree.references (m.declaredCorrelations ++ m.shapes) role r

namespace Assembled

variable {d : Designer.Document} {m : Model}

/-- A node of the model is one that has grown, with the uses that refer to it entered. -/
theorem node?_eq (ha : Assembled d m) (h : Handle) :
    m.tree.node? h = ((grownBody d).tree.node? h).map (Node.bindAll
      (m.tree.usesOf (m.tree.declaredUses (m.declaredCorrelations ++ m.shapes)) h)) := by
  have huses : m.tree.usesOf (m.tree.declaredUses (m.declaredCorrelations ++ m.shapes)) h =
      (grownBody d).tree.usesOf
        ((grownBody d).tree.declaredUses (m.declaredCorrelations ++ m.shapes)) h := by
    rw [ha.tree, Tree.correlate_declaredUses]
    exact List.filter_congr fun b _ => by rw [Tree.correlate_target?]
  rw [huses, ← Tree.correlate_node?, ← ha.tree]

theorem receive_payload (ha : Assembled d m) {r : Handle} {n : Node}
    (hn : m.tree.node? r = some n) (hk : n.kind = .receive) :
    ∃ x activate, n.payload = .receive x activate (m.references true r).eraseDups
      (m.references false r).eraseDups := by
  have hgrown := ha.node?_eq r
  rw [hn] at hgrown
  obtain ⟨g, hg, hbound⟩ := Option.map_eq_some_iff.mp hgrown.symm
  have hfresh := grownBody_fresh hg
  have hkind : g.kind = .receive := by
    rw [← hk, ← hbound]
    rfl
  have hsuits := hfresh.suits
  rw [hkind] at hsuits
  obtain ⟨x, activate, initializes, follows, hp⟩ := Payload.receive_of_suits hsuits
  obtain ⟨rfl, rfl⟩ := hfresh.unbound x activate initializes follows hp
  refine ⟨x, activate, ?_⟩
  rw [← hbound, Node.bindAll, hp, Payload.bindAll_receive, Shape.foldl_enterName,
    Shape.foldl_enterName, Tree.namesIn_usesOf _ _ hn hk, Tree.namesIn_usesOf _ _ hn hk]
  simp [references]

/-- Variables beside the body hold nothing and declare no correlation set. -/
theorem declaredVariable (ha : Assembled d m) {h : Handle} (hh : h ∈ m.declaredVariables) :
    ∃ n, m.tree.node? h = some n ∧ n.kind = .variableDeclaration ∧ n.inside = [] := by
  rw [ha.declaredVariables, declare_variables_handles,
    ← Shape.standAlone_handles 0 serviceContext serviceSequence] at hh
  obtain ⟨x, hx, rfl⟩ := List.mem_map.mp hh
  have hnode : x.2 ∈ (declaredSketches d variableType).map
      fun s => s.node serviceContext serviceSequence none := by
    rw [← Shape.standAlone_nodes 0]
    exact List.mem_map_of_mem hx
  obtain ⟨s, hs, hxs⟩ := List.mem_map.mp hnode
  have hlayout : x ∈ layout d := List.mem_append_left _ (List.mem_append_left _ hx)
  have hgrown : (grownBody d).tree.node? x.1 = some x.2 :=
    (Tree.mem_iff_node? (grownBody_list d) (layout_handles d) x.1 x.2).mp hlayout
  have hkind : some Shape.Kind.variableDeclaration = some s.kind := kind_of_mem_declaredSketches hs
  refine ⟨_, (ha.node?_eq x.1).trans (congrArg _ hgrown), ?_, ?_⟩
  · rw [← hxs]
    exact (Option.some.inj hkind).symm
  · rw [Node.bindAll_inside, ← hxs]
    exact (declaredSketches_fresh d variableType s hs).node_inside ..

theorem declaration_mem_walk (ha : Assembled d m) {h : Handle} {n : Node}
    (hn : m.tree.node? h = some n) (hk : n.kind = .correlationDeclaration) :
    h ∈ m.tree.walk (m.declaredCorrelations ++ m.shapes) := by
  have hl := ha.linked
  have hall : h ∈ m.tree.walk m.roots := (hl.mem_walk_iff h).mpr (Tree.lt_size_of_node? hn)
  rw [roots, declared, List.append_assoc, Tree.walk_append] at hall
  refine (List.mem_append.mp hall).resolve_left fun hv => ?_
  rw [hl.rising.walk_eq] at hv
  obtain ⟨v, hv, hh⟩ := List.mem_flatMap.mp hv
  obtain ⟨vn, hvn, hkind, hinside⟩ := ha.declaredVariable hv
  rw [Tree.inside_of_node? hvn, hinside, Tree.walk_nil] at hh
  obtain rfl := List.mem_singleton.mp hh
  obtain rfl := Option.some.inj (hn.symm.trans hvn)
  rw [hkind] at hk
  cases hk

theorem mem_references (ha : Assembled d m) (role : Bool) (r : Handle) (name : String) :
    name ∈ m.references role r ↔
      ∃ h n ref, m.tree.node? h = some n ∧ n.kind = .correlationDeclaration ∧ n.name = name ∧
        ref ∈ n.refs ∧ ref.statement ≠ "" ∧ ref.initializes = role ∧
        m.tree.lookup ref.statement = some r := by
  rw [references, Tree.references, List.mem_flatMap]
  constructor
  · rintro ⟨n, hn, hm⟩
    obtain ⟨h, -, hnode⟩ := List.mem_filterMap.mp hn
    split at hm
    · next hk =>
      obtain ⟨ref, href, rfl⟩ := List.mem_map.mp hm
      obtain ⟨href, hpoints⟩ := List.mem_filter.mp href
      simp only [Tree.pointsTo, Bool.and_eq_true, bne_iff_ne, beq_iff_eq] at hpoints
      exact ⟨h, n, ref, hnode, hk, rfl, href, hpoints.1.1, hpoints.1.2, hpoints.2⟩
    · cases hm
  · rintro ⟨h, n, ref, hnode, hk, rfl, href, hid, hrole, hlookup⟩
    refine ⟨n, List.mem_filterMap.mpr ⟨h, ha.declaration_mem_walk hnode hk, hnode⟩, ?_⟩
    rw [if_pos hk]
    refine List.mem_map.mpr ⟨ref, List.mem_filter.mpr ⟨href, ?_⟩, rfl⟩
    simp [Tree.pointsTo, hid, hrole, hlookup]

end Assembled

/-- Binding is exact: a receive lists the references to it in order, each name at its first place,
and a name is listed exactly when some declaration of the tree refers to the receive. -/
theorem bound_exactly {text source : String} {m : Model} (h : ofText text source = .ok m)
    {r : Handle} {receive : Node} (hr : m.tree.node? r = some receive)
    (hk : receive.kind = .receive) :
    (∃ x activate, receive.payload =
      .receive x activate (m.references true r).eraseDups (m.references false r).eraseDups) ∧
    ∀ role, (m.references role r).eraseDups.Nodup ∧
      ∀ name, name ∈ (m.references role r).eraseDups ↔
        ∃ d n ref, m.tree.node? d = some n ∧ n.kind = .correlationDeclaration ∧
          n.name = name ∧ ref ∈ n.refs ∧ ref.statement ≠ "" ∧ ref.initializes = role ∧
          m.tree.lookup ref.statement = some r := by
  obtain ⟨d, hd⟩ := assembled_of_ofText h
  refine ⟨hd.receive_payload hr hk, fun role => ⟨Shape.nodup_eraseDups _, fun name => ?_⟩⟩
  rw [List.mem_eraseDups]
  exact hd.mem_references role r name

theorem bound_sample :
    ∃ m receive, ofText sample "orders.odx" = .ok m ∧ m.tree.node? 1 = some receive ∧
      receive.kind = .receive ∧ (m.references true 1).eraseDups = ["Order"] ∧
      (m.references false 1).eraseDups = [] := by
  obtain ⟨m, hm, hv⟩ := sample_parsed
  obtain ⟨receive, hr, hv⟩ := Option.map_eq_some_iff.mp (congrArg Prod.snd hv)
  have hk : receive.kind = .receive := congrArg Prod.fst hv
  have hlisted : receive.payload = .receive ⟨"", "", "", ""⟩ false ["Order"] [] :=
    congrArg Prod.snd hv
  obtain ⟨⟨x, activate, hp⟩, -⟩ := bound_exactly hm hr hk
  rw [hlisted] at hp
  injection hp with _ _ hi hf
  exact ⟨m, receive, hm, hr, hk, hi.symm, hf.symm⟩

end Model

end Orchestration
