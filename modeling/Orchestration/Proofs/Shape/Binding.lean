import Mathlib.Algebra.BigOperators.Group.List.Basic
import Mathlib.Algebra.GroupWithZero.Nat
import Orchestration.Proofs.Shape.Correlation
import Orchestration.Proofs.Shape.Regions

/-!
# Orchestration.Proofs.Shape.Binding

Binding correlation sets as a pass over a tree.

* `Tree.Extended` — all that the pass may change: receives list more sets.
* `Correlated.count_run` — the number that a run counts is that of the names it enters.
* `Correlated.run_after` — what a run does to a tree does not depend on what was counted before.
* `Correlated.visitWithin_eq` — binding each set on the way is binding them after the walk.
* `Tree.correlate_accumulates` — binding extends the tree and counts truly, a second pass does
  nothing, passes add up, and the order of the roots decides at most the order of the names.
-/

namespace Orchestration.Shape

/-! ## Lists of names -/

/-- A list with other names at its end, each of them once and none of them there before. -/
def Lengthened (names names' : List String) : Prop :=
  ∃ added, names' = names ++ added ∧ added.Nodup ∧ ∀ name ∈ added, name ∉ names

theorem lengthened_foldl (names seen : List String) :
    Lengthened seen (names.foldl enterName seen) := by
  refine ⟨_, foldl_enterName names seen, nodup_eraseDups _, fun name hname => ?_⟩
  rw [List.mem_eraseDups, List.mem_filter] at hname
  simpa using hname.2

theorem mem_foldl_enterName {names seen : List String} {name : String} :
    name ∈ names.foldl enterName seen ↔ name ∈ seen ∨ name ∈ names := by
  rw [foldl_enterName, List.mem_append, List.mem_eraseDups, List.mem_filter]
  by_cases hseen : name ∈ seen
  · simp [hseen]
  · simp [hseen]

/-- The order in which names are entered decides nothing but their order. -/
theorem foldl_enterName_perm {names names' : List String} (h : names.Perm names')
    (seen : List String) :
    (names.foldl enterName seen).Perm (names'.foldl enterName seen) := by
  rw [foldl_enterName, foldl_enterName]
  refine List.Perm.append_left seen ?_
  refine (List.perm_ext_iff_of_nodup (nodup_eraseDups _) (nodup_eraseDups _)).mpr fun name => ?_
  rw [List.mem_eraseDups, List.mem_eraseDups]
  exact (h.filter _).mem_iff

/-! ## One node -/

namespace Payload

/-- The sets that a receive lists in a role; other shapes list none. -/
def listed (role : Bool) : Payload → List String
  | .receive _ _ initializes follows => if role then initializes else follows
  | _ => []

/-- How many names a shape lists. -/
def listedCount (p : Payload) : Nat := (p.listed true).length + (p.listed false).length

theorem listedCount_bind (b : Binding) {p : Payload} (hp : p.suits .receive = true) :
    (p.bind b).listedCount = p.listedCount + 1 := by
  obtain ⟨x, activate, initializes, follows, rfl⟩ := receive_of_suits hp
  cases hr : b.ref.initializes with
  | true => simp [bind, hr, listedCount, listed, Nat.add_right_comm]
  | false => simp [bind, hr, listedCount, listed, Nat.add_assoc]

/-- Whatever has been entered is listed. -/
theorem uses_bindAll {bs : List Binding} {b : Binding} (hb : b ∈ bs) {p : Payload}
    (hp : p.suits .receive = true) : (bs.foldl enter p).uses b = true := by
  obtain ⟨x, activate, initializes, follows, rfl⟩ := receive_of_suits hp
  have hname : b.name ∈ namesIn b.ref.initializes bs :=
    List.mem_map_of_mem (List.mem_filter.mpr ⟨hb, by simp⟩)
  rw [bindAll_receive, uses, List.contains_iff_mem]
  cases hr : b.ref.initializes with
  | true =>
    rw [hr] at hname
    exact mem_foldl_enterName.mpr (.inr hname)
  | false =>
    rw [hr] at hname
    exact mem_foldl_enterName.mpr (.inr hname)

theorem listed_bindAll_perm {bs bs' : List Binding} (h : bs.Perm bs') (role : Bool)
    (p : Payload) :
    ((bs.foldl enter p).listed role).Perm ((bs'.foldl enter p).listed role) := by
  by_cases hp : p.suits .receive = true
  · obtain ⟨x, activate, initializes, follows, rfl⟩ := receive_of_suits hp
    have hnames : ∀ role', (namesIn role' bs).Perm (namesIn role' bs') := fun role' =>
      (h.filter _).map _
    rw [bindAll_receive, bindAll_receive]
    cases role with
    | true => exact foldl_enterName_perm (hnames true) initializes
    | false => exact foldl_enterName_perm (hnames false) follows
  · have hnone : ∀ x activate initializes follows,
        p ≠ .receive x activate initializes follows := by
      rintro x activate initializes follows rfl
      exact hp rfl
    rw [bindAll_of_not_receive bs hnone, bindAll_of_not_receive bs' hnone]

end Payload

/-- A node, or a receive that lists more sets than before. -/
inductive Node.Extended (n : Node) : Node → Prop where
  | same : n.Extended n
  | receive {x : Exchange} {activate : Bool} {initializes follows initializes' follows' : List String} :
      n.kind = .receive → n.payload = .receive x activate initializes follows →
      Lengthened initializes initializes' → Lengthened follows follows' →
      n.Extended { n with payload := .receive x activate initializes' follows' }

theorem Node.bindAll_nil (n : Node) : n.bindAll [] = n := rfl

theorem Node.extended_bindAll (bs : List Binding) {n : Node} (hk : n.kind = .receive)
    (hp : n.payload.suits .receive = true) : n.Extended (n.bindAll bs) := by
  obtain ⟨x, activate, initializes, follows, hpayload⟩ := Payload.receive_of_suits hp
  rw [bindAll, hpayload, Payload.bindAll_receive]
  exact .receive hk hpayload (lengthened_foldl _ _) (lengthened_foldl _ _)

theorem Node.bindAll_suits (bs : List Binding) (k : Kind) (n : Node) :
    (n.bindAll bs).payload.suits k = n.payload.suits k := by
  rcases n.bindAll_cases bs with h | ⟨_, _, _, _, _, _, hp, h⟩
  · rw [h]
  · rw [h, hp]
    rfl

/-! ## Trees -/

namespace Tree

/-- Every receive of the tree has the content of one. -/
def Receptive (t : Tree) : Prop := ∀ n ∈ t.list, n.kind = .receive → n.payload.suits .receive = true

instance (t : Tree) : Decidable t.Receptive :=
  inferInstanceAs (Decidable (∀ n ∈ t.list, n.kind = .receive → n.payload.suits .receive = true))

/-- How many names the receives of a tree list. -/
def listedCount (t : Tree) : Nat := (t.list.map fun n => n.payload.listedCount).sum

/-- A tree in which nothing has changed, but that receives list more sets. -/
structure Extended (t t' : Tree) : Prop where
  index : t'.index = t.index
  size : t'.size = t.size
  node : ∀ h n, t.node? h = some n → ∃ n', t'.node? h = some n' ∧ n.Extended n'

variable {t t' : Tree}

theorem Receptive.suits (ht : t.Receptive) {h : Handle} {n : Node} (hn : t.node? h = some n)
    (hk : n.kind = .receive) : n.payload.suits .receive = true := by
  rw [node?_eq_getElem?] at hn
  exact ht n (List.mem_of_getElem? hn) hk

theorem Receptive.map (ht : t.Receptive) (uses : Handle → List Binding)
    (hnode : ∀ h, t'.node? h = (t.node? h).map (Node.bindAll (uses h))) : t'.Receptive := by
  intro n hn hk
  obtain ⟨h, hh⟩ := List.mem_iff_getElem?.mp hn
  rw [← node?_eq_getElem?, hnode] at hh
  obtain ⟨m, hm, rfl⟩ := Option.map_eq_some_iff.mp hh
  rw [Node.bindAll_suits]
  exact ht.suits hm hk

end Tree

/-! ## Counting -/

theorem sum_modify {α : Type} (count : α → Nat) (f : α → α) {l : List α} {i : Nat} {x : α}
    (hx : l[i]? = some x) :
    ((l.modify i f).map count).sum + count x = (l.map count).sum + count (f x) := by
  induction l generalizing i with
  | nil => cases hx
  | cons a rest ih =>
    cases i with
    | zero =>
      obtain rfl := Option.some.inj hx
      simp only [List.modify_zero_cons, List.map_cons, List.sum_cons]
      omega
    | succ i =>
      have hrest := ih hx
      simp only [List.modify_succ_cons, List.map_cons, List.sum_cons]
      omega

namespace Correlated

theorem receptive_step {c : Correlated} (ht : c.tree.Receptive) (b : Binding) :
    (c.step b).tree.Receptive :=
  ht.map (fun h => c.tree.usesOf [b] h) (c.step_node? b)

/-- A step counts one exactly when it enters one name. -/
theorem count_step {c : Correlated} (ht : c.tree.Receptive) (b : Binding) :
    (c.step b).tree.listedCount + c.added = c.tree.listedCount + (c.step b).added := by
  unfold step
  split
  · rfl
  · next h n hr =>
    obtain ⟨-, hn, hk⟩ := Tree.receiver?_eq_some_iff.mp hr
    split
    · rfl
    · rw [Tree.node?_eq_getElem?] at hn
      have hsum := sum_modify (fun n : Node => n.payload.listedCount)
        (fun n => { n with payload := n.payload.bind b }) hn
      have hsuits := ht n (List.mem_of_getElem? hn) hk
      simp only [Payload.listedCount_bind b hsuits] at hsum
      simp only [Tree.listedCount, Tree.list_update]
      omega

theorem count_run {c : Correlated} (ht : c.tree.Receptive) (bs : List Binding) :
    (bs.foldl step c).tree.listedCount + c.added =
      c.tree.listedCount + (bs.foldl step c).added := by
  induction bs generalizing c with
  | nil => rfl
  | cons b rest ih =>
    have hstep := count_step ht b
    have hrest := ih (receptive_step ht b)
    rw [List.foldl_cons]
    omega

/-! ## One run after another -/

/-- Both together, the second one begun with nothing counted. -/
def followedBy (c d : Correlated) : Correlated :=
  ⟨d.tree, c.added + d.added, c.events ++ d.events⟩

theorem step_followedBy (c d : Correlated) (b : Binding) :
    (c.followedBy d).step b = c.followedBy (d.step b) := by
  simp only [step, followedBy]
  split
  · simp
  · split
    · rfl
    · simp [Nat.add_assoc]

theorem run_after (c : Correlated) (bs : List Binding) :
    bs.foldl step c = c.followedBy (bs.foldl step ⟨c.tree, 0, []⟩) := by
  have hrun : ∀ d : Correlated,
      bs.foldl step (c.followedBy d) = c.followedBy (bs.foldl step d) := by
    induction bs with
    | nil => exact fun _ => rfl
    | cons b rest ih =>
      intro d
      rw [List.foldl_cons, List.foldl_cons, step_followedBy, ih]
  have hself : c.followedBy ⟨c.tree, 0, []⟩ = c := by simp [followedBy]
  rw [← hrun, hself]

/-- Uses that are listed already are passed over. -/
theorem run_of_uses {c : Correlated} {bs : List Binding}
    (h : ∀ b ∈ bs, ∀ r n, c.tree.receiver? b = some (r, n) → n.payload.uses b = true) :
    (bs.foldl step c).tree = c.tree ∧ (bs.foldl step c).added = c.added := by
  induction bs generalizing c with
  | nil => exact ⟨rfl, rfl⟩
  | cons b rest ih =>
    have hstep : (c.step b).tree = c.tree ∧ (c.step b).added = c.added := by
      cases hr : c.tree.receiver? b with
      | none => simp [step, hr]
      | some r =>
        have huses : r.2.payload.uses b = true := h b (List.mem_cons_self ..) r.1 r.2 hr
        simp [step, hr, huses]
    have hrest := ih (c := c.step b) fun b' hb' r n hr => by
      rw [hstep.1] at hr
      exact h b' (List.mem_cons_of_mem _ hb') r n hr
    rw [List.foldl_cons, hrest.1, hrest.2]
    exact hstep

end Correlated

/-! ## Binding on the way -/

theorem Tree.bindings_append (t : Tree) (hs hs' : List Handle) :
    t.bindings (hs ++ hs') = t.bindings hs ++ t.bindings hs' := by
  rw [bindings, bindings, bindings, resolve, List.filterMap_append, List.flatMap_append,
    List.filter_append]
  rfl

theorem Tree.bindings_cons (t : Tree) (h : Handle) (hs : List Handle) :
    t.bindings (h :: hs) = t.bindings [h] ++ t.bindings hs :=
  t.bindings_append [h] hs

theorem Tree.walkWithin_append (t : Tree) (depth : Nat) (hs hs' : List Handle) :
    t.walkWithin depth (hs ++ hs') = t.walkWithin depth hs ++ t.walkWithin depth hs' := by
  cases depth with
  | zero => rfl
  | succ depth => rw [walkWithin, List.flatMap_append, walkWithin, walkWithin]

namespace Correlated

/-- What the pass sees of a tree is the same after a run. -/
theorem node?_run_map {α : Type} {f : Node → α} (hf : ∀ bs n, f (Node.bindAll bs n) = f n)
    (c : Correlated) (bs : List Binding) (h : Handle) :
    ((bs.foldl step c).tree.node? h).map f = (c.tree.node? h).map f := by
  rw [node?_run, Option.map_map]
  exact congrArg (Option.map · _) (funext (hf _))

theorem run_inside (c : Correlated) (bs : List Binding) :
    (bs.foldl step c).tree.inside = c.tree.inside := by
  funext h
  rw [Tree.inside, node?_run_map Node.bindAll_inside, Tree.inside]

theorem run_bindings (c : Correlated) (bs : List Binding) (hs : List Handle) :
    (bs.foldl step c).tree.bindings hs = c.tree.bindings hs := by
  rw [Tree.bindings, Tree.bindings, Tree.flatMap_resolve, Tree.flatMap_resolve]
  simp only [node?_run_map Node.bindAll_bindings]

/-- Binds the sets that a shape declares and goes on to its children, then to its regions; the shape
is read again each time. -/
def visitNode (visit : Correlated → List Handle → Correlated) (c : Correlated) (h : Handle) :
    Correlated :=
  let c := (c.tree.bindings [h]).foldl step c
  let c := visit c (((c.tree.node? h).map Node.children).getD [])
  visit c (((c.tree.node? h).map fun n => n.payload.handles).getD [])

/-- Binds each declaration when a walk meets it. -/
def visitWithin : Nat → Correlated → List Handle → Correlated
  | 0, c, _ => c
  | depth + 1, c, hs => hs.foldl (visitNode (visitWithin depth)) c

theorem visitNode_eq {visit : Correlated → List Handle → Correlated} {depth : Nat}
    (hvisit : ∀ c hs, visit c hs = (c.tree.bindings (c.tree.walkWithin depth hs)).foldl step c)
    (c : Correlated) (h : Handle) :
    visitNode visit c h =
      (c.tree.bindings (h :: c.tree.walkWithin depth (c.tree.inside h))).foldl step c := by
  have hsame : ∀ (bs : List Binding) hs,
      (bs.foldl step c).tree.bindings ((bs.foldl step c).tree.walkWithin depth hs) =
        c.tree.bindings (c.tree.walkWithin depth hs) := by
    intro bs hs
    rw [run_bindings, Tree.walkWithin_congr (run_inside c bs)]
  have hinside : c.tree.inside h = ((c.tree.node? h).map Node.children).getD [] ++
      ((c.tree.node? h).map fun n => n.payload.handles).getD [] := by
    cases hn : c.tree.node? h <;> simp [Tree.inside, Node.inside, hn]
  have hhandles : ∀ bs (n : Node), (n.bindAll bs).payload.handles = n.payload.handles :=
    fun bs n => Payload.handles_bindAll bs n.payload
  simp only [visitNode, hvisit]
  rw [hsame]
  simp only [← List.foldl_append, hsame]
  rw [node?_run_map (f := Node.children) (fun _ _ => rfl),
    node?_run_map (f := fun n => n.payload.handles) hhandles, hinside, Tree.walkWithin_append,
    Tree.bindings_cons _ h (_ ++ _), Tree.bindings_append, List.append_assoc]

/-- It makes no difference whether the walk is finished before the first set is bound. -/
theorem visitWithin_eq (depth : Nat) (c : Correlated) (hs : List Handle) :
    visitWithin depth c hs = (c.tree.bindings (c.tree.walkWithin depth hs)).foldl step c := by
  induction depth generalizing c hs with
  | zero => rfl
  | succ depth ih =>
    induction hs generalizing c with
    | nil => rfl
    | cons h rest ihRest =>
      have hfirst := visitNode_eq ih c h
      have hrest := ihRest (visitNode (visitWithin depth) c h)
      rw [visitWithin, List.foldl_cons, ← visitWithin, hrest, hfirst, run_bindings,
        Tree.walkWithin_congr (run_inside c _), ← List.foldl_append, ← Tree.bindings_append,
        Tree.walkWithin_succ, Tree.walkWithin_succ, List.flatMap_cons]

end Correlated

/-! ## The pass -/

namespace Tree

variable {t : Tree}

theorem Receptive.extended (ht : t.Receptive) (roots : List Handle) :
    t.Extended (t.correlate roots).tree := by
  refine ⟨t.correlate_index roots, t.correlate_size roots, fun h n hn => ?_⟩
  rw [correlate_node?, hn]
  refine ⟨_, rfl, ?_⟩
  by_cases hk : n.kind = .receive
  · exact n.extended_bindAll _ hk (ht.suits hn hk)
  · have hnone : t.usesOf (t.declaredUses roots) h = [] := by
      refine List.filter_eq_nil_iff.mpr fun b _ hb => ?_
      obtain ⟨-, n', hn', hk'⟩ := target?_eq_some_iff.mp (by simpa using hb)
      obtain rfl := Option.some.inj (hn.symm.trans hn')
      exact hk hk'
    rw [hnone, Node.bindAll_nil]
    exact .same

theorem Receptive.count (ht : t.Receptive) (roots : List Handle) :
    (t.correlate roots).tree.listedCount = t.listedCount + (t.correlate roots).added :=
  Correlated.count_run (c := ⟨t, 0, []⟩) ht (t.declaredUses roots)

theorem Receptive.correlate_again (ht : t.Receptive) (roots : List Handle) :
    ((t.correlate roots).tree.correlate roots).tree = (t.correlate roots).tree ∧
      ((t.correlate roots).tree.correlate roots).added = 0 := by
  have huses : ∀ b ∈ (t.correlate roots).tree.declaredUses roots, ∀ r n,
      (t.correlate roots).tree.receiver? b = some (r, n) → n.payload.uses b = true := by
    intro b hb r n hr
    rw [correlate_declaredUses] at hb
    obtain ⟨hlookup, hn, hk⟩ := receiver?_eq_some_iff.mp hr
    rw [correlate_node?] at hn
    obtain ⟨m, hm, rfl⟩ := Option.map_eq_some_iff.mp hn
    have htarget : t.target? b = some r := by
      rw [← correlate_target? t roots]
      exact congrArg (Option.map Prod.fst) hr
    exact Payload.uses_bindAll (List.mem_filter.mpr ⟨hb, by simp [htarget]⟩) (ht.suits hm hk)
  exact Correlated.run_of_uses (c := ⟨(t.correlate roots).tree, 0, []⟩) huses

theorem correlate_append (t : Tree) (roots more : List Handle) :
    t.correlate (roots ++ more) =
      (t.correlate roots).followedBy ((t.correlate roots).tree.correlate more) := by
  have hmore : (t.correlate roots).tree.bindings ((t.correlate roots).tree.walk more) =
      t.bindings (t.walk more) := correlate_declaredUses t roots more
  rw [correlate, bind, walk_append, bindings_append, List.foldl_append, Correlated.run_after]
  rw [correlate.eq_1 (t.correlate roots).tree, bind, hmore]
  rfl

theorem declaredUses_perm {roots roots' : List Handle} (h : roots.Perm roots') :
    (t.declaredUses roots).Perm (t.declaredUses roots') := by
  have hwalk : (t.walk roots).Perm (t.walk roots') := by
    rw [walk_eq_flatMap, walk_eq_flatMap roots']
    exact h.flatMap_right _
  exact ((hwalk.filterMap _).flatMap_right _).filter _

theorem listed_perm {roots roots' : List Handle} (hroots : roots.Perm roots') {h : Handle}
    {n n' : Node} (hn : (t.correlate roots).tree.node? h = some n)
    (hn' : (t.correlate roots').tree.node? h = some n') (role : Bool) :
    (n.payload.listed role).Perm (n'.payload.listed role) := by
  rw [correlate_node?] at hn hn'
  obtain ⟨m, hm, rfl⟩ := Option.map_eq_some_iff.mp hn
  obtain ⟨m', hm', rfl⟩ := Option.map_eq_some_iff.mp hn'
  obtain rfl := Option.some.inj (hm.symm.trans hm')
  exact Payload.listed_bindAll_perm ((declaredUses_perm hroots).filter _) role m.payload

theorem Receptive.added_perm (ht : t.Receptive) {roots roots' : List Handle}
    (hroots : roots.Perm roots') : (t.correlate roots').added = (t.correlate roots).added := by
  have hlists : (t.correlate roots).tree.list.map (fun n => n.payload.listedCount) =
      (t.correlate roots').tree.list.map fun n => n.payload.listedCount := by
    refine List.ext_getElem? fun h => ?_
    rw [List.getElem?_map, List.getElem?_map, ← node?_eq_getElem?, ← node?_eq_getElem?]
    cases hm : t.node? h with
    | none => simp [correlate_node?, hm]
    | some m =>
      have hn := correlate_node? t roots h
      have hn' := correlate_node? t roots' h
      rw [hm] at hn hn'
      have hlength := fun role => (listed_perm hroots hn hn' role).length_eq
      simp only [hn, hn', Option.map_some, Payload.listedCount, hlength]
  have hcount := ht.count roots
  have hcount' := ht.count roots'
  rw [listedCount, hlists] at hcount
  rw [listedCount] at hcount'
  omega

/-- Binding is a pass that accumulates, also when each set is bound while the walk is still under
way. It leaves a tree as it was, but for names that receives list in addition, and counts them; a
second pass over the same roots does nothing; one pass after another is a pass over the roots of
both; and from roots in another order every receive lists the same names. -/
theorem correlate_accumulates (ht : t.Receptive) (roots : List Handle) :
    Correlated.visitWithin (t.size + 1) ⟨t, 0, []⟩ roots = t.correlate roots ∧
      t.Extended (t.correlate roots).tree ∧
      (t.correlate roots).tree.listedCount = t.listedCount + (t.correlate roots).added ∧
      ((t.correlate roots).tree.correlate roots).tree = (t.correlate roots).tree ∧
      ((t.correlate roots).tree.correlate roots).added = 0 ∧
      (∀ more, t.correlate (roots ++ more) =
        (t.correlate roots).followedBy ((t.correlate roots).tree.correlate more)) ∧
      ∀ roots', roots.Perm roots' → (t.correlate roots').added = (t.correlate roots).added ∧
        ∀ h n n', (t.correlate roots).tree.node? h = some n →
          (t.correlate roots').tree.node? h = some n' →
          ∀ role, (n.payload.listed role).Perm (n'.payload.listed role) := by
  have hwithin : Correlated.visitWithin (t.size + 1) ⟨t, 0, []⟩ roots = t.correlate roots :=
    Correlated.visitWithin_eq _ _ _
  have hextended := ht.extended roots
  have hcount := ht.count roots
  obtain ⟨hagain, hnothing⟩ := ht.correlate_again roots
  have hboth := t.correlate_append roots
  refine ⟨hwithin, hextended, hcount, hagain, hnothing, hboth, fun roots' hroots => ?_⟩
  exact ⟨ht.added_perm hroots, fun h n n' hn hn' => listed_perm hroots hn hn'⟩

/-- A receive, a set that refers to it twice in one role and once in the other, and a second set. -/
def repeatedRefs : Tree :=
  ((empty.sprout ⟨.receive, "Receive", "r", "", .receive ⟨"", "", "", ""⟩ true [] []⟩ "body" 0
    none).sprout ⟨.correlationDeclaration, "CorrelationDeclaration", "", "Order",
      .correlation "" [⟨"r", true⟩, ⟨"r", true⟩, ⟨"r", false⟩]⟩ "body" 1 none).sprout
    ⟨.correlationDeclaration, "CorrelationDeclaration", "", "Stock",
      .correlation "" [⟨"r", true⟩, ⟨"", true⟩, ⟨"s", true⟩]⟩ "body" 2 none

/-- The first set is met twice and the names come in the order of the roots; three are entered. -/
theorem correlate_accumulates_repeated :
    repeatedRefs.Receptive ∧
      ((repeatedRefs.correlate [2, 1, 1]).tree.node? 0).map Node.payload =
        some (.receive ⟨"", "", "", ""⟩ true ["Stock", "Order"] ["Order"]) ∧
      (repeatedRefs.correlate [2, 1, 1]).tree.listedCount = 0 + 3 ∧
      (repeatedRefs.correlate [1, 2, 1]).added = 3 := by
  have ht : repeatedRefs.Receptive := by decide
  obtain ⟨-, -, hcount, -, -, -, horder⟩ := correlate_accumulates ht [2, 1, 1]
  obtain ⟨hadded, -⟩ := horder [1, 2, 1] (by decide)
  have hthree : (repeatedRefs.correlate [2, 1, 1]).added = 3 := by decide
  rw [hthree] at hcount hadded
  exact ⟨ht, by decide, hcount, hadded⟩

end Tree

end Orchestration.Shape
