import Orchestration.Analysis.Basic
import Orchestration.Proofs.Model.Tag

/-!
# Orchestration.Proofs.Analysis.Trait

Traits and patterns are found by comparing tags; here they are told by the kinds of the shapes.

* `Trait.kinds`, `Trait.foreignTags`, `Measure.kinds` — the kinds behind the tags, and the tags of
  shapes that no form knows.
* `Analysis.counts_ofModel` — the counts of an analysis are those of the tags in the walk.
* `Analysis.has_iff_kinds`  — what an analysis finds in the model of a text.
-/

namespace Orchestration

open Shape (Kind Node)

/-- The kinds of shapes that tell a trait. -/
def Trait.kinds : Trait → List Kind
  | .correlationSets => [.correlationDeclaration]
  | .transactions => [.atomicTransaction, .longRunningTransaction]
  | .exceptionHandling => [.catch]
  | .businessRules => [.callRules]
  | .compensation => [.compensation, .compensate]
  | .loops => [.loop, .while, .until]
  | .parallel => [.parallel]
  | .listen => [.listen]
  | .delay => [.delay]
  | .callOrchestration => [.call, .start]
  | .transform => [.transform]
  | _ => []

/-- The lower-cased tags of fallbacks that tell a trait. -/
def Trait.foreignTags : Trait → List String
  | .correlationSets => ["initializecorrelation", "followscorrelation"]
  | .dynamicPorts => ["dynamicport"]
  | _ => []

def Measure.kinds : Measure → List Kind
  | .receives => [.receive]
  | .sends => [.send]
  | .decides => [.decide]
  | .parallels => [.parallel]
  | .constructsOrTransforms => [.construct, .transform]

theorem Trait.told : ∀ t ∈ tagged, Kind.Told t.tags t.kinds t.foreignTags := by
  decide +kernel

theorem Measure.told (x : Measure) : Kind.Told x.tags x.kinds [] := by
  cases x <;> decide +kernel

namespace Analysis

variable {text source : String} {m : Model}

theorem counts_ofModel (h : Model.ofText text source = .ok m) (s : Settings) (fileName : String)
    (size : Nat) : (ofModel s m fileName size).counts = m.tagTally := by
  -- no shape is without a tag
  have hcounted : m.allShapes.map countedTag = m.allShapes.map Node.tag := by
    refine List.map_congr_left fun n hn => ?_
    rw [countedTag, if_neg (Model.tagged h hn).given]
  rw [Model.tagTally, ← hcounted]
  rfl

theorem tells_iff (h : Model.ofText text source = .ok m) {t : Trait} (ht : t ∈ Trait.tagged) :
    tells m.tagTally.names t = true ↔
      ∃ n ∈ m.tree.list, n.kind ∈ t.kinds ∨
        n.kind = .fallback ∧ Text.lower n.tag ∈ t.foreignTags := by
  rw [tells, Model.names_tagTally, List.any_eq_true]
  constructor
  · rintro ⟨tag, hm, htells⟩
    obtain ⟨n, hn, rfl⟩ := List.mem_map.mp (List.mem_eraseDups.mp hm)
    refine ⟨n, (Model.mem_allShapes h).mp hn, ?_⟩
    exact ((Trait.told t ht).mem_iff (Model.tagged h hn)).mp (List.contains_iff_mem.mp htells)
  · rintro ⟨n, hn, htells⟩
    have hshape : n ∈ m.allShapes := (Model.mem_allShapes h).mpr hn
    refine ⟨n.tag, List.mem_eraseDups.mpr (List.mem_map_of_mem hshape), ?_⟩
    exact List.contains_iff_mem.mpr
      (((Trait.told t ht).mem_iff (Model.tagged h hshape)).mpr htells)

/-- A measure counts shapes of its kinds, wherever they are in the tree. -/
theorem measure_eq_countP (h : Model.ofText text source = .ok m) (x : Measure) :
    measure m.tagTally x = m.tree.list.countP fun n => decide (n.kind ∈ x.kinds) := by
  have htotal := Tally.total_ofNames (fun tag => x.tags.contains (Text.lower tag))
    (m.allShapes.map Node.tag)
  rw [List.countP_map] at htotal
  rw [← (Model.allShapes_perm_list h).countP_eq]
  refine htotal.trans (List.countP_congr fun n hn => ?_)
  have htold := x.told.mem_iff (Model.tagged h hn)
  simpa using htold

/-- A declared correlation set is a shape that tells the trait. -/
theorem usesCorrelation_eq (h : Model.ofText text source = .ok m) :
    usesCorrelation m m.tagTally.names = tells m.tagTally.names .correlationSets := by
  rw [usesCorrelation, Bool.or_eq_left_iff_imp, decide_eq_true_eq, tells_iff h (by decide)]
  intro hsome
  obtain ⟨n, hn⟩ := List.exists_mem_of_length_pos hsome
  obtain ⟨hshape, hkind⟩ := List.mem_filter.mp hn
  refine ⟨n, (Model.mem_allShapes h).mp hshape, .inl ?_⟩
  rw [beq_iff_eq.mp hkind]
  exact List.mem_singleton.mpr rfl

theorem traits_of_tagged (h : Model.ofText text source = .ok m) (s : Settings) {t : Trait}
    (ht : t ∈ Trait.tagged) : traits s m m.tagTally t = tells m.tagTally.names t := by
  cases t with
  | correlationSets => exact usesCorrelation_eq h
  | solicitResponse | convoy | aggregator | contentBasedRouting | scatterGather | messageBroker =>
    exact absurd ht (by decide)
  | _ => rfl

theorem reaches_iff (h : Model.ofText text source = .ok m) (thresholds : Thresholds) (p : Pattern) :
    reaches thresholds m.tagTally p = true ↔
      ∀ x ∈ p.measures, thresholds p x ≤ m.tree.list.countP fun n => decide (n.kind ∈ x.kinds) := by
  simp only [reaches, List.all_eq_true, decide_eq_true_eq, measure_eq_countP h]

/-- The traits that some tag tells are those that the kinds of the shapes tell, whatever the letter
case of their types, and the patterns are decided by the numbers of shapes of certain kinds. -/
theorem has_iff_kinds (h : Model.ofText text source = .ok m) (s : Settings) (fileName : String)
    (size : Nat) :
    let a := ofModel s m fileName size
    (∀ t ∈ Trait.tagged, a.has t = true ↔ ∃ n ∈ m.tree.list, n.kind ∈ t.kinds ∨
        n.kind = .fallback ∧ Text.lower n.tag ∈ t.foreignTags) ∧
      ∀ p : Pattern, a.has p.trait = true ↔
        (∀ x ∈ p.measures,
          s.thresholds p x ≤ m.tree.list.countP fun n => decide (n.kind ∈ x.kinds)) ∧
        (p = .aggregator → a.has .correlationSets = true) := by
  intro a
  have hhas : ∀ t, a.has t = traits s m m.tagTally t := by
    intro t
    rw [← counts_ofModel h s fileName size]
    rfl
  refine ⟨fun t ht => ?_, fun p => ?_⟩
  · rw [hhas, traits_of_tagged h s ht]
    exact tells_iff h ht
  · rw [hhas, hhas, ← reaches_iff h]
    cases p with
    | aggregator => simp [Pattern.trait, traits, and_comm]
    | contentBasedRouting | scatterGather | messageBroker => simp [Pattern.trait, traits]

/-- A loop and two sends in letter cases of their own, a decision, and a dynamic port. -/
theorem has_oddTypes : ∃ m, Model.ofText Model.oddTypes "odd.odx" = .ok m ∧
    let a := ofModel .usual m "odd.odx" 0
    a.has .loops = true ∧ a.has .dynamicPorts = true ∧ a.has .contentBasedRouting = true := by
  obtain ⟨m, hm, hv⟩ := Model.oddTypes_parsed
  have hheadings := congrArg Prod.fst hv
  dsimp only at hheadings
  obtain ⟨htraits, hpatterns⟩ := has_iff_kinds hm .usual "odd.odx" 0
  refine ⟨m, hm, (htraits .loops (by decide)).mpr ?_, (htraits .dynamicPorts (by decide)).mpr ?_,
    (hpatterns .contentBasedRouting).mpr ⟨fun x hx => ?_, fun hp => absurd hp (by decide)⟩⟩
  · have hloop : (Kind.loop, "FOREACH") ∈ m.tree.list.map Node.heading := by simp [hheadings]
    obtain ⟨n, hn, he⟩ := List.mem_map.mp hloop
    obtain ⟨hkind, -⟩ := Prod.mk.inj he
    exact ⟨n, hn, .inl (by rw [hkind]; decide)⟩
  · have hport : (Kind.fallback, "DynamicPort") ∈ m.tree.list.map Node.heading := by
      simp [hheadings]
    obtain ⟨n, hn, he⟩ := List.mem_map.mp hport
    obtain ⟨hkind, htag⟩ := Prod.mk.inj he
    exact ⟨n, hn, .inr ⟨hkind, by rw [htag]; decide⟩⟩
  · have hcount : m.tree.list.countP (fun n => decide (n.kind ∈ x.kinds)) =
        (m.tree.list.map Node.heading).countP fun x' => decide (x'.1 ∈ x.kinds) := by
      rw [List.countP_map]
      rfl
    rw [hcount, hheadings]
    simp only [Pattern.measures, List.mem_cons, List.not_mem_nil, or_false] at hx
    rcases hx with rfl | rfl
    · decide
    · decide

end Analysis

end Orchestration
