/-
Purpose: Arrows on the canvas: `wouldCreateCycle` finds every loop along arrows that start at
  a node, and a canvas that only takes the arrows it lets through has no such loop.
-/
import WeaveCodex.ControlPlane.Proofs.CanvasOrder

namespace WeaveCodex.ControlPlane

open Library.TopologicalOrder Library.GraphSearch Canvas Relation List

/-- An arrow that would create no cycle is added, or nodes and arrows are removed. -/
inductive CanvasEdit : PhaseProgram → PhaseProgram → Prop
  | connect {program : PhaseProgram} {sourceId targetId : String}
      (accepted : wouldCreateCycle program sourceId targetId = false) :
      CanvasEdit program { program with edges := program.edges ++ [⟨sourceId, targetId⟩] }
  | remove {program : PhaseProgram} {phases : List Phase} {edges : List PhaseEdge}
      (fewerPhases : phases ⊆ program.phases) (fewerEdges : edges ⊆ program.edges) :
      CanvasEdit program { program with phases, edges }

variable {program : PhaseProgram} {sourceId targetId : String}

theorem wouldCreateCycle_iff : wouldCreateCycle program sourceId targetId = true ↔
    ReflTransGen (Arrow (keptArrows program)) targetId sourceId := by
  have explored : Explored (keptArrows program) sourceId [targetId] [] :=
    fun node mem => absurd mem not_mem_nil
  simp only [wouldCreateCycle, Bool.or_eq_true, decide_eq_true_eq, search_iff explored,
    mem_singleton, exists_eq_left]
  exact or_iff_right_of_imp fun same => same ▸ .refl

theorem CanvasEdit.acyclic {final : PhaseProgram} (edit : CanvasEdit program final)
    (acyclic : Acyclic (keptArrows program)) : Acyclic (keptArrows final) := by
  have fewer {more less : List (String × String)} (acyclic : Acyclic more) (subset : less ⊆ more) :
      Acyclic less :=
    fun node cycle => acyclic node (cycle.lift id fun _ _ mem => subset mem)
  cases edit with
  | connect accepted =>
    rw [← Bool.not_eq_true, wouldCreateCycle_iff] at accepted
    refine fewer (acyclic_concat acyclic accepted) fun arrow mem => ?_
    simp only [keptArrows, arrows, map_append, filter_append, mem_append] at mem ⊢
    exact mem.imp_right mem_of_mem_filter
  | remove fewerPhases fewerEdges =>
    refine fewer acyclic fun arrow mem => ?_
    obtain ⟨listed, starts⟩ := mem_filter.mp mem
    exact mem_filter.mpr ⟨map_subset _ fewerEdges listed,
      decide_eq_true (map_subset _ fewerPhases (of_decide_eq_true starts))⟩

/-- The browser finds every loop along arrows that start at a node, and no such loop can be
drawn. -/
theorem wouldCreateCycle_exact (program : PhaseProgram) :
    (∀ sourceId targetId, wouldCreateCycle program sourceId targetId = true ↔
      ReflTransGen (Arrow (keptArrows program)) targetId sourceId) ∧
    (Acyclic (keptArrows program) → ∀ final, ReflTransGen CanvasEdit program final →
      Acyclic (keptArrows final)) := by
  refine ⟨fun sourceId targetId => wouldCreateCycle_iff, fun acyclic final edits => ?_⟩
  induction edits with
  | refl => exact acyclic
  | tail _ edit ih => exact edit.acyclic ih

/-- Two arrows are drawn on a canvas of three nodes, and a third one back is refused. -/
theorem drawnArrows_acyclic : Acyclic (keptArrows reorderedProgram) ∧
    wouldCreateCycle reorderedProgram "review" "inspect" = true := by
  have exact := wouldCreateCycle_exact { reorderedProgram with edges := [] }
  have first : wouldCreateCycle { reorderedProgram with edges := [] } "inspect" "implement" = false := by
    simp [wouldCreateCycle, search, targets, keptArrows, arrows]
  have second : wouldCreateCycle { reorderedProgram with edges := [⟨"inspect", "implement"⟩] }
      "implement" "review" = false := by
    decide +kernel
  refine ⟨exact.2 ?_ _ (.tail (.single (.connect first)) (.connect second)), ?_⟩
  · intro node cycle
    obtain ⟨_, step, _⟩ := TransGen.head'_iff.mp cycle
    cases step
  · decide +kernel

/-- Two nodes, one of which leads to the other by a missing one. -/
def detouredProgram : PhaseProgram :=
  { phases := [.work { id := "aa", name := "", goal := "" },
      .work { id := "bb", name := "", goal := "" }]
    edges := [⟨"bb", "gone"⟩, ⟨"gone", "aa"⟩] }

/-- The browser does not see that an arrow from the first node to the second one closes a loop. -/
theorem detouredProgram_unnoticed :
    wouldCreateCycle detouredProgram "aa" "bb" = false ∧
      ReflTransGen (Arrow (arrows detouredProgram)) "bb" "aa" := by
  constructor
  · simp [wouldCreateCycle, search, targets, keptArrows, arrows, detouredProgram, Phase.id]
  · have toGone : Arrow (arrows detouredProgram) "bb" "gone" := mem_cons_self
    have back : Arrow (arrows detouredProgram) "gone" "aa" :=
      mem_cons_of_mem _ mem_cons_self
    exact .tail (.single toGone) back

end WeaveCodex.ControlPlane
