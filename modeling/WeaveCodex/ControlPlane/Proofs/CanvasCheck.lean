/-
Purpose: What the canvas check promises about the server: a graph without a problem on
  the canvas has an execution order that starts with a work phase, and the server
  accepts it exactly if that order has no two checkpoints next to each other.
-/
import WeaveCodex.ControlPlane.Proofs.CanvasOrder

namespace WeaveCodex.ControlPlane

open Library Bool
open Library.TopologicalOrder
open Canvas List

/-- Some checkpoint of the order is followed at once by another one. -/
def AdjacentCheckpoints (order : List Phase) : Prop :=
  ∃ before first second after, order = before ++ first :: second :: after ∧
    first.kind = .checkpoint ∧ second.kind = .checkpoint

/-- The scan finds two checkpoints in a row exactly if there are two. -/
theorem hasAdjacentCheckpoints_iff {order : List Phase} :
    hasAdjacentCheckpoints order = true ↔ AdjacentCheckpoints order := by
  constructor
  · intro found
    induction order with
    | nil => cases found
    | cons left rest ih =>
      cases rest with
      | nil => cases found
      | cons right rest =>
        rw [hasAdjacentCheckpoints, or_eq_true, and_eq_true, beq_iff_eq, beq_iff_eq] at found
        rcases found with here | later
        · exact ⟨[], left, right, rest, rfl, here⟩
        · obtain ⟨before, first, second, after, split, kinds⟩ := ih later
          exact ⟨left :: before, first, second, after, by rw [split, cons_append], kinds⟩
  · rintro ⟨before, _, _, _, rfl, firstKind, secondKind⟩
    induction before with
    | nil => simp [hasAdjacentCheckpoints, firstKind, secondKind]
    | cons _ before ih =>
      cases before with
      | nil => simp [hasAdjacentCheckpoints, firstKind, secondKind]
      | cons =>
        simp only [cons_append, hasAdjacentCheckpoints, or_eq_true]
        exact .inr ih

section

variable {program : PhaseProgram}

/-! ### What the canvas has checked -/

/-- A graph that the canvas lets run. -/
structure RunnableGraph (program : PhaseProgram) (root : Phase) : Prop where
  known : ∀ edge ∈ program.identities, edge.1 ∈ program.phaseIds ∧ edge.2 ∈ program.phaseIds
  noSelfLoop : ∀ edge ∈ program.identities, edge.1 ≠ edge.2
  distinct : program.identities.Nodup
  connected : program.edges = [] → program.phases.length ≤ 1
  onlyRoot : (program.phases.filter fun phase => decide (incoming program phase.id = 0)) = [root]
  complete : (clientTopologicalOrder program).length = program.phases.length
  work : root.kind = .work

/-- Arrows with different keys are different arrows. -/
theorem Canvas.identities_nodup_of_arrowKey (apart : (program.edges.map arrowKey).Nodup) :
    program.identities.Nodup := by
  have keys : program.edges.map arrowKey =
      program.identities.map fun pair => pair.1 ++ "\x00" ++ pair.2 := by
    rw [PhaseProgram.identities, map_map]
    rfl
  rw [keys] at apart
  exact List.Nodup.of_map _ apart

/-- A canvas without a problem is a graph that can be run. -/
theorem runnable_of_graphProblem (clean : graphProblem program = "") :
    ∃ root, RunnableGraph program root := by
  unfold graphProblem at clean
  extract_lets ids identities at clean
  split at clean
  · simp at clean
  rename_i allKnown
  split at clean
  · simp at clean
  rename_i noLoop
  split at clean
  · simp at clean
  rename_i noRepeat
  split at clean
  · simp at clean
  rename_i hasArrows
  generalize rootsEq : (program.phases.filter fun phase =>
    decide (incoming program phase.id = 0)) = roots at clean
  rcases roots with - | ⟨root, - | ⟨_, _⟩⟩
  · simp at clean
  · dsimp only at clean
    split at clean
    · simp at clean
    rename_i complete
    split at clean
    · simp at clean
    rename_i work
    refine ⟨root, ?_, ?_, ?_, ?_, rootsEq, not_not.mp complete, not_not.mp work⟩
    · intro edge mem
      obtain ⟨arrow, listed, rfl⟩ := mem_map.mp mem
      have known : ¬ (!ids.contains arrow.fromId || !ids.contains arrow.toId) = true := by
        intro missing
        exact allKnown (any_eq_true.mpr ⟨arrow, listed, missing⟩)
      simpa [ids, PhaseProgram.phaseIds] using known
    · intro edge mem same
      obtain ⟨arrow, listed, rfl⟩ := mem_map.mp mem
      exact noLoop (any_eq_true.mpr ⟨arrow, listed, by simpa using same⟩)
    · apply identities_nodup_of_arrowKey
      by_contra repeated
      exact PhaseProgram.length_ne_dedup_length_iff.mpr repeated (not_not.mp noRepeat).symm
    · intro noEdges
      by_contra several
      exact hasArrows ⟨by omega, noEdges⟩
  · simp at clean

/-! ### The server's order of such a graph -/

namespace RunnableGraph

variable {root : Phase} (runnable : RunnableGraph program root)

include runnable

theorem isRoot_iff {phase : Phase} :
    (phase ∈ program.phases ∧ ∀ edge ∈ program.identities, edge.2 ≠ phase.id) ↔ phase = root := by
  have noIncoming : incoming program phase.id = 0 ↔ ∀ edge ∈ program.identities, edge.2 ≠ phase.id := by
    rw [incoming, ReadyQueue.incomingCounts_eq]
    norm_cast
    rw [ReadyQueue.openArrows_eq_zero_iff]
    simp [arrows, PhaseProgram.identities]
  have listed : phase ∈ [root] ↔ phase ∈ program.phases ∧ incoming program phase.id = 0 := by
    rw [← runnable.onlyRoot, mem_filter, decide_eq_true_eq]
  rw [← noIncoming, ← listed, mem_singleton]

variable (distinct : program.phaseIds.Nodup)

include distinct

/-- With arrows, the graph is executable. -/
theorem executable (hasEdges : program.edges ≠ []) : ExecutableGraph program where
  distinct := runnable.distinct
  known := runnable.known
  noSelfLoop := runnable.noSelfLoop
  oneRoot := by
    refine ⟨root, runnable.isRoot_iff.mpr rfl, ?_⟩
    intro phase rooted
    exact runnable.isRoot_iff.mp rooted
  acyclic := by
    apply (PhaseProgram.readyLoop_length_iff distinct runnable.known).mp
    have noneMissing : ¬ ((arrows program).any fun edge =>
        (byId program edge.1).isNone || (byId program edge.2).isNone) = true :=
      noneMissing_of_known runnable.known
    have emitted := runnable.complete
    rw [clientTopologicalOrder, if_neg hasEdges, if_neg noneMissing, clientLoop_eq_readyLoop] at emitted
    have onlyKnown : program.readyLoop.ordered ⊆ program.phaseIds := by
      rw [PhaseProgram.readyLoop_ordered distinct runnable.known]
      exact greedy_subset
    have ids := PhaseProgram.map_id_filterMap_byId distinct onlyKnown
    rw [← ids, length_map]
    exact emitted

/-- The server orders the graph, as the canvas shows it. -/
theorem orderedPhases_eq : orderedPhases program = .ok (orderedClientPhases program) := by
  by_cases hasEdges : program.edges = []
  · simp [orderedPhases, orderedClientPhases, clientTopologicalOrder, hasEdges]
  · have graph := runnable.executable distinct hasEdges
    rw [orderedClientPhases]
    simp only [runnable.complete, if_true]
    rw [clientTopologicalOrder_of_executable distinct hasEdges graph]
    exact (orderedPhases_eq_ok_iff distinct hasEdges).mpr ⟨graph, rfl⟩

/-- The order starts with the only node that no arrow points to. -/
theorem head_order {order : List Phase} (accepted : orderedPhases program = .ok order) :
    order.head? = some root := by
  have perm := orderedPhases_perm distinct accepted
  have rooted := runnable.isRoot_iff.mpr rfl
  cases order with
  | nil => cases perm.mem_iff.mpr rooted.1
  | cons first =>
    have listed : first ∈ program.phases := perm.mem_iff.mp mem_cons_self
    have isRoot : first = root := by
      apply runnable.isRoot_iff.mp
      refine ⟨listed, ?_⟩
      intro edge mem pointed
      have hasEdges : program.edges ≠ [] := by
        intro noEdges
        rw [PhaseProgram.identities, noEdges] at mem
        cases mem
      have respects := orderedPhases_respects distinct hasEdges accepted edge mem
      rw [pointed, map_cons, idxOf_cons_self] at respects
      exact Nat.not_lt_zero _ respects
    rw [isRoot, head?_cons]

end RunnableGraph

/-- What is left of the server's validation once its first checks have passed. -/
theorem validateProgram_eq_ok_iff {order : List Phase} {root : Phase}
    (distinct : program.phaseIds.Nodup) (accepted : orderedPhases program = .ok order)
    (first : order.head? = some root) (work : root.kind = .work) :
    validateProgram program = .ok program ↔ ¬ AdjacentCheckpoints order := by
  have listed : root ∈ program.phases :=
    (orderedPhases_perm distinct accepted).mem_iff.mp (mem_of_head? first)
  have someWork : (program.phases.any fun phase => phase.kind == .work) = true :=
    any_eq_true.mpr ⟨root, listed, by rw [work]; rfl⟩
  have firstWork : ((order.map Phase.kind).head? == some .work) = true := by
    rw [head?_map, first, Option.map_some, work]
    rfl
  have unique : ¬ program.phaseIds.length ≠ program.phaseIds.dedup.length := by
    rw [PhaseProgram.length_ne_dedup_length_iff]
    exact not_not.mpr distinct
  rw [← hasAdjacentCheckpoints_iff, validateProgram, if_neg unique, someWork, accepted]
  simp only [bind, Except.bind, pure, Except.pure, firstWork, throw, throwThe, MonadExceptOf.throw]
  cases hasAdjacentCheckpoints order <;> simp

/-- A graph that the canvas lets run is accepted by the server if and only if the order
shown on the canvas has no two checkpoints next to each other. -/
theorem graphProblem_validates_iff (program : PhaseProgram)
    (distinct : program.phaseIds.Nodup) (clean : graphProblem program = "") :
    validateProgram program = .ok program ↔ ¬ AdjacentCheckpoints (orderedClientPhases program) := by
  obtain ⟨_, runnable⟩ := runnable_of_graphProblem clean
  have accepted := runnable.orderedPhases_eq distinct
  exact validateProgram_eq_ok_iff distinct accepted (runnable.head_order distinct accepted)
    runnable.work

/-- Two checkpoints with a work phase between them. -/
def spacedCheckpoints : PhaseProgram :=
  { phases :=
      [ .work { id := "inspect", name := "Inspect", goal := "Read the files." },
        .checkpoint { id := "approve", name := "Approve", question := "Go on?" },
        .work { id := "implement", name := "Implement", goal := "Make the change." },
        .checkpoint { id := "release", name := "Release", question := "Ship it?" } ]
    edges := [⟨"inspect", "approve"⟩, ⟨"approve", "implement"⟩, ⟨"implement", "release"⟩] }

/-- The canvas and the server both let the program run. -/
theorem spacedCheckpoints_validated : graphProblem spacedCheckpoints = "" ∧
    validateProgram spacedCheckpoints = .ok spacedCheckpoints := by
  have clean : graphProblem spacedCheckpoints = "" := by decide
  refine ⟨clean, (graphProblem_validates_iff spacedCheckpoints (by decide) clean).mpr ?_⟩
  rw [← hasAdjacentCheckpoints_iff]
  decide

/-- Two checkpoints that a fork puts next to each other in the execution order, although
no arrow leads from one to the other. -/
def forkedCheckpoints : PhaseProgram :=
  { phases :=
      [ .work { id := "inspect", name := "Inspect", goal := "Read the files." },
        .checkpoint { id := "approve", name := "Approve", question := "Go on?" },
        .checkpoint { id := "budget", name := "Budget", question := "Spend it?" },
        .work { id := "implement", name := "Implement", goal := "Make the change." } ]
    edges :=
      [⟨"inspect", "approve"⟩, ⟨"inspect", "budget"⟩, ⟨"approve", "implement"⟩,
        ⟨"budget", "implement"⟩] }

/-- The canvas has nothing to say about the program, and the server refuses it. -/
theorem forkedCheckpoints_refused : forkedCheckpoints.WellFormed ∧ forkedCheckpoints.phaseIds.Nodup ∧
    graphProblem forkedCheckpoints = "" ∧
    validateProgram forkedCheckpoints = .error "adjacent checkpoints are not executable" := by
  decide

end

end WeaveCodex.ControlPlane
