/-
Purpose: An adaptation that the guard lets through changes wording only.  A phase without
  its wording is what every later step of the control plane reads: the execution order,
  the turn bound and the compiled graph of a program are those of the program without
  wording, and the guard compares exactly that.
-/
import WeaveCodex.ControlPlane.Proofs.OrderedPhases
import WeaveCodex.ControlPlane.WorkflowAdaptation

namespace WeaveCodex.ControlPlane

open Library Function
open List PhaseGraph

/-! ### Wording -/

/-- The texts of a phase that a human reads. -/
structure Wording where
  name : String
  goal : Option String := none
  question : Option String := none
  criteria : Option String := none
deriving DecidableEq, Repr

namespace Phase

def wording : Phase → Wording
  | .work phase => { name := phase.name, goal := some phase.goal }
  | .checkpoint phase => { name := phase.name, question := some phase.question }
  | .verify phase => { name := phase.name, criteria := some phase.criteria }
  | .command phase => { name := phase.name }

/-- A phase with its wording blanked out. -/
def unworded : Phase → Phase
  | .work phase => .work { phase with name := "", goal := "" }
  | .checkpoint phase => .checkpoint { phase with name := "", question := "" }
  | .verify phase => .verify { phase with name := "", criteria := "" }
  | .command phase => .command { phase with name := "" }

variable (phase : Phase)

@[simp] theorem unworded_id : phase.unworded.id = phase.id := by
  cases phase <;> rfl

@[simp] theorem unworded_kind : phase.unworded.kind = phase.kind := by
  cases phase <;> rfl

@[simp] theorem unworded_position :
    phase.unworded.position = phase.position := by
  cases phase <;> rfl

@[simp] theorem unworded_turnCost :
    phase.unworded.turnCost = phase.turnCost := by
  cases phase <;> rfl

end Phase

/-! ### Dumps -/

theorem WorkScope.text_injective : Function.Injective WorkScope.text := by
  intro first second same
  cases first <;> cases second <;> first | rfl | exact absurd same (by decide)

theorem StepType.text_injective : Function.Injective StepType.text := by
  intro first second same
  cases first <;> cases second <;> first | rfl | exact absurd same (by decide)

theorem dumpEffort_injective : Function.Injective dumpEffort := by
  intro first second same
  rcases first with - | first <;> rcases second with - | second
  · rfl
  · cases second <;> exact absurd same (by decide)
  · cases first <;> exact absurd same (by decide)
  · cases first <;> cases second <;> first | rfl | exact absurd same (by decide)

theorem dumpPosition_injective : Function.Injective dumpPosition := by
  intro first second same
  rcases first with - | ⟨x, y⟩ <;> rcases second with - | ⟨_, _⟩
  · rfl
  · cases same
  · cases same
  · cases same
    rfl

/-- Two phases with the same structural fields differ in wording only, and the whole dumps
tell whether they do. -/
structure SameButWording (before after : Phase) : Prop where
  rest : before.unworded = after.unworded
  changed_iff : before.modelDump ≠ after.modelDump ↔ before.wording ≠ after.wording

/-- The guard's field set is complete: the other fields of a dump are its wording. -/
theorem sameButWording_of_keys {before after : Phase} (kind : before.kind = after.kind)
    (same : ∀ key ∈ structuralKeys, before.modelDump.get key = after.modelDump.get key) :
    SameButWording before after := by
  simp only [structuralKeys, forall_mem_cons, not_mem_nil, IsEmpty.forall_iff,
    implies_true, and_true] at same
  obtain ⟨id, -, scope, effort, repairs, step, command, exitCode, stop, position⟩ := same
  cases before with
  | work =>
    cases after with
    | work =>
      simp [Phase.modelDump, Dump.get, Dict.ofEntries, WorkScope.text_injective.eq_iff,
        dumpEffort_injective.eq_iff, dumpPosition_injective.eq_iff]
        at id scope effort position
      constructor
      · simp [Phase.unworded, id, scope, effort, position]
      · simp [Phase.modelDump, Phase.wording, id, scope, effort, position]
    | _ => cases kind
  | checkpoint =>
    cases after with
    | checkpoint =>
      simp [Phase.modelDump, Dump.get, Dict.ofEntries, dumpPosition_injective.eq_iff] at id position
      constructor
      · simp [Phase.unworded, id, position]
      · simp [Phase.modelDump, Phase.wording, id, position]
    | _ => cases kind
  | verify before =>
    cases after with
    | verify after =>
      simp [Phase.modelDump, Dump.get, Dict.ofEntries, dumpPosition_injective.eq_iff]
        at id repairs position
      have repairs : before.maxRepairs = after.maxRepairs := by omega
      constructor
      · simp [Phase.unworded, id, repairs, position]
      · simp [Phase.modelDump, Phase.wording, id, repairs, position]
    | _ => cases kind
  | command =>
    cases after with
    | command =>
      simp [Phase.modelDump, Dump.get, Dict.ofEntries, StepType.text_injective.eq_iff,
        dumpPosition_injective.eq_iff] at id step command exitCode stop position
      constructor
      · simp [Phase.unworded, id, step, command, exitCode, stop, position]
      · simp [Phase.modelDump, Phase.wording, id, step, command, exitCode, stop, position]
    | _ => cases kind

/-! ### The guard -/

theorem compareKeys_eq_ok {before after : Dump} {keys : List String}
    (passed : compareKeys before after keys = .ok ()) :
    ∀ key ∈ keys, before.get key = after.get key := by
  induction keys with
  | nil => simp
  | cons _ _ ih =>
    rw [compareKeys] at passed
    split at passed
    · cases passed
    · rename_i same
      rw [forall_mem_cons]
      exact ⟨not_not.mp same, ih passed⟩

/-- The pairs whose wording differs. -/
def reworded (pairs : List (Phase × Phase)) : List (Phase × Phase) :=
  pairs.filter fun pair => decide (pair.1.wording ≠ pair.2.wording)

/-- Pairs that pass differ in wording only, and the result names those that do. -/
theorem comparePhases_eq_ok {order : KeyOrder} {pairs : List (Phase × Phase)}
    {changed result : List String} (passed : comparePhases order changed pairs = .ok result) :
    (∀ pair ∈ pairs, pair.1.unworded = pair.2.unworded) ∧
      result = changed ++ (reworded pairs).map fun pair => pair.1.id := by
  induction pairs generalizing changed with
  | nil =>
    cases passed
    simp [reworded]
  | cons pair _ ih =>
    obtain ⟨before, after⟩ := pair
    rw [comparePhases] at passed
    split at passed
    · cases passed
    rename_i same
    obtain ⟨-, sameKind⟩ := not_or.mp same
    split at passed
    · cases passed
    rename_i compared
    have keys : ∀ key ∈ structuralKeys, before.modelDump.get key = after.modelDump.get key := by
      intro key mem
      exact compareKeys_eq_ok compared key (order.enumerates.mem_iff.mpr mem)
    have alike := sameButWording_of_keys (not_not.mp sameKind) keys
    obtain ⟨rest, resultEq⟩ := ih passed
    refine ⟨forall_mem_cons.mpr ⟨alike.rest, rest⟩, ?_⟩
    simp only [resultEq, reworded, filter_cons, decide_eq_true_eq, alike.changed_iff]
    split
    · simp
    · rfl

/-! ### Programs without wording -/

namespace PhaseProgram

def unworded (program : PhaseProgram) : PhaseProgram :=
  { program with phases := program.phases.map Phase.unworded }

variable (program : PhaseProgram)

@[simp] theorem unworded_phaseIds : program.unworded.phaseIds = program.phaseIds := by
  simp [unworded, phaseIds, comp_def]

@[simp] theorem unworded_identities : program.unworded.identities = program.identities :=
  rfl

theorem unworded_byId (id : String) :
    program.unworded.byId id = (program.byId id).map Phase.unworded := by
  simp only [byId, unworded, map_map]
  induction program.phases with
  | nil => rfl
  | cons phase phases ih =>
    simp only [map_cons, Dict.ofEntries, ih]
    cases Dict.ofEntries (phases.map fun phase => (phase.id, phase)) id with
    | some => rfl
    | none =>
      simp only [Option.map_none, comp_apply, Phase.unworded_id]
      split <;> rfl

@[simp] theorem unworded_unknownNodes : program.unworded.unknownNodes = program.unknownNodes := by
  simp only [unknownNodes, unworded_identities, unworded_byId, Option.isNone_map]

@[simp] theorem unworded_readyLoop : program.unworded.readyLoop = program.readyLoop := by
  simp only [readyLoop, roots, unworded_phaseIds, unworded_identities]
  have samePosition : program.unworded.position = program.position := by
    funext id
    simp only [position, unworded_phaseIds]
  have sameLength : program.unworded.phases.length = program.phases.length := by
    simp [unworded]
  rw [samePosition, sameLength]
  rfl

end PhaseProgram

open PhaseProgram

variable (program : PhaseProgram)

/-- The execution order does not read the wording. -/
theorem orderedPhases_unworded : orderedPhases program.unworded =
    (orderedPhases program).map (map Phase.unworded) := by
  have sameRoots : program.unworded.roots = program.roots := by
    simp only [roots, unworded_phaseIds]
    rfl
  have sameLength : program.unworded.phases.length = program.phases.length := by
    simp [unworded]
  have lookup : program.unworded.byId = fun id => (program.byId id).map Phase.unworded := by
    funext id
    exact unworded_byId program id
  have sameEdges : program.unworded.edges = program.edges := rfl
  simp only [orderedPhases, sameEdges, unworded_identities, unworded_unknownNodes,
    unworded_readyLoop, sameRoots, sameLength, lookup]
  split_ifs
  · rfl
  · rfl
  · rfl
  · rfl
  · rfl
  · rfl
  · rw [Except.map, map_filterMap]

theorem phaseTurnBound_unworded : phaseTurnBound program.unworded = phaseTurnBound program := by
  rw [phaseTurnBound, phaseTurnBound, orderedPhases_unworded]
  cases orderedPhases program with
  | error => rfl
  | ok =>
    simp only [Except.map, bind, Except.bind, foldl_map, Phase.unworded_turnCost]

/-- What a node of the compiled graph says about the execution. -/
structure NodeShape where
  id : String
  kind : NodeKind
  order : Option Nat
  position : Option CanvasPosition
  maximumControllerTurns : Option Nat
deriving DecidableEq, Repr

def GraphNode.shape (node : GraphNode) : NodeShape :=
  { id := node.id
    kind := node.kind
    order := node.order
    position := node.position
    maximumControllerTurns := node.maximumControllerTurns }

/-- The nodes and edges of a compiled graph, without its texts. -/
def PhaseGraph.shape (graph : PhaseGraph) : List NodeShape × List GraphEdge :=
  (graph.nodes.map GraphNode.shape, graph.edges)

theorem shape_phaseNode_unworded (position : Nat) (phase : Phase) :
    (phaseNode position phase.unworded).shape = (phaseNode position phase).shape := by
  simp [phaseNode, GraphNode.shape]

theorem chainEdges_unworded (previous : String) (phases : List Phase) :
    chainEdges previous (phases.map Phase.unworded) = chainEdges previous phases := by
  induction phases generalizing previous with
  | nil => rfl
  | cons _ _ ih =>
    simp only [map_cons, chainEdges, Phase.unworded_id, ih]

theorem compiledEdges_unworded (ordered : List Phase) :
    compiledEdges program.unworded (ordered.map Phase.unworded) = compiledEdges program ordered := by
  have sameEdges : program.unworded.edges = program.edges := rfl
  have boundaries : program.unworded.phases.flatMap (boundaryEdges program.unworded) =
      program.phases.flatMap (boundaryEdges program) := by
    simp only [unworded, flatMap_map]
    apply flatMap_congr
    intro phase mem
    simp only [boundaryEdges, Phase.unworded_id]
    rfl
  rw [compiledEdges, compiledEdges, sameEdges, chainEdges_unworded, boundaries]

/-- The compiled graph does not read the wording, its labels apart. -/
theorem compilePhaseProgram_unworded :
    (compilePhaseProgram program.unworded).map shape = (compilePhaseProgram program).map shape := by
  rw [compilePhaseProgram, compilePhaseProgram, orderedPhases_unworded, phaseTurnBound_unworded]
  cases orderedPhases program with
  | error => rfl
  | ok =>
    cases phaseTurnBound program with
    | error => rfl
    | ok =>
      simp only [Except.map, bind, Except.bind, pure, Except.pure, shape,
        compiledEdges_unworded, map_append, map_map, zipIdx_map]
      simp only [comp_def, Prod.map, shape_phaseNode_unworded, id]

/-! ### Accepted adaptations -/

theorem map_unworded_of_zip {before after : List Phase} (sameLength : before.length = after.length)
    (alike : ∀ pair ∈ before.zip after, pair.1.unworded = pair.2.unworded) :
    before.map Phase.unworded = after.map Phase.unworded := by
  have firsts := map_fst_zip (le_of_eq sameLength)
  have seconds := map_snd_zip (le_of_eq sameLength.symm)
  calc before.map Phase.unworded
      = ((before.zip after).map Prod.fst).map Phase.unworded := by rw [firsts]
    _ = ((before.zip after).map Prod.snd).map Phase.unworded := by
        rw [map_map, map_map]
        exact map_congr_left alike
    _ = after.map Phase.unworded := by rw [seconds]

/-- What the guard has checked once it accepts. -/
structure Adapted (source candidate : PhaseProgram) (changed : List String) : Prop where
  length : source.phases.length = candidate.phases.length
  edges : source.edges = candidate.edges
  phases : ∀ pair ∈ source.phases.zip candidate.phases, pair.1.unworded = pair.2.unworded
  changed_eq : changed = (reworded (source.phases.zip candidate.phases)).map fun pair => pair.1.id
  changed_ne_nil : changed ≠ []

theorem adapted_of_accepted {order : KeyOrder} {source candidate : PhaseProgram} {changed : List String}
    (accepted : validateGoalOnlyAdaptation order source candidate = .ok changed) :
    Adapted source candidate changed := by
  unfold validateGoalOnlyAdaptation at accepted
  split at accepted
  · cases accepted
  rename_i sameLength
  split at accepted
  · cases accepted
  rename_i sameEdges
  split at accepted
  · cases accepted
  · cases accepted
  · rename_i compared
    cases accepted
    obtain ⟨alike, resultEq⟩ := comparePhases_eq_ok compared
    exact ⟨not_not.mp sameLength, not_not.mp sameEdges, alike, resultEq, by simp⟩

namespace Adapted

variable {source candidate : ValidProgram} {changed : List String}
  (adapted : Adapted source.program candidate.program changed)
include adapted

/-- Without their wording the two programs are the same. -/
theorem unworded_eq : source.program.unworded = candidate.program.unworded := by
  have phases := map_unworded_of_zip adapted.length adapted.phases
  have version := source.wellFormed.version.trans candidate.wellFormed.version.symm
  simp only [unworded, phases, adapted.edges, version]

/-- Both programs find a pair of phases under the one id. -/
theorem byId_of_mem_zip {pair : Phase × Phase}
    (mem : pair ∈ source.program.phases.zip candidate.program.phases) :
    source.program.byId pair.1.id = some pair.1 ∧ candidate.program.byId pair.1.id = some pair.2 := by
  obtain ⟨inSource, inCandidate⟩ := of_mem_zip mem
  have sameId : pair.1.id = pair.2.id := by
    rw [← pair.1.unworded_id, ← pair.2.unworded_id, adapted.phases pair mem]
  refine ⟨PhaseProgram.byId_of_mem source.distinct inSource, ?_⟩
  rw [sameId]
  exact PhaseProgram.byId_of_mem candidate.distinct inCandidate

/-- The changed ids are those under which the two programs have different wording. -/
theorem changed_eq_filter : changed = source.program.phaseIds.filter fun id =>
      decide ((source.program.byId id).map Phase.wording ≠
        (candidate.program.byId id).map Phase.wording) := by
  have ids : source.program.phaseIds =
      (source.program.phases.zip candidate.program.phases).map fun pair => pair.1.id := by
    rw [phaseIds]
    nth_rewrite 1 [← map_fst_zip (le_of_eq adapted.length)]
    rw [map_map]
    rfl
  rw [adapted.changed_eq, ids, filter_map, reworded]
  congr 1
  apply filter_congr
  intro pair mem
  obtain ⟨inSource, inCandidate⟩ := adapted.byId_of_mem_zip mem
  simp [inSource, inCandidate]

omit adapted

end Adapted

/-- Whatever order the guard goes through its keys in: an adaptation that it accepts keeps
the execution order, the turn bound, the shape of the compiled graph and every command, and
the ids it returns are exactly those of the phases whose wording differs. -/
theorem adaptation_changes_wording_only (order : KeyOrder) (source candidate : ValidProgram)
    (changed : List String)
    (accepted : validateGoalOnlyAdaptation order source.program candidate.program = .ok changed) :
    candidate.ordered.map Phase.id = source.ordered.map Phase.id ∧
      phaseTurnBound candidate.program = phaseTurnBound source.program ∧
      (compilePhaseProgram candidate.program).map PhaseGraph.shape =
        (compilePhaseProgram source.program).map PhaseGraph.shape ∧
      (∀ phase, .command phase ∈ source.program.phases →
        ∃ kept : CommandPhase, .command kept ∈ candidate.program.phases ∧
          kept.id = phase.id ∧ kept.command = phase.command ∧
          kept.expectedExitCode = phase.expectedExitCode ∧
          kept.stopOnFailure = phase.stopOnFailure) ∧
      changed ≠ [] ∧
      changed = source.program.phaseIds.filter fun id =>
        decide ((source.program.byId id).map Phase.wording ≠
          (candidate.program.byId id).map Phase.wording) := by
  have adapted := adapted_of_accepted accepted
  have same := adapted.unworded_eq
  refine ⟨?_, ?_, ?_, ?_, adapted.changed_ne_nil, adapted.changed_eq_filter⟩
  · have orders := orderedPhases_unworded candidate.program
    rw [← same, orderedPhases_unworded, source.orderedPhases_eq, candidate.orderedPhases_eq] at orders
    have ids := congrArg (map Phase.id) (Except.ok.inj orders)
    simpa [comp_def] using ids.symm
  · rw [← phaseTurnBound_unworded candidate.program, ← same, phaseTurnBound_unworded]
  · rw [← compilePhaseProgram_unworded candidate.program, ← same, compilePhaseProgram_unworded]
  · intro phase member
    have phases := map_unworded_of_zip adapted.length adapted.phases
    have listed : (Phase.command phase).unworded ∈ candidate.program.phases.map Phase.unworded := by
      rw [← phases]
      exact mem_map_of_mem member
    obtain ⟨after, inCandidate, same⟩ := mem_map.mp listed
    cases after with
    | command kept =>
      simp only [Phase.unworded, Phase.command.injEq, CommandPhase.mk.injEq] at same
      obtain ⟨id, -, -, command, exitCode, stop, -⟩ := same
      exact ⟨kept, inCandidate, id, command, exitCode, stop⟩
    | _ => cases same

/-- The workflow of the adaptation tests, with a test command. -/
def adaptedSource : ValidProgram where
  program :=
    { phases :=
        [ .work { id := "inspect", name := "Inspect", goal := "Read the repository." },
          .command { id := "check", name := "Check", command := "make test" } ]
      edges := [⟨"inspect", "check"⟩] }
  wellFormed := by decide
  validated := by decide

def adaptedCandidate : ValidProgram where
  program :=
    { phases :=
        [ .work { id := "inspect", name := "Inspect", goal := "Read the parser module." },
          .command { id := "check", name := "Check", command := "make test" } ]
      edges := [⟨"inspect", "check"⟩] }
  wellFormed := by decide
  validated := by decide

/-- The adapted goal is the only change: order and bound of the turns are those of the source. -/
theorem adaptedCandidate_keeps_structure :
    validateGoalOnlyAdaptation ⟨structuralKeys, List.Perm.refl _⟩ adaptedSource.program
        adaptedCandidate.program = .ok ["inspect"] ∧
      adaptedCandidate.ordered.map Phase.id = adaptedSource.ordered.map Phase.id ∧
      phaseTurnBound adaptedCandidate.program = phaseTurnBound adaptedSource.program := by
  have accepted : validateGoalOnlyAdaptation ⟨structuralKeys, List.Perm.refl _⟩
      adaptedSource.program adaptedCandidate.program = .ok ["inspect"] := by decide
  obtain ⟨order, bound, -⟩ := adaptation_changes_wording_only _ _ _ _ accepted
  exact ⟨accepted, order, bound⟩

end WeaveCodex.ControlPlane
