/-
Purpose: The browser's loop ends, and its order is that of the server's `ordered_phases` on every
  graph the server accepts.
-/
import WeaveCodex.ControlPlane.CanvasModel
import WeaveCodex.ControlPlane.Proofs.OrderedPhases

namespace WeaveCodex.ControlPlane

open Library.TopologicalOrder Canvas

variable {program : PhaseProgram}

theorem Canvas.ready_eq_roots : ready program = program.roots := by
  simp only [ready, PhaseProgram.roots, PhaseProgram.phaseIds, List.filter_map]
  rfl

theorem Canvas.clientLoop_eq_readyLoop : clientLoop program = program.readyLoop := by
  rw [clientLoop, ready_eq_roots]
  rfl

/-- The browser's `while` loop has ended, on a graph with a cycle or repeated arrows too: its queue
is empty. -/
theorem Canvas.clientLoop_finished (distinct : program.phaseIds.Nodup)
    (known : ∀ edge ∈ program.identities,
      edge.1 ∈ program.phaseIds ∧ edge.2 ∈ program.phaseIds) : (clientLoop program).ready = [] := by
  rw [clientLoop_eq_readyLoop]
  exact PhaseProgram.readyLoop_finished distinct known

/-- The browser finds both ends of every arrow. -/
theorem Canvas.noneMissing_of_known (known : ∀ edge ∈ program.identities,
    edge.1 ∈ program.phaseIds ∧ edge.2 ∈ program.phaseIds) :
    ¬ ((arrows program).any fun edge =>
      (byId program edge.1).isNone || (byId program edge.2).isNone) = true := by
  intro missing
  obtain ⟨edge, mem, absent⟩ := List.any_eq_true.mp missing
  obtain ⟨sourceKnown, targetKnown⟩ := known edge mem
  rcases (Bool.or_eq_true _ _).mp absent with source | target
  · exact PhaseProgram.byId_isNone_iff.mp source sourceKnown
  · exact PhaseProgram.byId_isNone_iff.mp target targetKnown

theorem clientTopologicalOrder_of_executable (distinct : program.phaseIds.Nodup)
    (hasEdges : program.edges ≠ []) (graph : ExecutableGraph program) :
    clientTopologicalOrder program =
      (greedy program.phaseIds program.identities).filterMap program.byId := by
  rw [clientTopologicalOrder, if_neg hasEdges, if_neg (noneMissing_of_known graph.known),
    clientLoop_eq_readyLoop,
    PhaseProgram.readyLoop_ordered distinct graph.known]
  rfl

/-- Whatever order the server accepts is the order the browser shows. -/
theorem orderedClientPhases_agrees (program : PhaseProgram)
    (distinct : program.phaseIds.Nodup) {order : List Phase}
    (accepted : orderedPhases program = .ok order) :
    (orderedClientPhases program).map Phase.id = order.map Phase.id := by
  by_cases hasEdges : program.edges = []
  · have listed : order = program.phases := by
      simpa [orderedPhases, hasEdges] using accepted.symm
    simp [orderedClientPhases, clientTopologicalOrder, hasEdges, listed]
  · obtain ⟨graph, orderEq⟩ := (orderedPhases_eq_ok_iff distinct hasEdges).mp accepted
    have sameOrder : clientTopologicalOrder program = order :=
      (clientTopologicalOrder_of_executable distinct hasEdges graph).trans orderEq.symm
    have full : order.length = program.phases.length :=
      (orderedPhases_perm distinct accepted).length_eq
    simp [orderedClientPhases, sameOrder, full]

/-- A graph whose execution order is not its listed order. -/
def reorderedProgram : PhaseProgram :=
  { phases :=
      [ .verify { id := "review", name := "Review", criteria := "Every check passed." },
        .work { id := "implement", name := "Implement", goal := "Make the change." },
        .work { id := "inspect", name := "Inspect", goal := "Read the files." } ]
    edges := [⟨"inspect", "implement"⟩, ⟨"implement", "review"⟩] }

/-- Server and browser both turn the list around. -/
theorem reorderedProgram_agrees : orderedPhases reorderedProgram = .ok reorderedProgram.phases.reverse ∧
    (orderedClientPhases reorderedProgram).map Phase.id = ["inspect", "implement", "review"] := by
  have accepted : orderedPhases reorderedProgram = .ok reorderedProgram.phases.reverse := by
    decide
  exact ⟨accepted, (orderedClientPhases_agrees reorderedProgram (by decide) accepted).trans (by decide)⟩

/-- Three rounds of the loop have emptied its queue. -/
theorem reorderedLoop_finished : (clientLoop reorderedProgram).ready = [] :=
  clientLoop_finished (by decide) (by decide)

end WeaveCodex.ControlPlane
