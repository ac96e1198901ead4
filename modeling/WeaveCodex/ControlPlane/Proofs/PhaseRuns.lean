/-
Purpose: What holds of every run of an accepted program: which phases were executed,
  how many turns they used, and what the completion status says about them.
-/
import Mathlib.Algebra.GroupWithZero.Nat
import WeaveCodex.ControlPlane.Proofs.OrderedPhases
import WeaveCodex.ControlPlane.Proofs.PhaseEffects

namespace WeaveCodex.ControlPlane

open Except
open Library.EarlyExit List

/-- The execution is one of this phase. -/
structure Ran (phase : Phase) (execution : Execution) : Prop where
  phaseId : execution.phaseId = phase.id
  kind : execution.kind = phase.kind
  turnCount : TurnCount phase execution.turnIds.length

/-- The books of a run that has executed the phases `done`. -/
structure Booked (done : List Phase) (run : PhaseRun) : Prop where
  ids : run.result.executions.map Execution.phaseId = done.map Phase.id
  turnIds : run.result.turnIds = (run.result.executions.map Execution.turnIds).flatten
  ran : ∀ execution ∈ run.result.executions, ∃ phase ∈ done, Ran phase execution
  cost : run.result.turnIds.length ≤ (done.map Phase.turnCost).sum
  turnPhases : ∀ turn ∈ turnsOf run.log, turn.phase ∈ done

theorem Booked.initial : Booked [] {} := by
  constructor
  · rfl
  · rfl
  · simp
  · exact le_refl 0
  · simp

variable {execution : Execution} {news : List Interaction} {run run' : PhaseRun} {phase : Phase}
  {done later : List Phase}

theorem Recorded.forall_executions {Holds : Execution → Prop}
    (recorded : Recorded phase run run' news execution)
    (earlier : ∀ other ∈ run.result.executions, Holds other) (own : Holds execution) :
    ∀ other ∈ run'.result.executions, Holds other := by
  rw [recorded.executions]
  exact forall_mem_append.mpr ⟨earlier, by simpa using own⟩

/-- One more recorded phase keeps the books. -/
theorem Booked.snoc (booked : Booked done run) (recorded : Recorded phase run run' news execution) :
    Booked (done ++ [phase]) run' := by
  constructor
  · rw [recorded.executions, map_append, map_append, booked.ids]
    simp [recorded.phaseId]
  · rw [recorded.turnIds, recorded.executions, booked.turnIds]
    simp
  · refine recorded.forall_executions (fun other earlier => ?_)
      ⟨phase, by simp, recorded.phaseId, recorded.kind, recorded.turnCount⟩
    obtain ⟨phase', known, ran⟩ := booked.ran other earlier
    exact ⟨phase', mem_append_left _ known, ran⟩
  · have own := recorded.turnCount.le_turnCost
    have before := booked.cost
    rw [recorded.turnIds, length_append]
    simp only [map_append, map_cons, map_nil, sum_append, sum_cons, sum_nil]
    omega
  · intro turn mem
    rw [recorded.log, turnsOf_append] at mem
    cases mem_append.mp mem with
    | inl earlier => exact mem_append_left _ (booked.turnPhases turn earlier)
    | inr last =>
      rw [turn_phase_of_owned recorded.owned turn last]
      simp

/-- A run that no phase has ended yet. -/
structure Unbroken (done : List Phase) (run : PhaseRun) : Prop extends Booked done run where
  completed : ∀ turn ∈ turnsOf run.log, turn.Completed
  completion : run.result.completionStatus = .completed
  accepted : ∀ execution ∈ run.result.executions, ¬ execution.Declined
  passed : ∀ execution ∈ run.result.executions, ∃ phase ∈ done, Ran phase execution ∧
    ∀ command, phase = .command command → command.stopOnFailure = true → execution.HasStatus "pass"

theorem Unbroken.initial : Unbroken [] {} := by
  refine ⟨Booked.initial, ?_, rfl, ?_, ?_⟩
  · simp
  · simp
  · simp

theorem Unbroken.snoc (unbroken : Unbroken done run)
    (recorded : Recorded phase run run' news execution) (continued : Continued phase news execution)
    (completion : run'.result.completionStatus = run.result.completionStatus) :
    Unbroken (done ++ [phase]) run' := by
  refine ⟨unbroken.toBooked.snoc recorded, ?_, completion.trans unbroken.completion, ?_, ?_⟩
  · rw [recorded.log, turnsOf_append]
    exact forall_mem_append.mpr ⟨unbroken.completed, continued.completed⟩
  · exact recorded.forall_executions unbroken.accepted continued.accepted
  · refine recorded.forall_executions (fun other earlier => ?_)
      ⟨phase, by simp, ⟨recorded.phaseId, recorded.kind, recorded.turnCount⟩, continued.passed⟩
    obtain ⟨phase', known, ran, passed⟩ := unbroken.passed other earlier
    exact ⟨phase', mem_append_left _ known, ran, passed⟩

theorem unbroken_of_passes {setting : Setting} (passes : Passes setting.executePhase {} done run) :
    Unbroken done run := by
  refine passes.invariant Unbroken Unbroken.initial ?_
  intro done phase before after unbroken went
  have spec := executePhase_spec setting before phase
  rw [went] at spec
  obtain ⟨_, _, recorded, continued, completion⟩ := spec
  exact unbroken.snoc recorded continued completion

/-- How a run of the ordered phases ends. -/
inductive RunShape (ordered : List Phase) : Ending PhaseRun → Prop where
  | completed {run : PhaseRun} : Unbroken ordered run → RunShape ordered (.returned run)
  | halted {done later : List Phase} {phase : Phase} {before run : PhaseRun}
      {news : List Interaction} {execution : Execution} :
      ordered = done ++ phase :: later → Unbroken done before →
        Recorded phase before run news execution →
        Halted phase news execution run.result.completionStatus → RunShape ordered (.returned run)
  | raised {done later : List Phase} {phase : Phase} {before run : PhaseRun}
      {news : List Interaction} {error : String} :
      ordered = done ++ phase :: later → Unbroken done before → run.log = before.log ++ news →
        (∀ turn ∈ turnsOf news, turn.Completed) → RunShape ordered (.raised error run)

variable (setting : Setting) (valid : ValidProgram)

/-- Every run of an accepted program has one of the three shapes. -/
theorem executePhaseProgram_shape (carries : setting.manifest.phaseProgram = some valid.program) :
    RunShape valid.ordered setting.executePhaseProgram := by
  unfold Setting.executePhaseProgram
  simp only [carries, valid.orderedPhases_eq]
  obtain ⟨_, _, state, split, passes, last⟩ :=
    loop_cases setting.executePhase valid.ordered {}
  have unbroken := unbroken_of_passes passes
  generalize loop setting.executePhase valid.ordered {} = ending at last
  cases last with
  | exhausted =>
    rw [append_nil] at split
    rw [split]
    exact .completed unbroken
  | @stopped phase _ _ left =>
    have spec := executePhase_spec setting state phase
    rw [left] at spec
    obtain ⟨_, _, recorded, halted⟩ := spec
    exact .halted split unbroken recorded halted
  | @raised phase _ _ _ failed =>
    have spec := executePhase_spec setting state phase
    rw [failed] at spec
    obtain ⟨_, log, -, completed⟩ := spec
    exact .raised split unbroken log completed

/-! ### Runs that return -/

/-- A turn of this execution ended with another status than `completed`. -/
def Execution.Stopped (log : List Interaction) (execution : Execution) : Prop :=
  ∃ turn ∈ turnsOf log, turn.phase.id = execution.phaseId ∧ ¬ turn.Completed

/-- The execution is a failed command of a phase that stops on failure. -/
def Execution.FailedCheck (ordered : List Phase) (execution : Execution) : Prop :=
  ∃ command, .command command ∈ ordered ∧ command.id = execution.phaseId ∧
    command.stopOnFailure = true ∧ execution.HasStatus "fail"

/-- What the books of a returned run owe the execution order and the turn bound. -/
structure ReturnedBooks (ordered : List Phase) (bound : Nat) (run : PhaseRun) : Prop where
  executed : run.result.executions.map Execution.phaseId <+: ordered.map Phase.id
  once : (run.result.executions.map Execution.phaseId).Nodup
  turnIds : run.result.turnIds = (run.result.executions.map Execution.turnIds).flatten
  withinBound : run.result.turnIds.length ≤ bound
  verifyTurns : ∀ phase, .verify phase ∈ ordered → ∀ execution ∈ run.result.executions,
    execution.phaseId = phase.id → execution.turnIds.length ≤ 1 + phase.maxRepairs
  singleTurns : ∀ execution ∈ run.result.executions,
    execution.kind = .work ∨ execution.kind = .command → execution.turnIds.length = 1

/-- The run is complete: every phase was executed and none of them ended it. -/
def CompleteRun (ordered : List Phase) (run : PhaseRun) : Prop :=
  run.result.executions.map Execution.phaseId = ordered.map Phase.id ∧
    ∀ execution ∈ run.result.executions,
      ¬ execution.Stopped run.log ∧ ¬ execution.Declined ∧ ¬ execution.FailedCheck ordered

theorem phaseTurnBound_eq :
    phaseTurnBound valid.program = .ok (valid.ordered.map Phase.turnCost).sum := by
  unfold phaseTurnBound
  rw [valid.orderedPhases_eq]
  show .ok _ = ok _
  rw [sum_eq_foldl, foldl_map]

/-- Two phases of the order with one id are one phase. -/
theorem ValidProgram.eq_of_id {first second : Phase} (firstIn : first ∈ valid.ordered)
    (secondIn : second ∈ valid.ordered) (same : first.id = second.id) : first = second :=
  inj_on_of_nodup_map valid.orderedIds_nodup firstIn secondIn same

/-- What a run has booked is what a returned run owes. -/
theorem Booked.returnedBooks (booked : Booked done run) (split : valid.ordered = done ++ later) :
    ReturnedBooks valid.ordered (valid.ordered.map Phase.turnCost).sum run := by
  have within : ∀ {phase}, phase ∈ done → phase ∈ valid.ordered := fun mem => by
    rw [split]
    exact mem_append_left _ mem
  have executed : run.result.executions.map Execution.phaseId <+: valid.ordered.map Phase.id := by
    rw [booked.ids, split, map_append]
    exact prefix_append _ _
  constructor
  · exact executed
  · exact List.Nodup.sublist executed.sublist valid.orderedIds_nodup
  · exact booked.turnIds
  · apply le_trans booked.cost
    rw [split, map_append, sum_append]
    exact Nat.le_add_right _ _
  · intro phase known execution mem same
    obtain ⟨owner, owned, ran⟩ := booked.ran execution mem
    have sameOwner : owner = .verify phase :=
      valid.eq_of_id (within owned) known (ran.phaseId.symm.trans same)
    have counted := ran.turnCount
    rw [sameOwner] at counted
    exact counted.2
  · intro execution mem single
    obtain ⟨owner, _, ran⟩ := booked.ran execution mem
    have counted := ran.turnCount
    rw [ran.kind] at single
    cases owner with
    | work | command => exact counted
    | verify | checkpoint => simp [Phase.kind] at single

/-- An unbroken run of the whole order is complete. -/
theorem Unbroken.completeRun (unbroken : Unbroken valid.ordered run) :
    CompleteRun valid.ordered run := by
  refine ⟨unbroken.ids, ?_⟩
  intro execution mem
  refine ⟨?_, unbroken.accepted execution mem, ?_⟩
  · rintro ⟨turn, taken, -, interrupted⟩
    exact interrupted (unbroken.completed turn taken)
  · rintro ⟨command, known, same, stops, failed⟩
    obtain ⟨owner, owned, ran, passed⟩ := unbroken.passed execution mem
    have sameOwner : owner = .command command :=
      valid.eq_of_id owned known (ran.phaseId.symm.trans same.symm)
    have status := passed command sameOwner stops
    unfold Execution.HasStatus at status failed
    rw [status] at failed
    simp at failed

/-- The execution that ended a run is stopped, declined or a failed check. -/
theorem Halted.ends_run {before : PhaseRun} {status : CompletionStatus} {ordered : List Phase}
    (split : ordered = done ++ phase :: later) (recorded : Recorded phase before run news execution)
    (halted : Halted phase news execution status) :
    status ≠ .completed ∧
      (execution.Stopped run.log ∨ execution.Declined ∨ execution.FailedCheck ordered) := by
  have stopped : Interrupted news → execution.Stopped run.log := by
    rintro ⟨_, last, turns, -, interrupted⟩
    have lastIn : last ∈ turnsOf news := by simp [turns]
    refine ⟨last, ?_, ?_, interrupted⟩
    · rw [recorded.log, turnsOf_append]
      exact mem_append_right _ lastIn
    · rw [turn_phase_of_owned recorded.owned last lastIn, recorded.phaseId]
  cases halted with
  | interrupted broken | interruptedCheck _ _ _ broken =>
    exact ⟨by simp, .inl (stopped broken)⟩
  | failedCheck command own stops _ failed =>
    refine ⟨by simp, .inr (.inr ⟨command, ?_, ?_, stops, failed⟩)⟩
    · rw [split, ← own]
      simp
    · rw [recorded.phaseId, own]
      rfl
  | declined _ declined => exact ⟨by simp, .inr (.inl declined)⟩

/-- Whenever `execute_phase_program` returns on an accepted program, its books agree
with the execution order and the turn bound, and its completion status is `completed`
exactly if the run is complete. -/
theorem executePhaseProgram_returned {run : PhaseRun}
    (carries : setting.manifest.phaseProgram = some valid.program)
    (returned : setting.executePhaseProgram = .returned run) :
    ∃ ordered bound, orderedPhases valid.program = .ok ordered ∧
      phaseTurnBound valid.program = .ok bound ∧ ReturnedBooks ordered bound run ∧
      (run.result.completionStatus = .completed ↔ CompleteRun ordered run) := by
  refine ⟨valid.ordered, _, valid.orderedPhases_eq, phaseTurnBound_eq valid, ?_⟩
  have shape := executePhaseProgram_shape setting valid carries
  rw [returned] at shape
  generalize ending : Ending.returned run = outcome at shape
  cases shape with
  | completed unbroken =>
    cases ending
    refine ⟨unbroken.toBooked.returnedBooks valid (append_nil _).symm, ?_⟩
    exact ⟨fun _ => unbroken.completeRun valid, fun _ => unbroken.completion⟩
  | @halted done later phase _ _ _ execution split unbroken recorded halted =>
    cases ending
    have ends := halted.ends_run split recorded
    have books := (unbroken.toBooked.snoc recorded).returnedBooks valid
      (split.trans (by simp) : valid.ordered = (done ++ [phase]) ++ later)
    refine ⟨books, fun completed => absurd completed ends.1, ?_⟩
    rintro ⟨-, untroubled⟩
    have last : execution ∈ run.result.executions := by simp [recorded.executions]
    obtain ⟨notStopped, notDeclined, notFailed⟩ := untroubled execution last
    rcases ends.2 with stopped | declined | failed
    · contradiction
    · contradiction
    · contradiction
  | raised => cases ending

/-- A reply without events. -/
def quietReply (turnId finalResponse status : String) : TurnReply :=
  { turnId
    finalResponse
    status
    usage := none
    events := []
    countable := by simp }

/-- The report of the command `make test` with exit code 0, as a JSON text. -/
def exitZeroReport : String :=
  "\x7b\"executedCommand\": \"make test\", \"exitCode\": 0, \"summary\": \"ok\"\x7d"

/-- The same report with exit code 1. -/
def exitOneReport : String :=
  "\x7b\"executedCommand\": \"make test\", \"exitCode\": 1, \"summary\": \"ok\"\x7d"

/-- The structured report of a command and its exit code. -/
def commandReport (command : String) (exitCode : Int) (summary : String) : Json :=
  .dict [("executedCommand", .text command), ("exitCode", .int exitCode), ("summary", .text summary)]

/-- `json.loads` and `str` on the texts and values of the runs below. -/
def reportPython : PythonText :=
  { loads := fun text =>
      if text = exitZeroReport then .ok (commandReport "make test" 0 "ok")
      else if text = exitOneReport then .ok (commandReport "make test" 1 "ok")
      else .error "JSONDecodeError"
    str := fun
      | .text text => text
      | _ => ""
    str_text := fun _ => rfl
    encodedLength := fun _ => 0 }

def scriptedManifest (program : PhaseProgram) : HarnessManifest :=
  { schemaVersion := 2
    cwd := "/workspace"
    task := { instructions := "Ship the product." }
    phaseProgram := some program }

/-- A gateway that answers its turns from a list, and a human who accepts every
checkpoint with a feedback text of its own. -/
def scriptedEnvironment (replies : List TurnReply) (feedback : CheckpointPhase → String) :
    Environment :=
  { runTurn := fun log _ =>
      match replies[(turnsOf log).length]? with
      | some reply => .ok reply
      | none => .error "gateway closed"
    requestCheckpoint := fun _ phase => { decision := .accept, feedback := feedback phase } }

/-- Build, ask, ship. -/
def reviewProgram : ValidProgram :=
  { program :=
      { phases :=
          [ .work { id := "build", name := "Build", goal := "Build the product." },
            .checkpoint { id := "review", name := "Review", question := "Ship it?" },
            .work { id := "ship", name := "Ship", goal := "Ship the product." } ] }
    wellFormed := by decide
    validated := by decide }

def reviewSetting : Setting :=
  { python := reportPython
    env := scriptedEnvironment
      [quietReply "turn-0" "built" "completed", quietReply "turn-1" "shipped" "completed"]
      fun _ => ""
    manifest := scriptedManifest reviewProgram.program
    threadId := "thread"
    selectedExcerpts := [] }

/-- A run in which everything goes well is complete. -/
theorem reviewSetting_returned : ∃ run, reviewSetting.executePhaseProgram = .returned run ∧
    run.result.turnIds = ["turn-0", "turn-1"] ∧
    CompleteRun reviewProgram.program.phases run := by
  obtain ⟨run, returned⟩ : ∃ run, reviewSetting.executePhaseProgram = .returned run := ⟨_, rfl⟩
  have turnIds : reviewSetting.executePhaseProgram.state.result.turnIds = ["turn-0", "turn-1"] :=
    by decide
  have completed : reviewSetting.executePhaseProgram.state.result.completionStatus =
      .completed := by decide
  rw [returned] at turnIds completed
  obtain ⟨_, _, ordering, -, -, complete⟩ :=
    executePhaseProgram_returned reviewSetting reviewProgram rfl returned
  have listed : orderedPhases reviewProgram.program = .ok reviewProgram.program.phases := rfl
  rw [listed] at ordering
  refine ⟨run, returned, turnIds, ?_⟩
  rw [ok.inj ordering]
  exact complete.mp completed

end WeaveCodex.ControlPlane
