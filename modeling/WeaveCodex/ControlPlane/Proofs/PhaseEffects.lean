/-
Purpose: What one phase does to a run: the execution it records, the turns it uses,
  the reason for which it ends the run, and that it relays the human feedback.
-/
import WeaveCodex.ControlPlane.Proofs.PhaseTraces

namespace WeaveCodex.ControlPlane

open Option
open Library.EarlyExit Setting List

variable {phase : Phase}

def Turn.Completed (turn : Turn) : Prop :=
  turn.reply.status = "completed"

instance (turn : Turn) : Decidable turn.Completed :=
  inferInstanceAs (Decidable (_ = _))

/-- The number of turns that a finished phase has used. -/
def TurnCount : Phase → Nat → Prop
  | .work _, count | .command _, count => count = 1
  | .verify phase, count => 1 ≤ count ∧ count ≤ 1 + phase.maxRepairs
  | .checkpoint _, count => count = 0

theorem TurnCount.le_turnCost {count : Nat} (counted : TurnCount phase count) :
    count ≤ phase.turnCost := by
  cases phase with
  | verify => exact counted.2
  | _ => exact le_of_eq counted

/-- A human declined at this execution's checkpoint. -/
def Execution.Declined (execution : Execution) : Prop :=
  ∃ decision ∈ execution.decision, decision.accepts = false

def Execution.HasStatus (execution : Execution) (status : String) : Prop :=
  execution.status = some (.text status)

/-- The execution is one of this phase, with the turns of its record. -/
structure Reports (phase : Phase) (news : List Interaction) (execution : Execution) : Prop where
  phaseId : execution.phaseId = phase.id
  kind : execution.kind = phase.kind
  ownTurns : execution.turnIds = (turnsOf news).map fun turn => turn.reply.turnId
  turnCount : TurnCount phase execution.turnIds.length

/-- The phase left one execution behind, with exactly its own turns. -/
structure Recorded (phase : Phase) (run run' : PhaseRun) (news : List Interaction)
    (execution : Execution) : Prop extends Reports phase news execution where
  log : run'.log = run.log ++ news
  executions : run'.result.executions = run.result.executions ++ [execution]
  turnIds : run'.result.turnIds = run.result.turnIds ++ execution.turnIds
  owned : ∀ exchange ∈ news, exchange.OwnedBy phase

/-- Why the run goes on after a phase. -/
structure Continued (phase : Phase) (news : List Interaction) (execution : Execution) :
    Prop where
  completed : ∀ turn ∈ turnsOf news, turn.Completed
  accepted : ¬ execution.Declined
  passed : ∀ command, phase = .command command → command.stopOnFailure = true →
    execution.HasStatus "pass"

/-- All turns of a phase but the last completed. -/
def Interrupted (news : List Interaction) : Prop :=
  ∃ earlier last, turnsOf news = earlier ++ [last] ∧ (∀ turn ∈ earlier, turn.Completed) ∧
    ¬ last.Completed

/-- Why a phase ends the run, and the completion status it leaves.  An interrupted
check that stops on failure counts as a failed check. -/
inductive Halted (phase : Phase) (news : List Interaction) (execution : Execution) :
    CompletionStatus → Prop where
  | interrupted : Interrupted news → execution.HasStatus "stopped" →
      (∀ command, phase = .command command → command.stopOnFailure = false) →
        Halted phase news execution .stopped
  | interruptedCheck (command : CommandPhase) : phase = .command command →
      command.stopOnFailure = true → Interrupted news → execution.HasStatus "stopped" →
        Halted phase news execution .failedCheck
  | failedCheck (command : CommandPhase) : phase = .command command →
      command.stopOnFailure = true → (∀ turn ∈ turnsOf news, turn.Completed) →
        execution.HasStatus "fail" → Halted phase news execution .failedCheck
  | declined : turnsOf news = [] → execution.Declined →
      Halted phase news execution .stoppedAtCheckpoint

/-- Everything a pass of the loop can do to a run. -/
def PhaseSpec (phase : Phase) (run : PhaseRun) : Flow PhaseRun → Prop
  | .next run' => ∃ news execution, Recorded phase run run' news execution ∧
      Continued phase news execution ∧
      run'.result.completionStatus = run.result.completionStatus
  | .stop run' => ∃ news execution, Recorded phase run run' news execution ∧
      Halted phase news execution run'.result.completionStatus
  | .raised _ run' => ∃ news, run'.log = run.log ++ news ∧
      (∀ exchange ∈ news, exchange.OwnedBy phase) ∧ ∀ turn ∈ turnsOf news, turn.Completed

/-- A pass of the loop does what it can do, and relays the feedback. -/
def Traced (setting : Setting) (phase : Phase) (run : PhaseRun) (flow : Flow PhaseRun) : Prop :=
  PhaseSpec phase run flow ∧ (Relays setting run → Relays setting flow.state)

section Close

variable {setting : Setting} {run middle : PhaseRun} {news : List Interaction} {execution : Execution}
  (trace : Trace setting phase run middle news)
include trace

theorem Trace.raised (error : String) (completed : ∀ turn ∈ turnsOf news, turn.Completed) :
    Traced setting phase run (.raised error middle) :=
  ⟨⟨news, trace.log, trace.owned, completed⟩, trace.relays⟩

variable (reports : Reports phase news execution)
include reports

theorem Trace.recorded {closed : PhaseRun} (log : closed.log = middle.log)
    (executions : closed.result.executions = middle.result.executions ++ [execution])
    (turnIds : closed.result.turnIds = middle.result.turnIds) :
    Recorded phase run closed news execution where
  toReports := reports
  log := log.trans trace.log
  executions := by rw [executions, trace.executions]
  turnIds := by rw [turnIds, trace.turnIds, reports.ownTurns]
  owned := trace.owned

theorem Trace.next (continued : Continued phase news execution)
    (unchanged : middle.result.completionStatus = run.result.completionStatus) :
    Traced setting phase run (middle.close execution false) :=
  ⟨⟨news, execution, trace.recorded reports rfl rfl rfl, continued, unchanged⟩,
    fun relays => (trace.relays relays).of_same rfl rfl⟩

theorem Trace.stop (halted : Halted phase news execution middle.result.completionStatus) :
    Traced setting phase run (middle.close execution true) :=
  ⟨⟨news, execution, trace.recorded reports rfl rfl rfl, halted⟩,
    fun relays => (trace.relays relays).of_same rfl rfl⟩

end Close

theorem Execution.not_declined {execution : Execution} (undecided : execution.decision = none) :
    ¬ execution.Declined := by
  rintro ⟨_, decided, -⟩
  rw [undecided] at decided
  cases decided

/-- A phase whose record holds one turn was interrupted if that turn was. -/
theorem interrupted_of_single {news : List Interaction} {turn : Turn} (single : turnsOf news = [turn])
    (interrupted : ¬ turn.Completed) : Interrupted news :=
  ⟨[], turn, single, by simp, interrupted⟩

variable (setting : Setting) (run : PhaseRun)

/-- A checkpoint goes on if it is accepted and ends the run if it is declined. -/
theorem executeCheckpoint_spec (phase : CheckpointPhase) :
    Traced setting (.checkpoint phase) run (setting.executeCheckpoint run phase) := by
  unfold executeCheckpoint
  extract_lets context staged resolution feedback answered execution
  have opened : Trace setting (.checkpoint phase) run staged _ := Trace.refl.stage _ _ _
  cases decided : resolution.decision.accepts with
  | true =>
    rw [if_pos rfl]
    have accepted : Trace setting (.checkpoint phase) run
        (answered.setPendingFeedback resolution.feedback) _ :=
      opened.concat rfl (append_nil _).symm rfl rfl (if_pos decided).symm (by rintro _ ⟨⟩)
    refine accepted.next ⟨rfl, rfl, rfl, rfl⟩ ⟨by simp, ?_, nofun⟩ rfl
    rintro ⟨_, same, declined⟩
    rw [← mem_some_iff.mp same, decided] at declined
    cases declined
  | false =>
    rw [if_neg Bool.false_ne_true]
    have declined : Trace setting (.checkpoint phase) run answered _ :=
      opened.concat rfl (append_nil _).symm rfl rfl (if_neg (by simp [decided])).symm (by rintro _ ⟨⟩)
    refine (declined.setCompletion _).stop ?_ ?_
    · exact ⟨rfl, rfl, rfl, rfl⟩
    · exact .declined rfl ⟨resolution.decision, rfl, decided⟩

/-- A work phase takes one turn and goes on if that completed. -/
theorem executeWork_spec (phase : WorkPhase) :
    Traced setting (.work phase) run (setting.executeWork run phase) := by
  unfold executeWork
  extract_lets context staged request
  have counted : Trace setting (.work phase) run run.countWork [] := Trace.refl.same rfl rfl rfl rfl
  have opened : Trace setting (.work phase) run staged _ := counted.stage _ _ _
  cases called : setting.env.runTurn staged.log request with
  | error error => exact opened.raised error (by simp)
  | ok reply =>
    dsimp -zeta only
    extract_lets turn
    have relayed : Trace setting (.work phase) run
        ((staged.recordTurn turn).setPendingFeedback "") _ := opened.relayTurn rfl rfl ⟨_, rfl⟩
    dsimp only [finishWork]
    cases ended : reply.status == "completed" with
    | true =>
      refine ((relayed.setAnswer _).stage _ _ _).next ?_ ?_ rfl
      · exact ⟨rfl, rfl, rfl, rfl⟩
      · exact ⟨forall_mem_singleton.mpr (eq_of_beq ended), Execution.not_declined rfl, nofun⟩
    | false =>
      refine (((relayed.setAnswer _).setCompletion _).stage _ _ _).stop ?_ ?_
      · exact ⟨rfl, rfl, rfl, rfl⟩
      · refine .interrupted (interrupted_of_single rfl ?_) rfl nofun
        intro completed
        rw [show reply.status = _ from completed] at ended
        cases ended

theorem completedCommand_spec {taken : PhaseRun} {news : List Interaction} {turn : Turn}
    (phase : CommandPhase) (trace : Trace setting (.command phase) run taken news)
    (single : turnsOf news = [turn]) (completed : turn.Completed)
    (completion : taken.result.completionStatus = run.result.completionStatus)
    (context : PhaseContext) (detail : CommandDetail) (passed : Bool) :
    Traced setting (.command phase) run
      (setting.finishCommand taken context phase turn.reply.turnId detail false passed) := by
  have all (label title detail : String) :
      ∀ turn ∈ turnsOf (news ++ [.stage label title detail]), turn.Completed := by
    simpa [single] using completed
  have reports {execution : Execution} (phaseId : execution.phaseId = phase.id)
      (kind : execution.kind = .command) (ownTurns : execution.turnIds = [turn.reply.turnId])
      (label title detail : String) :
      Reports (.command phase) (news ++ [.stage label title detail]) execution :=
    ⟨phaseId, kind, by simp [ownTurns, single], congrArg length ownTurns⟩
  unfold finishCommand
  cases passed with
  | true =>
    refine (trace.stage _ _ _).next ?_ ?_ completion
    · exact reports rfl rfl rfl _ _ _
    · exact ⟨all _ _ _, Execution.not_declined rfl, fun _ _ _ => rfl⟩
  | false =>
    cases stops : phase.stopOnFailure with
    | true =>
      refine ((trace.stage _ _ _).setCompletion _).stop ?_ ?_
      · exact reports rfl rfl rfl _ _ _
      · exact .failedCheck phase rfl stops (all _ _ _) rfl
    | false =>
      refine (trace.stage _ _ _).next ?_ ⟨all _ _ _, Execution.not_declined rfl, ?_⟩ completion
      · exact reports rfl rfl rfl _ _ _
      · intro command same ownStops
        rw [← Phase.command.inj same, stops] at ownStops
        cases ownStops

/-- A command phase takes one turn; a failed check ends the run if it is to. -/
theorem executeCommand_spec (phase : CommandPhase) :
    Traced setting (.command phase) run (setting.executeCommand run phase) := by
  unfold executeCommand
  extract_lets context staged request
  have opened : Trace setting (.command phase) run staged _ := Trace.refl.stage _ _ _
  cases called : setting.env.runTurn staged.log request with
  | error error => exact opened.raised error (by simp)
  | ok reply =>
    dsimp -zeta only
    extract_lets turn taken
    have trace : Trace setting (.command phase) run taken _ := opened.commandTurn rfl rfl rfl
    by_cases completed : reply.status = "completed"
    · rw [if_pos completed]
      cases checked : setting.completedCheck phase reply with
      | error error => exact trace.raised error (forall_mem_singleton.mpr completed)
      | ok judged =>
        exact completedCommand_spec setting run phase trace rfl completed rfl context judged.1 judged.2
    · rw [if_neg completed]
      unfold finishCommand
      cases stops : phase.stopOnFailure with
      | true =>
        refine (((trace.setCompletion _).stage _ _ _).setCompletion _).stop ?_ ?_
        · exact ⟨rfl, rfl, rfl, rfl⟩
        · exact .interruptedCheck phase rfl stops (interrupted_of_single rfl completed) rfl
      | false =>
        refine ((trace.setCompletion _).stage _ _ _).stop ?_ ?_
        · exact ⟨rfl, rfl, rfl, rfl⟩
        · refine .interrupted (interrupted_of_single rfl completed) rfl ?_
          intro command same
          rw [← Phase.command.inj same]
          exact stops

/-! ### The verifier loop -/

/-- The bookkeeping of a verify phase after some attempts. -/
structure Attempts (setting : Setting) (phase : VerifyPhase) (run : PhaseRun) (state : VerifyState)
    (news : List Interaction) (count : Nat) : Prop where
  trace : Trace setting (.verify phase) run state.run news
  ownTurns : state.turnIds = (turnsOf news).map fun turn => turn.reply.turnId
  counted : state.turnIds.length = count

/-- Every attempt so far completed, so the loop has not ended the run. -/
structure Attempting (setting : Setting) (phase : VerifyPhase) (run : PhaseRun) (state : VerifyState)
    (news : List Interaction) (count : Nat) : Prop extends
    Attempts setting phase run state news count where
  completed : ∀ turn ∈ turnsOf news, turn.Completed
  completion : state.run.result.completionStatus = run.result.completionStatus
  running : state.stopped = false

/-- The last attempt was interrupted, which ends the run. -/
structure AttemptBroken (setting : Setting) (phase : VerifyPhase) (run : PhaseRun) (state : VerifyState)
    (news : List Interaction) (count : Nat) : Prop extends
    Attempts setting phase run state news count where
  interrupted : Interrupted news
  completion : state.run.result.completionStatus = .stopped
  stopped : state.stopped = true
  status : state.status = some (.text "stopped")

/-- What one attempt can do to a verify phase with `count` attempts behind it. -/
def AttemptSpec (setting : Setting) (phase : VerifyPhase) (run : PhaseRun) (count : Nat) :
    Flow VerifyState → Prop
  | .next state => ∃ news, Attempting setting phase run state news (count + 1)
  | .stop state => ∃ news, Attempting setting phase run state news (count + 1) ∨
      AttemptBroken setting phase run state news (count + 1)
  | .raised _ state => ∃ news, Trace setting (.verify phase) run state.run news ∧
      ∀ turn ∈ turnsOf news, turn.Completed

section Attempt

variable {setting : Setting} {phase : VerifyPhase} {run taken : PhaseRun} {state state' : VerifyState}
  {news news' : List Interaction} {count : Nat} {turn : Turn}
  (attempting : Attempting setting phase run state news count)

include attempting

/-- The bookkeeping after one more turn and its closing stage. -/
theorem Attempting.snoc {label title detail : String}
    (trace : Trace setting (.verify phase) run state'.run (news' ++ [.stage label title detail]))
    (turns : turnsOf news' = turnsOf news ++ [turn])
    (ownIds : state'.turnIds = state.turnIds ++ [turn.reply.turnId]) :
    ∃ news', Attempts setting phase run state' news' (count + 1) ∧
      turnsOf news' = turnsOf news ++ [turn] := by
  refine ⟨_, ⟨trace, ?_, ?_⟩, by simp [turns]⟩
  · simp [ownIds, attempting.ownTurns, turns]
  · simp [ownIds, attempting.counted]

section

variable (took : Trace setting (.verify phase) run taken news')
  (turns : turnsOf news' = turnsOf news ++ [turn]) (attempt : Nat)
include took turns

/-- An attempt that completed and gave a verdict. -/
theorem finishAttempt_spec (completed : turn.Completed)
    (completion : taken.result.completionStatus = state.run.result.completionStatus)
    (verdict : Verdict) : AttemptSpec setting phase run count
      (setting.finishAttempt taken phase attempt (state.turnIds ++ [turn.reply.turnId]) verdict) := by
  unfold finishAttempt
  extract_lets noted staged state'
  have closed : Trace setting (.verify phase) run state'.run _ :=
    ((took.addVerification _).setAnswer _).stage _ _ _
  obtain ⟨news', attempts, turns⟩ := attempting.snoc closed turns rfl
  have attempting' : Attempting setting phase run state' news' (count + 1) := by
    refine ⟨attempts, ?_, completion.trans attempting.completion, rfl⟩
    rw [turns]
    exact forall_mem_append.mpr ⟨attempting.completed, forall_mem_singleton.mpr completed⟩
  split
  · exact ⟨news', .inl attempting'⟩
  · exact ⟨news', attempting'⟩

/-- An attempt that was interrupted. -/
theorem interruptAttempt_spec (interrupted : ¬ turn.Completed) :
    AttemptSpec setting phase run count
      (.stop (interruptAttempt state taken phase attempt turn.reply)) := by
  have closed : Trace setting (.verify phase) run
      (interruptAttempt state taken phase attempt turn.reply).run _ :=
    (took.setCompletion _).stage _ _ _
  obtain ⟨news', attempts, turns⟩ := attempting.snoc closed turns rfl
  refine ⟨news', .inr ⟨attempts, ?_, rfl, rfl, rfl⟩⟩
  exact ⟨turnsOf news, turn, turns, attempting.completed, interrupted⟩

end

theorem verifyAttempt_spec (attempt : Nat) :
    AttemptSpec setting phase run count (setting.verifyAttempt phase state attempt) := by
  unfold verifyAttempt
  extract_lets staged request
  have opened : Trace setting (.verify phase) run staged _ := attempting.trace.stage _ _ _
  cases called : setting.env.runTurn staged.log request with
  | error => exact ⟨_, opened, by simpa using attempting.completed⟩
  | ok reply =>
    dsimp -zeta only
    extract_lets turn taken
    obtain ⟨news', relayed, turns⟩ : ∃ news', Trace setting (.verify phase) run taken news' ∧
        turnsOf news' = turnsOf news ++ [turn] :=
      ⟨_, opened.relayTurn rfl rfl ⟨_, rfl⟩, by simp⟩
    by_cases completed : reply.status = "completed"
    · rw [if_pos completed]
      cases parsed : setting.readVerdict reply.finalResponse with
      | error =>
        refine ⟨news', relayed, ?_⟩
        rw [turns]
        exact forall_mem_append.mpr ⟨attempting.completed, forall_mem_singleton.mpr completed⟩
      | ok verdict => exact finishAttempt_spec attempting relayed turns attempt completed rfl verdict
    · rw [if_neg completed]
      exact interruptAttempt_spec attempting relayed turns attempt completed

end Attempt

variable {state : VerifyState} {phase : VerifyPhase} {execution : Execution} {count : Nat}
  {news : List Interaction}

/-- All attempts of a verify phase that did not leave its loop. -/
theorem attempting_of_passes {attempts : List Nat}
    (passes : Passes (setting.verifyAttempt phase) { run } attempts state) :
    ∃ news, Attempting setting phase run state news attempts.length := by
  refine passes.invariant (fun attempts state =>
    ∃ news, Attempting setting phase run state news attempts.length) ?_ ?_
  · exact ⟨[], ⟨.refl, rfl, rfl⟩, by simp, rfl, rfl⟩
  · rintro _ attempt _ _ ⟨_, attempting⟩ went
    have spec := verifyAttempt_spec attempting attempt
    rw [went] at spec
    rw [length_append]
    exact spec

/-- The execution that a verify phase appends after its loop. -/
theorem Attempts.reports {setting : Setting} {run : PhaseRun}
    (attempts : Attempts setting phase run state news count)
    (least : 1 ≤ count) (most : count ≤ 1 + phase.maxRepairs)
    (phaseId : execution.phaseId = phase.id) (kind : execution.kind = .verify)
    (ownIds : execution.turnIds = state.turnIds) : Reports (.verify phase) news execution where
  phaseId := phaseId
  kind := kind
  ownTurns := ownIds.trans attempts.ownTurns
  turnCount := by
    rw [ownIds, attempts.counted]
    exact ⟨least, most⟩

/-- A verify phase none of whose turns was interrupted lets the run go on. -/
theorem Attempting.next {setting : Setting} {run : PhaseRun}
    (attempting : Attempting setting phase run state news count)
    (reports : Reports (.verify phase) news execution) (undecided : execution.decision = none) :
    Traced setting (.verify phase) run (state.run.close execution state.stopped) := by
  rw [attempting.running]
  refine attempting.trace.next reports ?_ attempting.completion
  exact ⟨attempting.completed, Execution.not_declined undecided, nofun⟩

/-- A verify phase takes turns until one passes, is interrupted or is the last. -/
theorem executeVerify_spec (phase : VerifyPhase) :
    Traced setting (.verify phase) run (setting.executeVerify run phase) := by
  unfold executeVerify
  extract_lets context
  obtain ⟨done, rest, _, split, passes, last⟩ :=
    loop_cases (setting.verifyAttempt phase) (range (1 + phase.maxRepairs)) { run }
  have total : done.length + rest.length = 1 + phase.maxRepairs := by
    rw [← length_append, ← split, length_range]
  obtain ⟨_, attempting⟩ := attempting_of_passes setting run passes
  generalize loop (setting.verifyAttempt phase) (range (1 + phase.maxRepairs)) { run } = ending at last
  cases last with
  | exhausted =>
    have count : done.length = 1 + phase.maxRepairs := total
    exact attempting.next (attempting.reports (by omega) (by omega) rfl rfl rfl) rfl
  | @stopped attempt _ _ left =>
    have spec := verifyAttempt_spec attempting attempt
    rw [left] at spec
    rw [length_cons] at total
    obtain ⟨_, attempting' | broken⟩ := spec
    · exact attempting'.next (attempting'.reports (by omega) (by omega) rfl rfl rfl) rfl
    · dsimp only
      rw [broken.stopped]
      refine broken.trace.stop (broken.reports (by omega) (by omega) rfl rfl rfl) ?_
      rw [broken.completion]
      exact .interrupted broken.interrupted broken.status nofun
  | @raised attempt _ error _ failed =>
    have spec := verifyAttempt_spec attempting attempt
    rw [failed] at spec
    obtain ⟨_, trace, completed⟩ := spec
    exact trace.raised error completed

/-- What a pass of the loop does, whatever the kind of its phase. -/
theorem executePhase_traced (phase : Phase) : Traced setting phase run (setting.executePhase run phase) := by
  cases phase with
  | checkpoint phase => exact executeCheckpoint_spec setting run phase
  | work phase => exact executeWork_spec setting run phase
  | command phase => exact executeCommand_spec setting run phase
  | verify phase => exact executeVerify_spec setting run phase

theorem executePhase_spec (phase : Phase) : PhaseSpec phase run (setting.executePhase run phase) :=
  (executePhase_traced setting run phase).1

end WeaveCodex.ControlPlane
