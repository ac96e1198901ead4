/-
Purpose: The execution of a phase program: one pass per phase over a run state,
  against an arbitrary gateway and an arbitrary human.
Trusted boundary: translation of `execute_phase_program` in `weave_codex/phase_runtime.py`
-/
import WeaveCodex.ControlPlane.PhasePrompts
import WeaveCodex.Library.EarlyExit

namespace WeaveCodex.ControlPlane

open Library
open Library.EarlyExit

/-! ### The outside of a run -/

inductive OutputSchema where
  | commandResult | verifier
deriving DecidableEq, Repr

/-- The arguments of `gateway.run_turn`. -/
structure TurnRequest where
  threadId : String
  prompt : String
  effort : ReasoningEffort
  outputSchema : Option OutputSchema
deriving DecidableEq, Repr

/-- An event the receipt can count: the item of a completed item is a dictionary,
and its type can be a counter key. -/
def Event.Countable (event : Event) : Prop :=
  event.hasMethod "item/completed" = true →
    ((Fields.get event "params").getD (.dict [])).asDict.isSome ∧
    ((Fields.get event.params "item").getD (.dict [])).asDict.isSome ∧
    ((Fields.get event.item "type").getD (.text "unknown")).Hashable

/-- What one call of `run_turn` passes to its event sink and returns.  The app-server
adapter reads the item of every completed item as a dictionary before it goes on, so
the events of a turn that returns are countable. -/
structure TurnReply where
  turnId : String
  finalResponse : String
  status : String
  usage : Option Json
  events : List Event
  countable : ∀ event ∈ events, event.Countable

inductive Decision where
  | accept | acceptForSession | decline | cancel
deriving DecidableEq, Repr

def Decision.text : Decision → String
  | .accept => "accept"
  | .acceptForSession => "acceptForSession"
  | .decline => "decline"
  | .cancel => "cancel"

/-- `decision in {"accept", "acceptForSession"}`. -/
def Decision.accepts : Decision → Bool
  | .accept | .acceptForSession => true
  | .decline | .cancel => false

/-- The answer to a checkpoint; an absent feedback is the empty text. -/
structure Resolution where
  decision : Decision
  feedback : String := ""
deriving DecidableEq, Repr

/-- One turn of a run: what was sent and what came back, with the phase that ran it,
the label of its events, and the human feedback that its prompt was given.  Command
prompts are given none. -/
structure Turn where
  phase : Phase
  label : String
  carried : Option String
  request : TurnRequest
  reply : TurnReply

/-- One exchange of a run with the outside. -/
inductive Interaction where
  | stage (label title detail : String)
  | turn (turn : Turn)
  | checkpoint (phase : CheckpointPhase) (resolution : Resolution)

/-- A gateway and a human.  Either may react to everything that happened so far. -/
structure Environment where
  runTurn : List Interaction → TurnRequest → Except String TurnReply
  requestCheckpoint : List Interaction → CheckpointPhase → Resolution

/-! ### The run state -/

inductive CompletionStatus where
  | completed | stopped | stoppedAtCheckpoint | failedCheck
deriving DecidableEq, Repr

structure PhaseIo where
  input : String
  context : PhaseContext
  output : String
deriving DecidableEq, Repr

/-- The fields that only command executions have. -/
structure CommandDetail where
  stepType : StepType
  command : String
  expectedExitCode : Int
  observedExitCode : Option Int
  observedOutput : Option String
  matchingCommandItems : Nat
  summary : Json
  evidence : String

/-- One entry of `result.executions`; the keys that some kinds lack are optional.
The status of a verify execution is whatever verdict the verifier reported. -/
structure Execution where
  phaseId : String
  name : String
  kind : PhaseKind
  turnIds : List String
  status : Option Json
  io : PhaseIo
  decision : Option Decision := none
  feedback : Option String := none
  scope : Option WorkScope := none
  command : Option CommandDetail := none
  issues : Option Json := none

structure CheckpointRecord where
  phaseId : String
  decision : Decision
  feedback : Option String
deriving DecidableEq, Repr

structure VerificationRecord where
  phaseId : String
  attempt : Nat
  status : Json
  issues : Json

structure PhaseRunResult where
  answer : Json := .text ""
  turnIds : List String := []
  usageByTurn : List (String × Json) := []
  verification : List VerificationRecord := []
  executions : List Execution := []
  checkpoints : List CheckpointRecord := []
  completionStatus : CompletionStatus := .completed

/-- The local variables of `execute_phase_program`, with the record of everything
exchanged so far. -/
structure PhaseRun where
  result : PhaseRunResult := {}
  workCount : Nat := 0
  pendingHumanFeedback : String := ""
  log : List Interaction := []

namespace PhaseRun

/-- `session.stage`. -/
def stage (run : PhaseRun) (label title detail : String) : PhaseRun :=
  { run with log := run.log ++ [.stage label title detail] }

variable (run : PhaseRun)

/-- The turn happened and `_record_turn` noted it. -/
def recordTurn (turn : Turn) : PhaseRun :=
  { run with
    result :=
      { run.result with
        turnIds := run.result.turnIds ++ [turn.reply.turnId]
        usageByTurn :=
          match turn.reply.usage with
          | some usage => Dict.set run.result.usageByTurn turn.reply.turnId usage
          | none => run.result.usageByTurn }
    log := run.log ++ [.turn turn] }

def setAnswer (answer : Json) : PhaseRun :=
  { run with result := { run.result with answer } }

def setCompletion (completionStatus : CompletionStatus) : PhaseRun :=
  { run with result := { run.result with completionStatus } }

def setPendingFeedback (feedback : String) : PhaseRun :=
  { run with pendingHumanFeedback := feedback }

def countWork : PhaseRun :=
  { run with workCount := run.workCount + 1 }

def addVerification (record : VerificationRecord) : PhaseRun :=
  { run with
    result := { run.result with verification := run.result.verification ++ [record] } }

/-- The checkpoint was answered and noted. -/
def recordCheckpoint (phase : CheckpointPhase) (resolution : Resolution)
    (record : CheckpointRecord) : PhaseRun :=
  { run with
    result := { run.result with checkpoints := run.result.checkpoints ++ [record] }
    log := run.log ++ [.checkpoint phase resolution] }

/-- `result.executions.append(...)` and the test of `stop_after_execution`. -/
def close (execution : Execution) (stopAfterExecution : Bool) : Flow PhaseRun :=
  let run :=
    { run with
      result := { run.result with executions := run.result.executions ++ [execution] } }
  if stopAfterExecution then .stop run else .next run

end PhaseRun

/-! ### One phase -/

/-- The arguments of `execute_phase_program`, with the Python library beneath it. -/
structure Setting where
  python : PythonText
  env : Environment
  manifest : HarnessManifest
  threadId : String
  selectedExcerpts : List String

/-- The variables of a verify phase between two attempts. -/
structure VerifyState where
  run : PhaseRun
  turnIds : List String := []
  status : Option Json := none
  issues : Option Json := none
  output : String := ""
  stopped : Bool := false

/-- What the verifier reported: its verdict, its issues and the repaired answer. -/
structure Verdict where
  status : Json
  issues : Json
  answer : Json

namespace Setting

variable (setting : Setting) (run : PhaseRun) (phase : CommandPhase)

/-- The context of a phase, taken before the phase does anything. -/
def context : PhaseContext :=
  phaseContext setting.python setting.manifest run.result.answer run.pendingHumanFeedback

/-- A checkpoint phase: no model call, and the run goes on only if the human accepts. -/
def executeCheckpoint (phase : CheckpointPhase) : Flow PhaseRun :=
  let context := setting.context run
  let run := run.stage phase.id phase.name phase.question
  let resolution := setting.env.requestCheckpoint run.log phase
  let feedback := if resolution.feedback = "" then none else some resolution.feedback
  let run := run.recordCheckpoint phase resolution
    { phaseId := phase.id, decision := resolution.decision, feedback }
  let execution : Execution :=
    { phaseId := phase.id
      name := phase.name
      kind := .checkpoint
      turnIds := []
      decision := some resolution.decision
      status := some (.text (if resolution.decision.accepts then "pass" else "stopped"))
      io :=
        { input := receiptText phase.question
          context
          output := receiptText (feedback.getD resolution.decision.text) }
      feedback }
  if resolution.decision.accepts then
    (run.setPendingFeedback resolution.feedback).close execution false
  else
    (run.setCompletion .stoppedAtCheckpoint).close execution true

def workEffort (phase : WorkPhase) : ReasoningEffort :=
  phase.reasoningEffort.getD setting.manifest.agent.reasoningEffort

/-- What follows the turn of a work phase: its response becomes the answer of the
run, and an interrupted turn ends the run. -/
def finishWork (context : PhaseContext) (phase : WorkPhase) (reply : TurnReply) : Flow PhaseRun :=
  let run := (run.setPendingFeedback "").setAnswer (.text reply.finalResponse)
  let completed := reply.status == "completed"
  let run := if completed then run else run.setCompletion .stopped
  let run := run.stage phase.id
    (phase.name ++ (if completed then " finished" else " stopped")) ("Turn " ++ reply.turnId)
  run.close
    { phaseId := phase.id
      name := phase.name
      kind := .work
      turnIds := [reply.turnId]
      scope := some phase.scope
      status := some (.text (if completed then "pass" else "stopped"))
      io :=
        { input := receiptText phase.goal
          context
          output := receiptText reply.finalResponse } }
    !completed

/-- A work phase: one turn. -/
def executeWork (phase : WorkPhase) : Flow PhaseRun :=
  let context := setting.context run
  let run := run.countWork.stage phase.id (phase.name ++ " started")
    "Codex may perform many internal model and tool iterations in this phase."
  let request : TurnRequest :=
    { threadId := setting.threadId
      prompt := workPrompt setting.manifest phase setting.selectedExcerpts
        (run.workCount == 1) run.pendingHumanFeedback
      effort := setting.workEffort phase
      outputSchema := none }
  match setting.env.runTurn run.log request with
  | .error error => .raised error run
  | .ok reply =>
    let turn : Turn :=
      { phase := .work phase
        label := phase.id
        carried := some run.pendingHumanFeedback
        request
        reply }
    finishWork (run.recordTurn turn) context phase reply

/-- The record of a check whose turn was interrupted. -/
def interruptedCheck : CommandDetail :=
  { stepType := phase.stepType
    command := phase.command
    expectedExitCode := phase.expectedExitCode
    observedExitCode := none
    observedOutput := none
    matchingCommandItems := 0
    summary := .text "The run was stopped before this check completed."
    evidence := "No passing result is claimed for an interrupted check." }

/-- The report names the requested command and the expected exit code.  The exit
code is only looked up once the command agrees. -/
def reportAgrees (reported : Json) : Except String Bool := do
  let executed ← reported.subscript "executedCommand"
  match executed.asText with
  | none => throw "AttributeError: value has no attribute 'split'"
  | some executed =>
    if normalizeCommand executed = normalizeCommand phase.command then
      let exitCode ← reported.subscript "exitCode"
      pure (exitCode.equalsInt phase.expectedExitCode)
    else
      pure false

/-- The record of a check whose turn completed, and whether it passed. -/
def completedCheck (reply : TurnReply) : Except String (CommandDetail × Bool) := do
  let reported ← setting.python.loads reply.finalResponse
  let observed := observedCommandResult reply.events phase.command phase.expectedExitCode
  let agrees ← reportAgrees phase reported
  let summary ← reported.subscript "summary"
  pure
    ({ stepType := phase.stepType
       command := phase.command
       expectedExitCode := phase.expectedExitCode
       observedExitCode := observed.observedExitCode
       observedOutput := some observed.observedOutput
       matchingCommandItems := observed.matchingCommandItems
       summary
       evidence := observed.evidence },
      observed.passed && agrees)

/-- The output text of a check. -/
def checkOutput (detail : CommandDetail) : String :=
  match detail.observedOutput with
  | none => "The command step was interrupted before a result was observed."
  | some output =>
    receiptText (if output = "" then setting.python.str detail.summary ++ "\n" ++ detail.evidence
        else output)

/-- What follows the turn of a command phase.  A check that did not pass overrides
the completion status if the phase stops on failure. -/
def finishCommand (context : PhaseContext) (phase : CommandPhase)
    (turnId : String) (detail : CommandDetail) (interrupted passed : Bool) : Flow PhaseRun :=
  let run := if interrupted then run.setCompletion .stopped else run
  let run := run.stage phase.id
    (phase.name ++ (if passed then " passed" else if interrupted then " stopped" else " failed"))
    detail.evidence
  let failsRun := !passed && phase.stopOnFailure
  let run := if failsRun then run.setCompletion .failedCheck else run
  run.close
    { phaseId := phase.id
      name := phase.name
      kind := .command
      turnIds := [turnId]
      status := some (.text
        (if interrupted then "stopped" else if passed then "pass" else "fail"))
      command := some detail
      io :=
        { input := receiptText phase.command
          context
          output := setting.checkOutput detail } }
    (interrupted || failsRun)

/-- The run in which the turn of a command phase starts. -/
def startCommand : PhaseRun :=
  run.stage phase.id (phase.name ++ " started")
    ("Codex must run one exact " ++ phase.stepType.text ++ " command.")

def commandRequest : TurnRequest :=
  { threadId := setting.threadId
    prompt := commandPrompt setting.manifest phase
    effort := .low
    outputSchema := some .commandResult }

/-- A command phase: one turn, judged by the command the app-server observed. -/
def executeCommand : Flow PhaseRun :=
  let context := setting.context run
  let started := startCommand run phase
  let request := setting.commandRequest phase
  match setting.env.runTurn started.log request with
  | .error error => .raised error started
  | .ok reply =>
    let turn : Turn :=
      { phase := .command phase
        label := phase.id
        carried := none
        request
        reply }
    let run := started.recordTurn turn
    if reply.status = "completed" then
      match setting.completedCheck phase reply with
      | .error error => .raised error run
      | .ok (detail, passed) =>
        setting.finishCommand run context phase reply.turnId detail false passed
    else
      setting.finishCommand run context phase reply.turnId (interruptedCheck phase) true false

/-- `parsed["status"]`, `parsed["issues"]` and `parsed["answer"]`. -/
def readVerdict (response : String) : Except String Verdict := do
  let parsed ← setting.python.loads response
  let status ← parsed.subscript "status"
  let issues ← parsed.subscript "issues"
  let answer ← parsed.subscript "answer"
  pure { status, issues, answer }

def attemptLabel (phase : VerifyPhase) (attempt : Nat) : String :=
  if attempt = 0 then phase.id else phase.id ++ "-repair-" ++ toString attempt

def attemptTitle (phase : VerifyPhase) (attempt : Nat) (outcome : String) : String :=
  phase.name ++ ": " ++ (if attempt = 0 then "verification" else "repair verification") ++ outcome

/-- What follows a completed verifier turn.  The loop ends early on a `pass`. -/
def finishAttempt (phase : VerifyPhase) (attempt : Nat) (turnIds : List String)
    (verdict : Verdict) : Flow VerifyState :=
  let run := run.addVerification
    { phaseId := phase.id
      attempt := attempt + 1
      status := verdict.status
      issues := verdict.issues }
  let run := (run.setAnswer verdict.answer).stage (attemptLabel phase attempt)
    (attemptTitle phase attempt " finished") ("Verdict: " ++ setting.python.str verdict.status)
  let state : VerifyState :=
    { run
      turnIds
      status := some verdict.status
      issues := some verdict.issues
      output := receiptValue setting.python verdict.answer }
  if verdict.status.equalsText "pass" then .stop state else .next state

/-- What follows an interrupted verifier turn. -/
def interruptAttempt (state : VerifyState) (run : PhaseRun) (phase : VerifyPhase) (attempt : Nat)
    (reply : TurnReply) : VerifyState :=
  { state with
    run := (run.setCompletion .stopped).stage (attemptLabel phase attempt)
      (attemptTitle phase attempt " stopped") ("Turn " ++ reply.turnId)
    turnIds := state.turnIds ++ [reply.turnId]
    status := some (.text "stopped")
    output := receiptText reply.finalResponse
    stopped := true }

/-- One verifier attempt. -/
def verifyAttempt (phase : VerifyPhase) (state : VerifyState) (attempt : Nat) : Flow VerifyState :=
  let run := state.run.stage (attemptLabel phase attempt) (attemptTitle phase attempt " started")
    phase.criteria
  let request : TurnRequest :=
    { threadId := setting.threadId
      prompt := verifyPrompt setting.python phase run.result.answer run.pendingHumanFeedback
      effort := setting.manifest.agent.reasoningEffort
      outputSchema := some .verifier }
  match setting.env.runTurn run.log request with
  | .error error => .raised error { state with run }
  | .ok reply =>
    let turn : Turn :=
      { phase := .verify phase
        label := attemptLabel phase attempt
        carried := some run.pendingHumanFeedback
        request
        reply }
    let run := (run.recordTurn turn).setPendingFeedback ""
    if reply.status = "completed" then
      match setting.readVerdict reply.finalResponse with
      | .error error => .raised error { state with run }
      | .ok verdict =>
        setting.finishAttempt run phase attempt (state.turnIds ++ [reply.turnId]) verdict
    else
      .stop (interruptAttempt state run phase attempt reply)

/-- A verify phase: one attempt and up to `max_repairs` repair attempts. -/
def executeVerify (phase : VerifyPhase) : Flow PhaseRun :=
  let context := setting.context run
  match loop (setting.verifyAttempt phase) (List.range (1 + phase.maxRepairs)) { run } with
  | .raised error state => .raised error state.run
  | .returned state =>
    state.run.close
      { phaseId := phase.id
        name := phase.name
        kind := .verify
        turnIds := state.turnIds
        status := state.status
        issues := state.issues
        io :=
          { input := receiptText phase.criteria
            context
            output := state.output } }
      state.stopped

/-! ### The whole program -/

/-- The body of the loop over the ordered phases. -/
def executePhase : Phase → Flow PhaseRun
  | .checkpoint phase => setting.executeCheckpoint run phase
  | .work phase => setting.executeWork run phase
  | .command phase => setting.executeCommand run phase
  | .verify phase => setting.executeVerify run phase

/-- `execute_phase_program`. -/
def executePhaseProgram : Ending PhaseRun :=
  match setting.manifest.phaseProgram with
  | none => .raised "phase program is required" {}
  | some program =>
    match orderedPhases program with
    | .error error => .raised error {}
    | .ok ordered => loop setting.executePhase ordered {}

end Setting

end WeaveCodex.ControlPlane
