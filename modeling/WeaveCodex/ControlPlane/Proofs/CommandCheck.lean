/-
Purpose: When a command phase is recorded as passed.  The check also asks for an item
  status that the app-server gives only to exit code 0, so phases that expect another
  exit code cannot pass.
-/
import WeaveCodex.ControlPlane.Proofs.PhaseRuns
import WeaveCodex.Library.Fallible

namespace WeaveCodex.ControlPlane

open Except
open Library.EarlyExit Fields Setting List

/-- The app-server's status of a command item: `completed` for exit code 0 and `failed`
otherwise. -/
def conventionalStatus (item : Fields) : String :=
  if itemExitCode item = some 0 then "completed" else "failed"

variable (phase : CommandPhase) (events : List Event)

/-- Every completed command item carries its conventional status. -/
def FollowsConvention : Prop :=
  ∀ event ∈ events, isCompletedCommand event = true →
    itemHasStatus event.item (conventionalStatus event.item) = true

/-- Exactly one completed command item carries the requested command, and it has the
expected exit code. -/
def ExactlyObserved : Prop :=
  ∃ item, observedItems events phase.command = [item] ∧ itemExitCode item = some phase.expectedExitCode

/-- The completed turn ended with a structured report that names the requested command
and the expected exit code. -/
def ReportAgrees (python : PythonText) (phase : CommandPhase) (reply : TurnReply) : Prop :=
  reply.status = "completed" ∧ ∃ fields executed exitCode summary,
      python.loads reply.finalResponse = .ok (.dict fields) ∧
      Fields.get fields "executedCommand" = some (.text executed) ∧
      normalizeCommand executed = normalizeCommand phase.command ∧
      Fields.get fields "exitCode" = some exitCode ∧
      exitCode.equalsInt phase.expectedExitCode = true ∧
      Fields.get fields "summary" = some summary

/-- The phase appended an execution with status `pass`. -/
def RecordsPass (run : PhaseRun) (flow : Flow PhaseRun) : Prop :=
  ∃ run' execution, (flow = .next run' ∨ flow = .stop run') ∧
    run'.result.executions = run.result.executions ++ [execution] ∧ execution.HasStatus "pass"

/-! ### The verdict of the code -/

theorem observed_passed_iff :
    (observedCommandResult events phase.command phase.expectedExitCode).passed = true ↔
      ∃ item, observedItems events phase.command = [item] ∧
        itemExitCode item = some phase.expectedExitCode ∧
        itemHasStatus item "completed" = true := by
  unfold observedCommandResult
  generalize observedItems events phase.command = observed
  cases observed with
  | nil => simp
  | cons _ others =>
    cases others with
    | nil | cons => simp

theorem subscript_eq_ok_iff {value entry : Json} {key : String} : value.subscript key = .ok entry ↔
    ∃ fields, value = .dict fields ∧ get fields key = some entry := by
  unfold Json.subscript
  cases value with
  | dict fields =>
    cases found : get fields key with
    | none | some => simp [found]
  | _ => simp

theorem subscript_dict_eq_ok_iff {fields : Fields} {entry : Json} {key : String} :
    (Json.dict fields).subscript key = .ok entry ↔ get fields key = some entry := by
  rw [subscript_eq_ok_iff]
  constructor
  · rintro ⟨_, same, stored⟩
    rw [Json.dict.inj same]
    exact stored
  · intro stored
    exact ⟨fields, rfl, stored⟩

/-- A report agrees exactly if it names the command and the expected exit code. -/
theorem reportAgrees_eq_true_iff (reported : Json) :
    reportAgrees phase reported = .ok true ↔ ∃ fields executed exitCode, reported = .dict fields ∧
        get fields "executedCommand" = some (.text executed) ∧
        normalizeCommand executed = normalizeCommand phase.command ∧
        get fields "exitCode" = some exitCode ∧
        exitCode.equalsInt phase.expectedExitCode = true := by
  unfold reportAgrees
  constructor
  · intro agrees
    obtain ⟨executed, named, agrees⟩ := bind_eq_ok_iff.mp agrees
    obtain ⟨fields, rfl, stored⟩ := subscript_eq_ok_iff.mp named
    cases executed with
    | text executed =>
      dsimp only [Json.asText] at agrees
      split at agrees
      · rename_i same
        obtain ⟨exitCode, named, agrees⟩ := bind_eq_ok_iff.mp agrees
        have code := subscript_dict_eq_ok_iff.mp named
        exact ⟨fields, executed, exitCode, rfl, stored, same, code, ok.inj agrees⟩
      · cases agrees
    | _ => cases agrees
  · rintro ⟨_, _, _, rfl, stored, same, code, agrees⟩
    refine bind_eq_ok_iff.mpr ⟨_, subscript_dict_eq_ok_iff.mpr stored, ?_⟩
    dsimp only [Json.asText]
    rw [if_pos same]
    refine bind_eq_ok_iff.mpr ⟨_, subscript_dict_eq_ok_iff.mpr code, ?_⟩
    rw [agrees]
    rfl

variable (setting : Setting)

/-- A check of a completed turn passes if the command was observed with the expected
exit code and status `completed`, and the report agrees. -/
theorem completedCheck_passes_iff (phase : CommandPhase) (reply : TurnReply)
    (completed : reply.status = "completed") :
    (∃ detail, setting.completedCheck phase reply = .ok (detail, true)) ↔
      (∃ item, observedItems reply.events phase.command = [item] ∧
        itemExitCode item = some phase.expectedExitCode ∧
        itemHasStatus item "completed" = true) ∧
      ReportAgrees setting.python phase reply := by
  rw [← observed_passed_iff]
  unfold completedCheck
  constructor
  · rintro ⟨_, passes⟩
    obtain ⟨_, loaded, passes⟩ := bind_eq_ok_iff.mp passes
    obtain ⟨_, judged, passes⟩ := bind_eq_ok_iff.mp passes
    obtain ⟨summary, summarised, passes⟩ := bind_eq_ok_iff.mp passes
    have verdict := congrArg Prod.snd (ok.inj passes)
    rw [Bool.and_eq_true] at verdict
    rw [verdict.2, reportAgrees_eq_true_iff] at judged
    obtain ⟨fields, executed, exitCode, rfl, stored, same, code, equal⟩ := judged
    exact ⟨verdict.1, completed, fields, executed, exitCode, summary, loaded, stored, same, code,
      equal, subscript_dict_eq_ok_iff.mp summarised⟩
  · rintro ⟨observed, -, fields, executed, exitCode, summary, loaded, stored, same, code, equal,
      summarised⟩
    have judged : reportAgrees phase (.dict fields) = .ok true :=
      (reportAgrees_eq_true_iff phase _).mpr
        ⟨fields, executed, exitCode, rfl, stored, same, code, equal⟩
    have summaryRead := subscript_dict_eq_ok_iff.mpr summarised
    simp only [loaded, judged, summaryRead, observed, bind, Except.bind, pure, pure]
    exact ⟨_, rfl⟩

/-- Closing a phase records the status of its execution. -/
theorem recordsPass_close_iff {run middle : PhaseRun} {execution : Execution}
    {stopAfterExecution : Bool}
    (sameExecutions : middle.result.executions = run.result.executions) :
    RecordsPass run (middle.close execution stopAfterExecution) ↔ execution.HasStatus "pass" := by
  have closed : ∃ run', run'.result.executions = run.result.executions ++ [execution] ∧
      (middle.close execution stopAfterExecution = .next run' ∨
        middle.close execution stopAfterExecution = .stop run') := by
    rw [← sameExecutions]
    cases stopAfterExecution with
    | true => exact ⟨_, rfl, .inr rfl⟩
    | false => exact ⟨_, rfl, .inl rfl⟩
  obtain ⟨run', executions, flow⟩ := closed
  constructor
  · rintro ⟨other, _, otherFlow, otherExecutions, pass⟩
    have same : other = run' := by
      rcases flow with flow | flow <;> rcases otherFlow with otherFlow | otherFlow <;>
        rw [flow] at otherFlow <;> cases otherFlow <;> rfl
    rw [same, executions] at otherExecutions
    have sameExecution := append_cancel_left otherExecutions
    rw [(cons.inj sameExecution).1]
    exact pass
  · intro pass
    exact ⟨run', execution, flow, executions, pass⟩

/-- A command is recorded as passed if its turn was not interrupted and its check passed. -/
theorem recordsPass_finishCommand_iff {run taken : PhaseRun} (context : PhaseContext)
    (phase : CommandPhase) (turnId : String) (detail : CommandDetail) (interrupted passed : Bool)
    (sameExecutions : taken.result.executions = run.result.executions) :
    RecordsPass run (setting.finishCommand taken context phase turnId detail interrupted passed) ↔
      interrupted = false ∧ passed = true := by
  unfold finishCommand
  refine (recordsPass_close_iff ?_).trans ?_
  · rw [← sameExecutions]
    cases interrupted <;> cases passed <;> cases phase.stopOnFailure <;> rfl
  · cases interrupted <;> cases passed <;> simp [Execution.HasStatus]

/-- When a command phase is recorded as passed. -/
theorem recordsPass_iff (run : PhaseRun) (phase : CommandPhase) {reply : TurnReply}
    (answered : setting.env.runTurn (startCommand run phase).log
      (setting.commandRequest phase) = .ok reply) :
    RecordsPass run (setting.executeCommand run phase) ↔
      (∃ item, observedItems reply.events phase.command = [item] ∧
        itemExitCode item = some phase.expectedExitCode ∧
        itemHasStatus item "completed" = true) ∧
      ReportAgrees setting.python phase reply := by
  unfold executeCommand
  simp only [answered]
  by_cases completed : reply.status = "completed"
  · rw [if_pos completed, ← completedCheck_passes_iff setting phase reply completed]
    cases checked : setting.completedCheck phase reply with
    | error =>
      constructor
      · rintro ⟨_, _, flow | flow, -⟩
        · cases flow
        · cases flow
      · rintro ⟨_, never⟩
        cases never
    | ok judged =>
      obtain ⟨detail, passed⟩ := judged
      refine (recordsPass_finishCommand_iff setting _ phase reply.turnId detail false passed
        rfl).trans ?_
      cases passed <;> simp
  · rw [if_neg completed]
    refine (recordsPass_finishCommand_iff setting _ phase reply.turnId _ true false rfl).trans ?_
    constructor
    · rintro ⟨never, -⟩
      cases never
    · rintro ⟨-, completedTurn, -⟩
      contradiction

/-! ### The verdict and what was observed -/

variable (command : String) (exitCode : Int) (response : String)

/-- A completed command item with its conventional status. -/
def conventionalItem : Fields :=
  [("type", .text "commandExecution"), ("command", .text command), ("exitCode", .int exitCode),
    ("status", .text (if exitCode = 0 then "completed" else "failed"))]

/-- The turn of a command that ran once with this exit code and was reported so. -/
def conventionalReply : TurnReply :=
  { turnId := "turn"
    finalResponse := response
    status := "completed"
    usage := none
    events :=
      [[("method", .text "item/completed"),
        ("params", .dict [("item", .dict (conventionalItem command exitCode))])]]
    countable := by
      intro event mem _
      rw [mem_singleton.mp mem]
      exact ⟨rfl, rfl, trivial⟩ }

theorem observedItems_conventionalReply :
    observedItems (conventionalReply command exitCode response).events command =
      [conventionalItem command exitCode] := by
  have carries : carriesCommand command (conventionalItem command exitCode) = true := by
    show (_ == _ || _) = true
    simp
  show filter (carriesCommand command) [conventionalItem command exitCode] = _
  rw [filter_cons_of_pos carries]
  rfl

theorem conventionalReply_followsConvention :
    FollowsConvention (conventionalReply command exitCode response).events := by
  intro event mem _
  rw [mem_singleton.mp mem]
  have code : itemExitCode (conventionalItem command exitCode) = some exitCode := rfl
  have status : conventionalStatus (conventionalItem command exitCode) =
      if exitCode = 0 then "completed" else "failed" := by
    unfold conventionalStatus
    rw [code]
    simp
  show itemHasStatus (conventionalItem command exitCode)
    (conventionalStatus (conventionalItem command exitCode)) = true
  rw [status]
  exact beq_self_eq_true _

/-- In a conventional stream the observed item has the conventional status. -/
theorem itemHasStatus_of_observed {phase : CommandPhase} {events : List Event} {item : Fields}
    (convention : FollowsConvention events) (observed : observedItems events phase.command = [item]) :
    itemHasStatus item (conventionalStatus item) = true := by
  have mem : item ∈ observedItems events phase.command := by simp [observed]
  obtain ⟨listed, -⟩ := mem_filter.mp mem
  obtain ⟨event, sent, rfl⟩ := mem_map.mp listed
  obtain ⟨present, completed⟩ := mem_filter.mp sent
  exact convention event present completed

/-- A command phase is recorded as passed exactly if its command was observed once with
the expected exit code and reported so, for every conventional turn, if and only if the
phase expects exit code 0. -/
theorem recordsPass_correct_iff (python : PythonText) (phase : CommandPhase)
    (readable : ∃ text summary, python.loads text =
      .ok (commandReport phase.command phase.expectedExitCode summary)) :
    (∀ (setting : Setting) (run : PhaseRun) (reply : TurnReply), setting.python = python →
      setting.env.runTurn (Setting.startCommand run phase).log (setting.commandRequest phase) =
        .ok reply →
      FollowsConvention reply.events →
      (RecordsPass run (setting.executeCommand run phase) ↔
        ExactlyObserved phase reply.events ∧ ReportAgrees python phase reply)) ↔
      phase.expectedExitCode = 0 := by
  constructor
  · intro correct
    obtain ⟨text, summary, loaded⟩ := readable
    -- The command runs once, exits as expected, and is reported so.
    let reply := conventionalReply phase.command phase.expectedExitCode text
    let setting : Setting :=
      { python
        env :=
          { runTurn := fun _ _ => .ok reply
            requestCheckpoint := fun _ _ => { decision := .accept } }
        manifest := scriptedManifest reviewProgram.program
        threadId := "thread"
        selectedExcerpts := [] }
    have observed : observedItems reply.events phase.command = [_] :=
      observedItems_conventionalReply phase.command phase.expectedExitCode text
    have agrees : ReportAgrees python phase reply :=
      ⟨rfl, _, phase.command, .int phase.expectedExitCode, .text summary, loaded, rfl, rfl, rfl,
        beq_self_eq_true _, rfl⟩
    have pass : RecordsPass {} (setting.executeCommand {} phase) :=
      (correct setting {} reply rfl rfl
        (conventionalReply_followsConvention _ _ _)).mpr ⟨⟨_, observed, rfl⟩, agrees⟩
    obtain ⟨⟨_, sameItem, -, completed⟩, -⟩ := (recordsPass_iff setting {} phase rfl).mp pass
    rw [observed] at sameItem
    rw [← (cons.inj sameItem).1] at completed
    by_contra nonzero
    have status : itemHasStatus (conventionalItem phase.command phase.expectedExitCode)
        "completed" = ("failed" == "completed") := by
      show ((if phase.expectedExitCode = 0 then "completed" else "failed") == "completed") = _
      rw [if_neg nonzero]
    rw [status] at completed
    cases completed
  · intro zero setting run reply samePython answered convention
    rw [recordsPass_iff setting run phase answered, samePython]
    refine and_congr_left fun _ => ?_
    constructor
    · rintro ⟨item, observed, code, -⟩
      exact ⟨item, observed, code⟩
    · rintro ⟨item, observed, code⟩
      refine ⟨item, observed, code, ?_⟩
      have status := itemHasStatus_of_observed convention observed
      unfold conventionalStatus at status
      rw [if_pos (code.trans (congrArg some zero))] at status
      exact status

/-- A check that expects this exit code of `make test`. -/
def makeTest (expectedExitCode : Int) : CommandPhase :=
  { id := "test", name := "Test", command := "make test", expectedExitCode }

/-- A setting whose gateway answers with one conventional turn of `make test`. -/
def makeTestSetting : Setting :=
  { python := reportPython
    env := scriptedEnvironment [conventionalReply "make test" exitCode response] fun _ => ""
    manifest := scriptedManifest reviewProgram.program
    threadId := "thread"
    selectedExcerpts := [] }

/-- A phase that expects exit code 0 passes when the command exits with 0. -/
theorem makeTest_zero_recordsPass :
    RecordsPass {} ((makeTestSetting 0 exitZeroReport).executeCommand {} (makeTest 0)) := by
  refine ((recordsPass_correct_iff reportPython (makeTest 0)
    ⟨exitZeroReport, "ok", rfl⟩).mpr rfl (makeTestSetting 0 exitZeroReport) {}
      (conventionalReply "make test" 0 exitZeroReport) rfl rfl
      (conventionalReply_followsConvention _ _ _)).mpr ⟨?_, ?_⟩
  · exact ⟨_, observedItems_conventionalReply _ _ _, rfl⟩
  · exact ⟨rfl, _, "make test", .int 0, .text "ok", rfl, rfl, rfl, rfl, rfl, rfl⟩

/-- A phase that expects exit code 1 does not pass when the command exits with 1, is
observed once in a conventional stream, and is reported so. -/
theorem makeTest_one_not_recordsPass :
    FollowsConvention (conventionalReply "make test" 1 exitOneReport).events ∧
      ExactlyObserved (makeTest 1) (conventionalReply "make test" 1 exitOneReport).events ∧
      ReportAgrees reportPython (makeTest 1) (conventionalReply "make test" 1 exitOneReport) ∧
      ¬ RecordsPass {} ((makeTestSetting 1 exitOneReport).executeCommand {} (makeTest 1)) := by
  refine ⟨conventionalReply_followsConvention _ _ _, ⟨_, observedItems_conventionalReply _ _ _, rfl⟩,
    ⟨rfl, _, "make test", .int 1, .text "ok", rfl, rfl, rfl, rfl, rfl, rfl⟩, ?_⟩
  intro pass
  obtain ⟨⟨_, sameItem, -, completed⟩, -⟩ :=
    (recordsPass_iff (makeTestSetting 1 exitOneReport) {} (makeTest 1) rfl).mp pass
  rw [show (makeTest 1).command = "make test" from rfl, observedItems_conventionalReply] at sameItem
  rw [← (cons.inj sameItem).1] at completed
  cases completed

end WeaveCodex.ControlPlane
