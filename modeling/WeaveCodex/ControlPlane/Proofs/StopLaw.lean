/-
Purpose: When a session reports an interrupted turn as a stopped run.
-/
import WeaveCodex.ControlPlane.HarnessRunner
import WeaveCodex.ControlPlane.Proofs.PhaseRuns

namespace WeaveCodex.ControlPlane

open Library
open Library.EarlyExit Fields List

/-! ### The receipt of a returned run

The receipt counts the completed items by type.  Events that the app-server adapter
lets through can be counted, also after the session has shortened them. -/

variable {value : Event} {execution : Execution} {news : List Interaction} {before run : PhaseRun}
  {phase : Phase} {done : List Phase}

theorem get_sessionEvent {python : PythonText} {label key : String} (notPhase : key ≠ "phase")
    (short : ¬ 16000 < python.encodedLength (value ++ [("phase", .text label)])) :
    get (sessionEvent python label value) key = get value key := by
  rw [sessionEvent, if_neg short]
  exact Dict.ofEntries_concat_of_ne _ (Ne.symm notPhase)

variable (python : PythonText)

theorem countable_sessionEvent (label : String) (countable : value.Countable) :
    (sessionEvent python label value).Countable := by
  by_cases long : 16000 < python.encodedLength (value ++ [("phase", .text label)])
  · intro _
    have stub : get (sessionEvent python label value) "params" = none := by
      rw [sessionEvent, if_pos long]
      rfl
    unfold Event.item Event.params
    rw [stub]
    exact ⟨rfl, rfl, trivial⟩
  · have params : (sessionEvent python label value).params = value.params := by
      unfold Event.params
      rw [get_sessionEvent (by decide) long]
    unfold Event.Countable Event.hasMethod Event.item
    rw [params, get_sessionEvent (by decide) long, get_sessionEvent (by decide) long]
    exact countable

/-- An entry that is absent or a dictionary reads the same with and without a default. -/
theorem asDict_getD {entry : Option Json} (isDict : (entry.getD (.dict [])).asDict.isSome) :
    (entry.getD (.dict [])).asDict = some ((entry.bind Json.asDict).getD []) := by
  cases entry with
  | none => rfl
  | some value =>
    obtain ⟨fields, known⟩ := Option.isSome_iff_exists.mp isDict
    have known : value.asDict = some fields := known
    simp [known]

theorem completedItemType_ok {event : Event} (countable : event.Countable)
    (completed : event.hasMethod "item/completed" = true) :
    completedItemType event = .ok ((get event.item "type").getD (.text "unknown")) := by
  obtain ⟨paramsDict, itemDict, hashable⟩ := countable completed
  have params : ((get event "params").getD (.dict [])).asDict = some event.params :=
    asDict_getD paramsDict
  have item : ((get event.params "item").getD (.dict [])).asDict = some event.item :=
    asDict_getD itemDict
  unfold completedItemType
  rw [params]
  dsimp only
  rw [item]
  exact if_pos hashable

theorem completedItemTypes_ok {events : List Event} (countable : ∀ event ∈ events, event.Countable) :
    completedItemTypes events = .ok
      ((events.filter fun event => event.hasMethod "item/completed").map fun event =>
        (get event.item "type").getD (.text "unknown")) := by
  unfold completedItemTypes
  induction events with
  | nil => rfl
  | cons event _ ih =>
    rw [forall_mem_cons] at countable
    have counted := ih countable.2
    cases completed : event.hasMethod "item/completed" with
    | false =>
      rw [filter_cons_of_neg (by simp [completed])]
      exact counted
    | true =>
      rw [filter_cons_of_pos (by simp [completed]), mapM_cons, counted,
        completedItemType_ok countable.1 completed]
      rfl

theorem countable_sessionEvents (log : List Interaction) :
    ∀ event ∈ log.flatMap (Interaction.sessionEvents python), event.Countable := by
  intro event mem
  obtain ⟨exchange, -, own⟩ := mem_flatMap.mp mem
  cases exchange with
  | stage =>
    rw [mem_singleton.mp own]
    apply countable_sessionEvent
    exact nofun
  | turn turn =>
    obtain ⟨original, sent, rfl⟩ := mem_map.mp own
    exact countable_sessionEvent python turn.label (turn.reply.countable original sent)
  | checkpoint => cases own

/-- The status of a session whose run returned is its completion status. -/
theorem finishHarness_returned (run : PhaseRun) : finishHarness python (.returned run) =
    { status := if run.result.completionStatus = .stopped then .stopped else .completed
      result := some run.result
      log := run.log } := by
  have counted := completedItemTypes_ok (countable_sessionEvents python run.log)
  unfold finishHarness
  simp only [counted]

/-! ### The law -/

/-- An interrupted turn is the last turn of its session, its execution is the last one
and has status `stopped`, and the run and its session are stopped; and a session is
stopped only after an interrupted turn. -/
structure StopLaw (session : HarnessSession) : Prop where
  reported : ∀ before turn after, turnsOf session.log = before ++ turn :: after → ¬ turn.Completed →
      after = [] ∧ session.status = .stopped ∧
        ∃ result, session.result = some result ∧ result.completionStatus = .stopped ∧
          ∃ earlier last, result.executions = earlier ++ [last] ∧ last.HasStatus "stopped"
  onlyThen : session.status = .stopped → ∃ turn ∈ turnsOf session.log, ¬ turn.Completed

/-- No check that stops on failure was interrupted. -/
def NoInterruptedCheck (log : List Interaction) : Prop :=
  ∀ turn ∈ turnsOf log, ∀ command, turn.phase = .command command →
    command.stopOnFailure = true → turn.Completed

/-- Where every turn completed, the law says that the session is not stopped. -/
theorem stopLaw_iff_of_completed {session : HarnessSession}
    (completed : ∀ turn ∈ turnsOf session.log, turn.Completed)
    (notStopped : session.status ≠ .stopped) :
    StopLaw session ↔ NoInterruptedCheck session.log := by
  constructor
  · intro _ turn mem _ _ _
    exact completed turn mem
  · intro _
    constructor
    · intro before turn after split interrupted
      exact absurd (completed turn (by simp [split])) interrupted
    · intro stopped
      contradiction

/-- An interrupted turn after completed ones is the last one. -/
theorem interrupted_is_last {completed before after : List Turn} {last turn : Turn}
    (allCompleted : ∀ turn ∈ completed, turn.Completed) (interrupted : ¬ turn.Completed)
    (split : completed ++ [last] = before ++ turn :: after) : turn = last ∧ after = [] := by
  cases after using reverseRecOn with
  | nil =>
    obtain ⟨-, same⟩ := append_inj' split rfl
    exact ⟨(cons.inj same).1.symm, rfl⟩
  | append_singleton after final =>
    exfalso
    have resplit : completed ++ [last] = (before ++ turn :: after) ++ [final] := by
      rw [split]
      simp
    have same := (append_inj' resplit rfl).1
    exact interrupted (allCompleted turn (by simp [same]))

variable (unbroken : Unbroken done before) (recorded : Recorded phase before run news execution)

include unbroken recorded in
/-- The turns of a run that a phase interrupted: completed ones, then the interrupted
one, which that phase ran. -/
theorem turns_of_interrupted (broken : Interrupted news) :
    ∃ completed last, turnsOf run.log = completed ++ [last] ∧
      (∀ turn ∈ completed, turn.Completed) ∧ ¬ last.Completed ∧ last.phase = phase := by
  obtain ⟨earlier, last, turns, earlierCompleted, interrupted⟩ := broken
  refine ⟨turnsOf before.log ++ earlier, last, ?_, ?_, interrupted, ?_⟩
  · rw [recorded.log, turnsOf_append, turns, append_assoc]
  · exact forall_mem_append.mpr ⟨unbroken.completed, earlierCompleted⟩
  · exact turn_phase_of_owned recorded.owned last (by simp [turns])

include unbroken recorded in
/-- Where a phase left all turns completed, so did the run. -/
theorem completed_of_recorded (completed : ∀ turn ∈ turnsOf news, turn.Completed) :
    ∀ turn ∈ turnsOf run.log, turn.Completed := by
  rw [recorded.log, turnsOf_append]
  exact forall_mem_append.mpr ⟨unbroken.completed, completed⟩

include unbroken recorded in
/-- A run that ends in an interrupted phase obeys the law unless that phase is a check
that stops on failure. -/
theorem stopLaw_of_interrupted (broken : Interrupted news) (status : execution.HasStatus "stopped")
    (completion : run.result.completionStatus = .stopped) :
    StopLaw (finishHarness python (.returned run)) := by
  obtain ⟨_, last, turns, allCompleted, interrupted, -⟩ :=
    turns_of_interrupted unbroken recorded broken
  rw [finishHarness_returned, if_pos completion]
  constructor
  · intro earlier turn after split notCompleted
    rw [turns] at split
    obtain ⟨-, nothingAfter⟩ := interrupted_is_last allCompleted notCompleted split
    exact ⟨nothingAfter, rfl, run.result, rfl, completion, before.result.executions, execution,
      recorded.executions, status⟩
  · intro _
    exact ⟨last, by simp [turns], interrupted⟩

/-- A session that ends keeps the law exactly if no check that stops on failure was interrupted. -/
theorem finishHarness_stopLaw_iff {ordered : List Phase} {ending : Ending PhaseRun}
    (shape : RunShape ordered ending) :
    StopLaw (finishHarness python ending) ↔ NoInterruptedCheck (finishHarness python ending).log := by
  cases shape with
  | completed unbroken =>
    rw [finishHarness_returned, unbroken.completion]
    exact stopLaw_iff_of_completed unbroken.completed (by simp)
  | @halted _ _ _ _ run _ _ _ unbroken recorded halted =>
    generalize reached : run.result.completionStatus = status at halted
    cases halted with
    | interrupted broken stopped notChecked =>
      refine ⟨fun _ => ?_, fun _ =>
        stopLaw_of_interrupted python unbroken recorded broken stopped reached⟩
      obtain ⟨_, _, turns, allCompleted, -, own⟩ :=
        turns_of_interrupted unbroken recorded broken
      intro turn mem command ofCommand stops
      rw [finishHarness_returned, turns, mem_append, mem_singleton] at mem
      rcases mem with earlier | rfl
      · exact allCompleted turn earlier
      · rw [own] at ofCommand
        rw [notChecked command ofCommand] at stops
        cases stops
    | interruptedCheck command ofCommand stops broken =>
      obtain ⟨completed, last, turns, -, interrupted, own⟩ :=
        turns_of_interrupted unbroken recorded broken
      rw [finishHarness_returned]
      constructor
      · intro law
        have := (law.reported completed last [] turns interrupted).2.1
        simp [reached] at this
      · intro noInterrupted
        exact absurd (noInterrupted last (by simp [turns]) command (own.trans ofCommand) stops)
          interrupted
    | failedCheck _ _ _ completed =>
      rw [finishHarness_returned, reached]
      exact stopLaw_iff_of_completed (completed_of_recorded unbroken recorded completed) (by simp)
    | declined noTurns =>
      rw [finishHarness_returned, reached]
      refine stopLaw_iff_of_completed (completed_of_recorded unbroken recorded ?_) (by simp)
      simp [noTurns]
  | @raised _ _ _ _ run _ _ _ unbroken log completed =>
    refine stopLaw_iff_of_completed ?_ (by simp [finishHarness])
    show ∀ turn ∈ turnsOf run.log, turn.Completed
    rw [log, turnsOf_append]
    exact forall_mem_append.mpr ⟨unbroken.completed, completed⟩

/-- For every accepted program, every gateway and every human, the session of a run
reports interrupted turns as a stopped run exactly if no check that stops on failure
was interrupted. -/
theorem runHarness_stopLaw_iff (python : PythonText) (env : Environment)
    (manifest : HarnessManifest) (valid : ValidProgram)
    (prepared : Except String (String × List String))
    (carries : manifest.phaseProgram = some valid.program) :
    StopLaw (runHarness python env manifest prepared) ↔
      NoInterruptedCheck (runHarness python env manifest prepared).log := by
  cases prepared with
  | error =>
    refine stopLaw_iff_of_completed ?_ (by simp [runHarness])
    simp [runHarness]
  | ok ready =>
    exact finishHarness_stopLaw_iff python
      (executePhaseProgram_shape ⟨python, env, manifest, ready.1, ready.2⟩ valid carries)

/-- Build, then run one check; the check stops the run if it fails. -/
def checkedProgram : ValidProgram :=
  { program :=
      { phases :=
          [ .work { id := "build", name := "Build", goal := "Build the product." },
            .command { id := "test", name := "Test", command := "make test" } ] }
    wellFormed := by decide
    validated := by decide }

/-- The session of a run in which the work turn ends with `status`. -/
def buildSession (status : String) : HarnessSession :=
  runHarness reportPython
    (scriptedEnvironment [quietReply "turn-0" "built" status, quietReply "turn-1" "" "interrupted"]
      fun _ => "")
    (scriptedManifest checkedProgram.program) (.ok ("thread", []))

/-- An interrupted work phase is reported as a stopped run. -/
theorem interruptedWork_stopLaw :
    StopLaw (buildSession "interrupted") ∧ (buildSession "interrupted").status = .stopped := by
  refine ⟨(runHarness_stopLaw_iff reportPython _ _ checkedProgram _ rfl).mpr ?_, by decide⟩
  have kinds : (turnsOf (buildSession "interrupted").log).map (fun turn => turn.phase.kind) =
      [.work] := by decide
  intro turn member command ofCommand
  have kindIn : turn.phase.kind ∈
      (turnsOf (buildSession "interrupted").log).map (fun turn => turn.phase.kind) :=
    mem_map.mpr ⟨turn, member, rfl⟩
  rw [kinds, ofCommand] at kindIn
  cases mem_singleton.mp kindIn

/-- An interrupted check that stops on failure is reported as a failed check of a
completed session. -/
theorem interruptedCheck_breaks_stopLaw :
    (turnsOf (buildSession "completed").log).map (fun turn => turn.reply.status) =
        ["completed", "interrupted"] ∧
      (buildSession "completed").result.map PhaseRunResult.completionStatus = some .failedCheck ∧
      (buildSession "completed").status = .completed ∧
      ¬ StopLaw (buildSession "completed") := by
  refine ⟨by decide, by decide, by decide, ?_⟩
  intro law
  obtain ⟨-, stopped, -⟩ := law.reported [_] _ [] rfl (by decide)
  exact absurd stopped (by decide)

end WeaveCodex.ControlPlane
