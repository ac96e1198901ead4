/-
Purpose: Which programs never lose the feedback given at a checkpoint.  A second
  checkpoint before the next work or verify turn overwrites it.
-/
import WeaveCodex.ControlPlane.Proofs.FeedbackSlot

namespace WeaveCodex.ControlPlane

open Nat
open Library.EarlyExit
open Library.Log Interaction List

/-- No two checkpoints of the order have only commands between them and a work or verify
phase after them. -/
def NoFeedbackGap (ordered : List Phase) : Prop :=
  ∀ before first commands second after,
    ordered = before ++ .checkpoint first :: (commands ++ .checkpoint second :: after) →
    (∀ phase ∈ commands, phase.kind = .command) → ∀ phase ∈ after, ¬ phase.TakesFeedback

/-! ### Programs whose feedback is spaced

Feedback is replaced where a checkpoint is accepted while feedback waits, and a record in which
it is replaced before a work or verify turn has two checkpoints piled up in the order. -/

/-- Feedback was given, and no work or verify turn came since. -/
def FeedbackWaits : List Interaction → Prop :=
  Standing (fun _ exchange => exchange.given?.isSome) Interaction.TakesFeedback

/-- A checkpoint was accepted while feedback waited, and no work or verify turn came since. -/
def FeedbackReplaced : List Interaction → Prop :=
  Standing (fun before exchange => exchange.Accepted ∧ FeedbackWaits before)
    Interaction.TakesFeedback

/-- Only commands follow some checkpoint. -/
def CheckpointLast : List Phase → Prop :=
  Standing (fun _ phase => ∃ checkpoint, phase = .checkpoint checkpoint)
    fun phase => phase.kind ≠ .command

/-- Two checkpoints have only commands between them, and no work or verify phase follows. -/
def CheckpointsPiled : List Phase → Prop :=
  Standing
    (fun before phase => (∃ checkpoint, phase = .checkpoint checkpoint) ∧ CheckpointLast before)
    Phase.TakesFeedback

variable {done : List Phase}

/-- In a gap-free order no checkpoints have piled up before a work or verify phase. -/
theorem NoFeedbackGap.not_piled {later : List Phase} {phase : Phase}
    (noGap : NoFeedbackGap (done ++ phase :: later)) (takes : phase.TakesFeedback) :
    ¬ CheckpointsPiled done := by
  rintro ⟨_, _, after, rfl, ⟨⟨second, rfl⟩, before, _, commands, rfl, ⟨first, rfl⟩, all⟩, -⟩
  refine noGap before first commands second (after ++ phase :: later) (by simp) ?_ phase (by simp)
    takes
  exact fun phase mem => not_not.mp (all phase mem)

/-- Every work or verify turn of the record came when no feedback was replaced. -/
def TurnsSpaced (log : List Interaction) : Prop :=
  AtEach (fun before exchange => exchange.TakesFeedback → ¬ FeedbackReplaced before) log

section Piles

variable {log news : List Interaction} {exchange : Interaction}

theorem Interaction.accepted_of_given (gave : exchange.given?.isSome) : exchange.Accepted := by
  cases exchange with
  | stage | turn => cases gave
  | checkpoint =>
    simp only [given?] at gave
    split at gave
    · rename_i accepted
      exact accepted.1
    · cases gave

section

variable (noCheckpoint : ∀ exchange ∈ news, ¬ exchange.Accepted)
include noCheckpoint

theorem FeedbackWaits.of_append (waits : FeedbackWaits (log ++ news)) :
    FeedbackWaits log ∧ Undelivered news :=
  Standing.of_append waits fun exchange mem _ gave =>
    noCheckpoint exchange mem (accepted_of_given gave)

theorem FeedbackReplaced.of_append (replaced : FeedbackReplaced (log ++ news)) :
    FeedbackReplaced log ∧ Undelivered news :=
  Standing.of_append replaced fun exchange mem _ accepted => noCheckpoint exchange mem accepted.1

/-- A phase without checkpoints keeps the record spaced if its turns take no feedback or
none is replaced. -/
theorem TurnsSpaced.append (spaced : TurnsSpaced log)
    (fits : Undelivered news ∨ ¬ FeedbackReplaced log) : TurnsSpaced (log ++ news) := by
  refine AtEach.append spaced fun before exchange after split takes replaced => ?_
  subst split
  rcases fits with undelivered | unreplaced
  · exact undelivered exchange (by simp) takes
  · have earlier := (forall_mem_append.mp noCheckpoint).1
    exact unreplaced (FeedbackReplaced.of_append earlier replaced).1

end

/-- In a spaced record nothing is overwritten. -/
theorem TurnsSpaced.nothingOverwritten (spaced : TurnsSpaced log) : NothingOverwritten log := by
  intro before given between next rest turn after feedback split gave accepted
    undeliveredBefore undeliveredAfter _ takes
  have unreplaced := spaced (before ++ given :: between ++ next :: rest) (.turn turn) after
    (by simp [split]) takes
  have waits : FeedbackWaits (before ++ given :: between) :=
    ⟨before, given, between, rfl, by simp [gave], undeliveredBefore⟩
  exact absurd ⟨_, next, rest, rfl, ⟨accepted, waits⟩, undeliveredAfter⟩ unreplaced

end Piles

section Runs

variable {setting : Setting} {run : PhaseRun} {phase : Phase}

/-- The record has piled up no more than the phases done, and is spaced. -/
structure Piled (done : List Phase) (run : PhaseRun) : Prop where
  waits : FeedbackWaits run.log → CheckpointLast done
  replaced : FeedbackReplaced run.log → CheckpointsPiled done
  spaced : TurnsSpaced run.log

theorem Piled.initial : Piled [] {} :=
  ⟨(absurd · not_standing_nil), (absurd · not_standing_nil), .nil⟩

/-- However a phase ends, what it added to the record is its own. -/
theorem PhaseSpec.owned_news {flow : Flow PhaseRun} (spec : PhaseSpec phase run flow) :
    ∃ news, flow.state.log = run.log ++ news ∧ ∀ exchange ∈ news, exchange.OwnedBy phase := by
  cases flow with
  | next =>
    obtain ⟨news, _, recorded, -, -⟩ := spec
    exact ⟨news, recorded.log, recorded.owned⟩
  | stop =>
    obtain ⟨news, _, recorded, -⟩ := spec
    exact ⟨news, recorded.log, recorded.owned⟩
  | raised =>
    obtain ⟨news, log, owned, -⟩ := spec
    exact ⟨news, log, owned⟩

theorem executeCheckpoint_log (setting : Setting) (run : PhaseRun) (phase : CheckpointPhase) :
    ∃ resolution, (setting.executeCheckpoint run phase).state.log =
      run.log ++ [.stage phase.id phase.name phase.question] ++ [.checkpoint phase resolution] := by
  unfold Setting.executeCheckpoint
  extract_lets context staged resolution feedback answered execution
  refine ⟨resolution, ?_⟩
  cases resolution.decision.accepts with
  | true | false => rfl

variable {exchange : Interaction} {after : PhaseRun}

theorem Interaction.OwnedBy.not_accepted (own : exchange.OwnedBy phase)
    (noCheckpoint : ∀ checkpoint, phase ≠ .checkpoint checkpoint) : ¬ exchange.Accepted := by
  cases exchange with
  | stage | turn => exact id
  | checkpoint checkpoint => exact absurd own (noCheckpoint checkpoint)

theorem Interaction.OwnedBy.not_takesFeedback (own : exchange.OwnedBy phase)
    (takesNone : ¬ phase.TakesFeedback) :
    ¬ exchange.TakesFeedback := by
  cases exchange with
  | stage => exact id
  | turn turn =>
    have same : turn.phase = phase := own
    rw [Interaction.TakesFeedback, same]
    exact takesNone
  | checkpoint => exact id

/-- A phase keeps the record spaced if it takes no feedback or no checkpoints have piled up. -/
theorem Piled.executePhase_spaced (piled : Piled done run)
    (fits : phase.TakesFeedback → ¬ CheckpointsPiled done) :
    TurnsSpaced (setting.executePhase run phase).state.log := by
  by_cases isCheckpoint : ∃ checkpoint, phase = .checkpoint checkpoint
  · obtain ⟨checkpoint, rfl⟩ := isCheckpoint
    obtain ⟨_, log⟩ := executeCheckpoint_log setting run checkpoint
    show TurnsSpaced (setting.executeCheckpoint run checkpoint).state.log
    rw [log]
    apply (piled.spaced.concat (absurd · id)).concat
    exact (absurd · id)
  · obtain ⟨_, log, owned⟩ := (executePhase_spec setting run phase).owned_news
    rw [log]
    refine piled.spaced.append (fun exchange mem => ?_) ?_
    · exact (owned exchange mem).not_accepted (not_exists.mp isCheckpoint)
    · by_cases takes : phase.TakesFeedback
      · exact .inr fun replaced => fits takes (piled.replaced replaced)
      · exact .inl fun exchange mem => (owned exchange mem).not_takesFeedback takes

/-- A work or verify phase that goes on has taken a turn. -/
theorem Recorded.exists_takes {news : List Interaction} {execution : Execution}
    (recorded : Recorded phase run after news execution) (takes : phase.TakesFeedback) :
    ∃ exchange ∈ news, exchange.TakesFeedback := by
  have counted : 1 ≤ execution.turnIds.length := by
    have count := recorded.turnCount
    cases phase with
    | work => exact le_of_eq count.symm
    | verify => exact count.1
    | command | checkpoint => simp [Phase.TakesFeedback, Phase.kind] at takes
  rw [recorded.ownTurns, length_map] at counted
  obtain ⟨turn, mem⟩ := exists_mem_of_length_pos counted
  refine ⟨.turn turn, mem_turnsOf.mp mem, ?_⟩
  rw [Interaction.TakesFeedback, turn_phase_of_owned recorded.owned turn mem]
  exact takes

/-- A phase that goes on piles up no more in the record than in the order. -/
theorem Piled.next (piled : Piled done run) (went : setting.executePhase run phase = .next after)
    (fits : phase.TakesFeedback → ¬ CheckpointsPiled done) : Piled (done ++ [phase]) after := by
  have spec := executePhase_spec setting run phase
  have spaced : TurnsSpaced (setting.executePhase run phase).state.log :=
    piled.executePhase_spaced fits
  rw [went] at spec spaced
  obtain ⟨news, _, recorded, -, -⟩ := spec
  by_cases isCheckpoint : ∃ checkpoint, phase = .checkpoint checkpoint
  · refine ⟨fun _ => standing_concat_iff.mpr (.inl isCheckpoint), fun replaced => ?_, spaced⟩
    obtain ⟨checkpoint, rfl⟩ := isCheckpoint
    obtain ⟨_, log⟩ := executeCheckpoint_log setting run checkpoint
    rw [show setting.executeCheckpoint run checkpoint = .next after from went] at log
    rw [show after.log = _ from log, FeedbackReplaced, standing_concat_iff] at replaced
    refine standing_concat_iff.mpr ?_
    rcases replaced with ⟨-, waits⟩ | ⟨replaced, -⟩
    · exact .inl ⟨⟨_, rfl⟩, piled.waits (waits.of_append (forall_mem_singleton.mpr id)).1⟩
    · have earlier := (FeedbackReplaced.of_append (forall_mem_singleton.mpr id) replaced).1
      exact .inr ⟨piled.replaced earlier, by simp [Phase.TakesFeedback, Phase.kind]⟩
  · have unaccepted (exchange : Interaction) (mem : exchange ∈ news) : ¬ exchange.Accepted :=
      (recorded.owned exchange mem).not_accepted (not_exists.mp isCheckpoint)
    have untaken (undelivered : Undelivered news) : ¬ phase.TakesFeedback := by
      intro takes
      obtain ⟨exchange, mem, taken⟩ := recorded.exists_takes takes
      exact undelivered exchange mem taken
    constructor
    · intro waits
      obtain ⟨waits, undelivered⟩ := FeedbackWaits.of_append unaccepted (recorded.log ▸ waits)
      refine standing_concat_iff.mpr (.inr ⟨piled.waits waits, ?_⟩)
      have := untaken undelivered
      cases phase with
      | checkpoint checkpoint => exact absurd ⟨checkpoint, rfl⟩ isCheckpoint
      | command => simp [Phase.kind]
      | work | verify => simp [Phase.TakesFeedback, Phase.kind] at this
    · intro replaced
      obtain ⟨replaced, undelivered⟩ :=
        FeedbackReplaced.of_append unaccepted (recorded.log ▸ replaced)
      exact standing_concat_iff.mpr (.inr ⟨piled.replaced replaced, untaken undelivered⟩)
    · exact spaced

theorem piled_of_passes {later : List Phase}
    (passes : Passes setting.executePhase {} done run) (noGap : NoFeedbackGap (done ++ later)) :
    Piled done run := by
  induction passes generalizing later with
  | nil => exact Piled.initial
  | snoc _ went ih =>
    rw [append_assoc] at noGap
    exact (ih noGap).next went noGap.not_piled

end Runs

section

variable (setting : Setting) (valid : ValidProgram)
  (carries : setting.manifest.phaseProgram = some valid.program)
include carries

/-- In a gap-free order nothing is ever overwritten. -/
theorem nothingOverwritten_of_noFeedbackGap (noGap : NoFeedbackGap valid.ordered) :
    NothingOverwritten setting.executePhaseProgram.state.log := by
  apply TurnsSpaced.nothingOverwritten
  unfold Setting.executePhaseProgram
  simp only [carries, valid.orderedPhases_eq]
  obtain ⟨_, _, state, split, passes, last⟩ :=
    loop_cases setting.executePhase valid.ordered {}
  rw [split] at noGap
  have piled := piled_of_passes passes noGap
  generalize loop setting.executePhase valid.ordered {} = ending at last
  cases last with
  | exhausted => exact piled.spaced
  | @stopped phase _ _ left | @raised phase _ _ _ left =>
    have spaced : TurnsSpaced (setting.executePhase state phase).state.log :=
      piled.executePhase_spaced noGap.not_piled
    rw [left] at spaced
    exact spaced

/-- A run delivers all feedback if and only if it overwrites none, and overwriting takes
two checkpoints of the order with only commands between them and a work or verify phase
after them. -/
theorem checkpointFeedback_delivered :
    (FeedbackDelivered setting setting.executePhaseProgram.state.log ↔
      NothingOverwritten setting.executePhaseProgram.state.log) ∧
    (NoFeedbackGap valid.ordered →
      FeedbackDelivered setting setting.executePhaseProgram.state.log) := by
  have delivered_iff := (relays_executePhaseProgram setting).turns.delivered_iff
  refine ⟨delivered_iff, ?_⟩
  intro noGap
  apply delivered_iff.mpr
  exact nothingOverwritten_of_noFeedbackGap setting valid carries noGap

end

/-- Build, ask, ship, with an answer that has feedback. -/
def feedbackSetting : Setting :=
  { reviewSetting with
    env := scriptedEnvironment
      [quietReply "turn-0" "built" "completed", quietReply "turn-1" "shipped" "completed"]
      fun _ => "Use plain words." }

/-- One checkpoint alone leaves no gap. -/
theorem reviewProgram_noFeedbackGap : NoFeedbackGap reviewProgram.ordered := by
  intro before first commands second after split
  have count := congrArg (countP fun phase => decide (phase.kind = .checkpoint)) split
  have single : reviewProgram.ordered.countP (fun phase => decide (phase.kind = .checkpoint)) =
      1 := by decide
  rw [single] at count
  simp [countP_append, Phase.kind] at count
  omega

/-- The feedback comes with the prompt of the next turn, and with that one only. -/
theorem feedbackSetting_delivered :
    (turnsOf feedbackSetting.executePhaseProgram.state.log).map Turn.carried =
      [some "", some "Use plain words."] ∧
    FeedbackDelivered feedbackSetting feedbackSetting.executePhaseProgram.state.log := by
  refine ⟨by decide, ?_⟩
  have delivered := checkpointFeedback_delivered feedbackSetting reviewProgram rfl
  exact delivered.2 reviewProgram_noFeedbackGap

/-- Build, ask, check, ask again, ship. -/
def askedTwiceProgram : ValidProgram :=
  { program :=
      { phases :=
          [ .work { id := "build", name := "Build", goal := "Build the product." },
            .checkpoint { id := "first", name := "First", question := "Good?" },
            .command { id := "check", name := "Check", command := "make test",
                       stopOnFailure := false },
            .checkpoint { id := "second", name := "Second", question := "Ship it?" },
            .work { id := "ship", name := "Ship", goal := "Ship the product." } ] }
    wellFormed := by decide
    validated := by decide }

def askedTwiceSetting : Setting :=
  { python := reportPython
    env := scriptedEnvironment
      [quietReply "turn-0" "built" "completed", quietReply "turn-1" exitZeroReport "completed",
        quietReply "turn-2" "shipped" "completed"]
      fun phase => if phase.id = "first" then "Use plain words." else "Keep it short."
    manifest := scriptedManifest askedTwiceProgram.program
    threadId := "thread"
    selectedExcerpts := [] }

/-- The first feedback is lost when the second one comes before the next work turn. -/
theorem askedTwice_loses_feedback :
    (turnsOf askedTwiceSetting.executePhaseProgram.state.log).map Turn.carried =
      [some "", none, some "Keep it short."] ∧
    ¬ FeedbackDelivered askedTwiceSetting askedTwiceSetting.executePhaseProgram.state.log := by
  refine ⟨by decide, ?_⟩
  intro delivered
  obtain ⟨carried, -⟩ := delivered.delivered [_, _, _, _] _ [_, _, _, _, _, _] _ [_]
    "Use plain words." rfl rfl (by decide) (by decide)
  exact absurd carried (by decide)

end WeaveCodex.ControlPlane
