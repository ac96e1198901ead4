/-
Purpose: The record of a run.  Its turns, the phase that each exchange belongs to, and the
  one slot in which the runtime keeps human feedback: every work or verify turn is given
  the slot of its time.  A phase adds to all of these step by step.
-/
import WeaveCodex.ControlPlane.PhaseRuntime
import WeaveCodex.Library.Log

namespace WeaveCodex.ControlPlane

open Option
open Library.Log Interaction Setting List

/-- The turn of an exchange, if it is one. -/
def Interaction.turn? : Interaction → Option Turn
  | .turn taken => some taken
  | .stage _ _ _ | .checkpoint _ _ => none

/-- The turns of a record, oldest first. -/
def turnsOf (log : List Interaction) : List Turn :=
  log.filterMap Interaction.turn?

@[simp] theorem turnsOf_nil : turnsOf [] = [] := rfl

@[simp] theorem turnsOf_append (log news : List Interaction) :
    turnsOf (log ++ news) = turnsOf log ++ turnsOf news :=
  filterMap_append

@[simp] theorem turnsOf_stage (label title detail : String) (log : List Interaction) :
    turnsOf (.stage label title detail :: log) = turnsOf log := rfl

@[simp] theorem turnsOf_turn (turn : Turn) (log : List Interaction) :
    turnsOf (.turn turn :: log) = turn :: turnsOf log := rfl

@[simp] theorem turnsOf_checkpoint (phase : CheckpointPhase) (resolution : Resolution)
    (log : List Interaction) :
    turnsOf (.checkpoint phase resolution :: log) = turnsOf log := rfl

theorem mem_turnsOf {turn : Turn} {log : List Interaction} :
    turn ∈ turnsOf log ↔ .turn turn ∈ log := by
  unfold turnsOf
  rw [mem_filterMap]
  constructor
  · rintro ⟨exchange, mem, same⟩
    cases exchange with
    | turn =>
      rw [← some.inj same]
      exact mem
    | stage | checkpoint => cases same
  · intro mem
    exact ⟨_, mem, rfl⟩

/-- The exchange belongs to this phase. -/
def Interaction.OwnedBy (phase : Phase) : Interaction → Prop
  | .stage _ _ _ => True
  | .turn taken => taken.phase = phase
  | .checkpoint own _ => phase = .checkpoint own

variable {phase : Phase}

theorem turn_phase_of_owned {news : List Interaction}
    (owned : ∀ exchange ∈ news, exchange.OwnedBy phase) :
    ∀ turn ∈ turnsOf news, turn.phase = phase :=
  fun _ mem => owned _ (mem_turnsOf.mp mem)

variable (setting : Setting) (log : List Interaction)

/-- The prompt of this turn is the prompt of its phase for this human feedback. -/
def PromptCarries (turn : Turn) (feedback : String) : Prop :=
  match turn.phase with
  | .work phase => ∃ firstWorkPhase, turn.request.prompt =
      workPrompt setting.manifest phase setting.selectedExcerpts firstWorkPhase feedback
  | .verify phase => ∃ answer, turn.request.prompt =
      verifyPrompt setting.python phase answer feedback
  | .command _ | .checkpoint _ => False

/-! ### The slot -/

/-- What `pending_human_feedback` becomes after an exchange. -/
def Interaction.slotAfter (slot : String) : Interaction → String
  | .stage _ _ _ => slot
  | .turn taken => if taken.carried.isSome then "" else slot
  | .checkpoint _ resolution => if resolution.decision.accepts then resolution.feedback else slot

/-- The slot after a whole record. -/
def slotOf : String :=
  log.foldl Interaction.slotAfter ""

theorem slotOf_concat (exchange : Interaction) :
    slotOf (log ++ [exchange]) = exchange.slotAfter (slotOf log) := by
  simp [slotOf]

/-- A turn was given the slot, unless it is the turn of a command. -/
def TurnRelays (slot : String) (turn : Turn) : Prop :=
  (turn.carried = none ∧ turn.phase.kind = .command) ∨
    (turn.carried = some slot ∧ PromptCarries setting turn slot)

/-- An exchange relays what stands in the slot, if it is a turn. -/
def Interaction.Relays (before : List Interaction) : Interaction → Prop
  | .turn taken => TurnRelays setting (slotOf before) taken
  | .stage _ _ _ | .checkpoint _ _ => True

/-- Every turn of the record was given the slot of its time. -/
def LogRelays : Prop :=
  AtEach (Interaction.Relays setting) log

/-- The run has kept its slot, and has always relayed it. -/
structure Relays (setting : Setting) (run : PhaseRun) : Prop where
  slot : run.pendingHumanFeedback = slotOf run.log
  turns : LogRelays setting run.log

variable {setting : Setting} {run middle other : PhaseRun} {news : List Interaction} {turn : Turn}

theorem Relays.initial : Relays setting {} :=
  ⟨rfl, .nil⟩

/-- Only the slot and the record matter. -/
theorem Relays.of_same (relays : Relays setting run) (log : other.log = run.log)
    (slot : other.pendingHumanFeedback = run.pendingHumanFeedback) : Relays setting other := by
  constructor
  · rw [slot, log]
    exact relays.slot
  · rw [log]
    exact relays.turns

/-- One more exchange, which is given the slot if it is a turn. -/
theorem Relays.concat {exchange : Interaction} (relays : Relays setting run)
    (log : other.log = run.log ++ [exchange])
    (slot : other.pendingHumanFeedback = exchange.slotAfter run.pendingHumanFeedback)
    (given : ∀ turn, exchange = .turn turn → TurnRelays setting run.pendingHumanFeedback turn) :
    Relays setting other := by
  constructor
  · rw [slot, log, slotOf_concat, relays.slot]
  · rw [log]
    refine relays.turns.concat ?_
    rw [relays.slot] at given
    cases exchange with
    | turn => exact given _ rfl
    | stage | checkpoint => trivial

/-! ### What a phase adds -/

/-- What a phase has added to a run so far, before it appends its execution. -/
structure Trace (setting : Setting) (phase : Phase) (run middle : PhaseRun)
    (news : List Interaction) : Prop where
  log : middle.log = run.log ++ news
  turnIds : middle.result.turnIds =
    run.result.turnIds ++ (turnsOf news).map fun turn => turn.reply.turnId
  executions : middle.result.executions = run.result.executions
  owned : ∀ exchange ∈ news, exchange.OwnedBy phase
  relays : Relays setting run → Relays setting middle

namespace Trace

theorem refl : Trace setting phase run run [] :=
  ⟨(append_nil _).symm, (append_nil _).symm, rfl, by simp, id⟩

variable (trace : Trace setting phase run middle news)
include trace

/-- Only the record, the turn ids, the executions and the slot matter. -/
theorem same (log : other.log = middle.log) (turnIds : other.result.turnIds = middle.result.turnIds)
    (executions : other.result.executions = middle.result.executions)
    (slot : other.pendingHumanFeedback = middle.pendingHumanFeedback) :
    Trace setting phase run other news where
  log := log.trans trace.log
  turnIds := turnIds.trans trace.turnIds
  executions := executions.trans trace.executions
  owned := trace.owned
  relays := fun relays => (trace.relays relays).of_same log slot

theorem setCompletion (status : CompletionStatus) :
    Trace setting phase run (middle.setCompletion status) news :=
  trace.same rfl rfl rfl rfl

theorem setAnswer (answer : Json) : Trace setting phase run (middle.setAnswer answer) news :=
  trace.same rfl rfl rfl rfl

theorem addVerification (record : VerificationRecord) :
    Trace setting phase run (middle.addVerification record) news :=
  trace.same rfl rfl rfl rfl

/-- One more exchange of the phase. -/
theorem concat {exchange : Interaction} (log : other.log = middle.log ++ [exchange])
    (turnIds : other.result.turnIds =
      middle.result.turnIds ++ (turnsOf [exchange]).map fun turn => turn.reply.turnId)
    (executions : other.result.executions = middle.result.executions) (own : exchange.OwnedBy phase)
    (slot : other.pendingHumanFeedback = exchange.slotAfter middle.pendingHumanFeedback)
    (given : ∀ turn, exchange = .turn turn → TurnRelays setting middle.pendingHumanFeedback turn) :
    Trace setting phase run other (news ++ [exchange]) where
  log := by rw [log, trace.log, append_assoc]
  turnIds := by rw [turnIds, trace.turnIds, turnsOf_append, map_append, append_assoc]
  executions := executions.trans trace.executions
  owned := forall_mem_append.mpr ⟨trace.owned, forall_mem_singleton.mpr own⟩
  relays := fun relays => (trace.relays relays).concat log slot given

theorem stage (label title detail : String) :
    Trace setting phase run (middle.stage label title detail) (news ++ [.stage label title detail]) := by
  refine trace.concat rfl (append_nil _).symm rfl trivial rfl ?_
  rintro _ ⟨⟩

/-- A turn that was given the slot empties it. -/
theorem relayTurn (own : turn.phase = phase) (carried : turn.carried = some middle.pendingHumanFeedback)
    (prompt : PromptCarries setting turn middle.pendingHumanFeedback) : Trace setting phase run
      ((middle.recordTurn turn).setPendingFeedback "") (news ++ [.turn turn]) := by
  refine trace.concat rfl rfl rfl own ?_ ?_
  · rw [slotAfter, carried]
    rfl
  · rintro _ ⟨⟩
    exact .inr ⟨carried, prompt⟩

/-- The turn of a command leaves the slot alone. -/
theorem commandTurn (own : turn.phase = phase) (carried : turn.carried = none)
    (ofCommand : turn.phase.kind = .command) :
    Trace setting phase run (middle.recordTurn turn) (news ++ [.turn turn]) := by
  refine trace.concat rfl rfl rfl own ?_ ?_
  · simp [slotAfter, carried, PhaseRun.recordTurn]
  · rintro _ ⟨⟩
    exact .inl ⟨carried, ofCommand⟩

end Trace

end WeaveCodex.ControlPlane
