/-
Purpose: When an acknowledged stop is kept.  From the acknowledgement on the run is
  doomed, and careful steps keep it so; each of the three careless steps loses a stop.
-/
import WeaveCodex.ControlPlane.Proofs.StopInterleavings
import WeaveCodex.Library.Log

namespace WeaveCodex.ControlPlane

open Library.StepRuns
open Library.Log StopState RunSession List

/-! ### What it means to keep a stop -/

/-- This turn was started when some `request_stop` had returned True. -/
def StartedAfterAck (log : List StopEvent) (turn : Nat) : Prop :=
  ∃ before phase after, log = before ++ .turnStarted turn phase :: after ∧ .stopAcknowledged ∈ before

def StopEvent.Resolves : StopEvent → Prop
  | .checkpointResolved _ _ => True
  | _ => False

/-- A checkpoint is still open that was open when some `request_stop` returned True. -/
def OpenAtAck (log : List StopEvent) : Prop :=
  ∃ before phaseId between after,
    log = before ++ .checkpointOpened phaseId :: (between ++ .stopAcknowledged :: after) ∧
      ∀ event ∈ between ++ after, ¬ event.Resolves

/-- An event that loses no acknowledged stop.  A turn that was started later does not
finish without having been sent an interrupt, no turn completes any more, and a
checkpoint that was pending at that moment is not accepted. -/
def StopEvent.KeepsStop (before : List StopEvent) : StopEvent → Prop
  | .turnFinished turn status =>
    (StartedAfterAck before turn → .interruptSent turn ∈ before) ∧
      (.stopAcknowledged ∈ before → status ≠ .completed)
  | .checkpointResolved _ decision => OpenAtAck before → decision.accepts = false
  | .stopAcknowledged | .turnStarted _ _ | .interruptSent _ | .checkpointOpened _ => True

/-- No acknowledged stop is ever lost. -/
def StopKept (log : List StopEvent) : Prop :=
  AtEach StopEvent.KeepsStop log

/-! ### Logs with one more event -/

section Logs

variable {log : List StopEvent} {event : StopEvent} {turn : Nat}

theorem StartedAfterAck.acknowledged (started : StartedAfterAck log turn) :
    .stopAcknowledged ∈ log := by
  obtain ⟨_, _, _, rfl, acknowledged⟩ := started
  exact mem_append_left _ acknowledged

theorem startedAfterAck_concat (started : StartedAfterAck (log ++ [event]) turn) :
    StartedAfterAck log turn ∨
      (∃ phase, event = .turnStarted turn phase) ∧ .stopAcknowledged ∈ log := by
  obtain ⟨before, phase, _, split, acknowledged⟩ := started
  rcases split_concat split with ⟨rfl, rfl, -⟩ | ⟨shorter, -, splitLog⟩
  · exact .inr ⟨⟨phase, rfl⟩, acknowledged⟩
  · exact .inl ⟨before, phase, shorter, splitLog, acknowledged⟩

/-- Some checkpoint has been opened and not been resolved. -/
def CheckpointOpen : List StopEvent → Prop :=
  Standing (fun _ event => ∃ phaseId, event = .checkpointOpened phaseId) StopEvent.Resolves

/-- A stop was acknowledged while a checkpoint was open, and none has been resolved since. -/
theorem openAtAck_iff : OpenAtAck log ↔ Standing (fun before event =>
    event = .stopAcknowledged ∧ CheckpointOpen before) StopEvent.Resolves log := by
  constructor
  · rintro ⟨before, phaseId, between, after, rfl, unresolved⟩
    obtain ⟨first, second⟩ := forall_mem_append.mp unresolved
    refine ⟨before ++ .checkpointOpened phaseId :: between, _, after, by simp, ⟨rfl, ?_⟩, second⟩
    exact ⟨before, _, between, rfl, ⟨phaseId, rfl⟩, first⟩
  · rintro ⟨_, _, after, rfl, ⟨rfl, before, _, between, rfl, ⟨phaseId, rfl⟩, first⟩, second⟩
    exact ⟨before, phaseId, between, after, by simp, forall_mem_append.mpr ⟨first, second⟩⟩

theorem OpenAtAck.checkpointOpen (held : OpenAtAck log) : CheckpointOpen log := by
  obtain ⟨_, _, after, rfl, ⟨rfl, before, opened, between, rfl, opens, first⟩, second⟩ :=
    openAtAck_iff.mp held
  refine ⟨before, opened, between ++ .stopAcknowledged :: after, by simp, opens, ?_⟩
  exact forall_mem_append.mpr ⟨first, forall_mem_cons.mpr ⟨id, second⟩⟩

theorem openAtAck_concat (held : OpenAtAck (log ++ [event])) :
    (event = .stopAcknowledged ∧ CheckpointOpen log) ∨ OpenAtAck log ∧ ¬ event.Resolves := by
  rw [openAtAck_iff, standing_concat_iff, ← openAtAck_iff] at held
  exact held

end Logs

/-! ### Doom -/

/-- The server's turn has been told to stop, or has ended without completing. -/
def ServerTurn.Spoiled (server : ServerTurn) : Prop :=
  server.toldToStop = true ∨ server.status = .interrupted ∨ server.status = .failed

/-- The current turn is spoiled, or a stop's `cancel` will spoil it. -/
def StopState.TurnDoomed (state : StopState) : Prop :=
  (∃ server, state.server = some server ∧ server.Spoiled) ∨
    state.readerWaits = true ∧ state.CancelPending

/-- No turn will complete any more. -/
def Doomed (state : StopState) : Prop :=
  match state.thread with
  | .preparing _ => False
  | .ready _ _ => state.gateway.interruptRequested = true
  | .atCheckpoint _ _ => state.gateway.interruptRequested = true ∨ state.CancelPending
  | .inTurn _ .started _ => state.gateway.interruptRequested = true ∨ state.TurnDoomed
  | .inTurn _ .interrupting _ => True
  | .inTurn _ .listening _ => state.TurnDoomed
  | .inTurn _ (.finished status) _ => status ≠ .completed
  | .closing _ | .unbinding | .ended => True

section Steps

variable {state state' : StopState} {action : StopAction}

/-- A stop's `cancel` is what the wait ends with. -/
theorem StopState.CancelPending.exitWait (pending : state.CancelPending) :
    state.session.exitWait.2.decision = .cancel := by
  simp [RunSession.exitWait, pending.2]

variable {server : ServerTurn}

theorem ServerTurn.Spoiled.answerApproval (spoiled : server.Spoiled) (decision : Decision) :
    (server.answerApproval decision).Spoiled := by
  unfold ServerTurn.answerApproval
  split
  · exact .inl rfl
  · exact spoiled

/-- A turn that runs is spoiled only by having been told to stop. -/
theorem ServerTurn.Spoiled.told (spoiled : server.Spoiled) (runs : server.status = .inProgress) :
    server.toldToStop = true := by
  rcases spoiled with told | interrupted | failed
  · exact told
  · cases runs.symm.trans interrupted
  · cases runs.symm.trans failed

theorem ServerTurn.Spoiled.not_completed (spoiled : server.Spoiled) (coherent : Coherent state)
    (known : state.server = some server) : server.status ≠ .completed := by
  intro completed
  rcases spoiled with told | interrupted | failed
  · exact coherent.told server known told completed
  · cases completed.symm.trans interrupted
  · cases completed.symm.trans failed

/-- `cancel` spoils a turn that has not completed. -/
theorem ServerTurn.spoiled_of_cancel (notCompleted : server.status ≠ .completed) :
    (server.answerApproval .cancel).Spoiled := by
  unfold ServerTurn.answerApproval ServerTurn.Spoiled
  cases status : server.status with
  | inProgress => simp
  | completed => contradiction
  | interrupted | failed => simp [status]

/-- The answer to an approval leaves a doomed turn doomed. -/
theorem StopState.TurnDoomed.closeApproval (doomed : state.TurnDoomed)
    (coherent : Coherent state) (waits : state.readerWaits = true) :
    ∃ server, state.server.map (fun server =>
      server.answerApproval state.session.exitWait.2.decision) = some server ∧ server.Spoiled := by
  obtain ⟨_, known, notCompleted⟩ := coherent.reading waits
  refine ⟨_, by rw [known]; rfl, ?_⟩
  rcases doomed with ⟨_, same, spoiled⟩ | ⟨-, cancel⟩
  · rw [known] at same
    rw [Option.some.inj same]
    exact spoiled.answerApproval _
  · rw [cancel.exitWait]
    exact ServerTurn.spoiled_of_cancel notCompleted

/-- A doomed turn that has ended has not completed. -/
theorem StopState.TurnDoomed.not_completed (doomed : state.TurnDoomed) (coherent : Coherent state)
    (known : state.server = some server) (free : state.readerWaits = false) :
    server.status ≠ .completed := by
  rcases doomed with ⟨_, same, spoiled⟩ | ⟨waits, -⟩
  · cases known.symm.trans same
    exact spoiled.not_completed coherent known
  · cases free.symm.trans waits

/-- A step of the run's other threads. -/
theorem Doomed.during (doomed : Doomed state) (thread : state'.thread = state.thread)
    (flag : state.gateway.interruptRequested = true → state'.gateway.interruptRequested = true)
    (cancel : state.thread.AtCheckpoint → state.CancelPending → state'.CancelPending)
    (turn : state.TurnDoomed → state'.TurnDoomed) : Doomed state' := by
  unfold Doomed at doomed ⊢
  rw [thread]
  generalize state.thread = point at doomed cancel
  cases point with
  | preparing => exact doomed
  | ready => exact flag doomed
  | atCheckpoint => exact doomed.imp flag (cancel trivial)
  | inTurn _ stage =>
    cases stage with
    | started => exact doomed.imp flag turn
    | interrupting => trivial
    | listening => exact turn doomed
    | finished => exact doomed
  | closing | unbinding | ended => trivial

/-- A step of an HTTP thread that neither unsets the flag nor takes back a `cancel`. -/
theorem Doomed.frame (doomed : Doomed state) (thread : state'.thread = state.thread)
    (server : state'.server = state.server) (reader : state'.readerWaits = state.readerWaits)
    (flag : state.gateway.interruptRequested = true → state'.gateway.interruptRequested = true)
    (cancel : state.CancelPending → state'.CancelPending) : Doomed state' := by
  refine doomed.during thread flag (fun _ => cancel) ?_
  rw [StopState.TurnDoomed, StopState.TurnDoomed, server, reader]
  exact Or.imp_right (And.imp_right cancel)

variable {event : StopEvent} {log : List StopEvent}

/-- A careful step keeps the run doomed. -/
theorem Doomed.step (doomed : Doomed state) (coherent : Coherent state)
    (careful : state.Careful action) (stepped : Stepped state action state') :
    Doomed state' := by
  cases stepped with
  | prepared atPoint =>
    rw [Doomed, atPoint] at doomed
    exact doomed.elim
  | ranOut | failedStart | refusedInterrupt | raised | finished | unbound => trivial
  | openedCheckpoint atPoint | startedTurn atPoint =>
    rw [Doomed, atPoint] at doomed
    exact .inl doomed
  | registered atPoint =>
    rw [Doomed, atPoint] at doomed
    rw [Doomed]
    by_cases flag : state.gateway.interruptRequested = true
    · rw [if_pos flag]
      trivial
    · rw [if_neg flag]
      exact doomed.resolve_left flag
  | sentInterrupt => exact .inl ⟨_, rfl, .inl rfl⟩
  | observedEnd atPoint known _ _ free =>
    rw [Doomed, atPoint] at doomed
    exact doomed.not_completed coherent known free
  | @cleanedUp call status rest verdict atPoint =>
    -- The flag is cleared here, but a turn that did not complete ends the run.
    rw [Doomed, atPoint] at doomed
    rcases afterTurn_cases call rest status verdict with ⟨_, goesTo⟩ | ⟨completed, -⟩
    · rw [goesTo]
      trivial
    · contradiction
  | resolvedCheckpoint atPoint =>
    rw [Doomed, atPoint] at doomed
    rw [Doomed]
    by_cases accepts : state.session.exitWait.2.decision.accepts = true
    · rw [if_pos accepts]
      refine doomed.resolve_right ?_
      intro cancel
      rw [cancel.exitWait] at accepts
      cases accepts
    · rw [if_neg accepts]
      trivial
  | openedApproval known runs free =>
    have serves := coherent.serving (.inr ⟨_, known, runs⟩)
    refine doomed.during rfl id (fun there => absurd there serves.not_atCheckpoint) ?_
    rintro (spoiled | ⟨waits, -⟩)
    · exact .inl spoiled
    · cases free.symm.trans waits
  | closedApproval waits =>
    have serves := coherent.serving (.inl waits)
    refine doomed.during rfl id (fun there => absurd there serves.not_atCheckpoint) ?_
    intro turn
    exact .inl (turn.closeApproval coherent waits)
  | endedTurn known runs =>
    refine doomed.during rfl id (fun _ => id) ?_
    rintro (⟨_, same, spoiled⟩ | cancel)
    · cases known.symm.trans same
      exact .inl ⟨_, rfl, .inl (spoiled.told runs)⟩
    · exact .inr cancel
  | decided accepted =>
    obtain ⟨_, rfl⟩ := decide_eq_ok accepted
    exact doomed.frame rfl rfl rfl id fun cancel => absurd cancel careful
  | ignoredStop request | calledBack request =>
    have spec := requestStop_spec request
    obtain ⟨decision, requested⟩ := spec.otherwise (by simp)
    exact doomed.frame rfl rfl rfl id fun cancel => ⟨requested cancel.1, decision.trans cancel.2⟩
  | cancelled request =>
    have spec := requestStop_spec request
    obtain ⟨-, rfl⟩ := spec.acknowledged rfl
    exact doomed.frame rfl rfl rfl id fun _ => ⟨rfl, rfl⟩
  | flagged | flaggedActive => exact doomed.frame rfl rfl rfl (fun _ => rfl) id
  | toldTurn => exact doomed.during rfl id (fun _ => id) fun _ => .inl ⟨_, rfl, .inl rfl⟩
  | refusedTurn | returned | raisedStop => exact doomed.frame rfl rfl rfl id id

/-- The run thread is in a turn, or past its turns. -/
def RunPoint.Turned : RunPoint → Prop
  | .inTurn _ _ _ | .closing _ | .unbinding | .ended => True
  | .preparing _ | .ready _ _ | .atCheckpoint _ _ => False

theorem RunPoint.Serves.turned {point : RunPoint} (serves : point.Serves) : point.Turned := by
  cases point with
  | inTurn => trivial
  | _ => exact serves

/-- A doomed turn does not lead to the next phase. -/
theorem Stepped.turned (stepped : Stepped state action state') (doomed : Doomed state)
    (turned : state.thread.Turned) : state'.thread.Turned := by
  cases stepped with
  | prepared atPoint | openedCheckpoint atPoint | resolvedCheckpoint atPoint =>
    rw [atPoint] at turned
    exact turned.elim
  | @cleanedUp call status rest verdict atPoint =>
    rw [Doomed, atPoint] at doomed
    rcases afterTurn_cases call rest status verdict with ⟨_, goesTo⟩ | ⟨completed, -⟩
    · rw [goesTo]
      trivial
    · contradiction
  | ranOut | startedTurn | failedStart | registered | sentInterrupt | refusedInterrupt | observedEnd
  | raised | finished | unbound => trivial
  | _ => exact turned

/-! ### The callers of `request_stop` -/

/-- An HTTP thread that moved elsewhere was at this point before. -/
theorem mem_of_moved {stops : List StopPoint} {caller : Nat} {point other : StopPoint}
    (mem : point ∈ stops.set caller other) (elsewhere : point ≠ other) : point ∈ stops :=
  (mem_or_eq_of_mem_set mem).resolve_right elsewhere

/-- A stop is between its sections while the callback is bound and no checkpoint is
open, and a stop that waits for the server has doomed the turn. -/
structure Callers (state : StopState) : Prop where
  calling : .calling ∈ state.stops → ¬ state.thread.Preparing ∧ ¬ state.thread.AtCheckpoint
  awaiting : ∀ turn, .awaiting turn ∈ state.stops → Doomed state ∧ state.thread.Turned

theorem callers_initial (phases : List Phase) (callers : Nat) : Callers (initial phases callers) := by
  constructor
  · intro mem
    cases eq_of_mem_replicate mem
  · intro turn mem
    cases eq_of_mem_replicate mem

/-- After a careful step no stop is about to cancel while a checkpoint is prepared or open. -/
theorem Callers.calling_step (callers : Callers state) (coherent : Coherent state)
    (careful : state.Careful action) (stepped : Stepped state action state')
    (mem : .calling ∈ state'.stops) :
    ¬ state'.thread.Preparing ∧ ¬ state'.thread.AtCheckpoint := by
  cases stepped with
  | openedCheckpoint atPoint =>
    have opens : state.OpensCheckpoint := by simp [StopState.OpensCheckpoint, atPoint]
    exact absurd mem (careful opens)
  | prepared | ranOut | startedTurn | failedStart | registered | sentInterrupt | refusedInterrupt
  | observedEnd | raised | finished | unbound => exact ⟨id, id⟩
  | @cleanedUp call status rest verdict _ =>
    rcases afterTurn_cases call rest status verdict with
      ⟨final, goesTo⟩ | ⟨-, phases, attempt, goesTo⟩
    all_goals
      rw [goesTo]
      exact ⟨id, id⟩
  | resolvedCheckpoint => split <;> exact ⟨id, id⟩
  | calledBack request =>
    -- The callback is bound, and nothing is pending.
    obtain ⟨nothing, bound⟩ := (requestStop_spec request).calledBack rfl
    constructor
    · intro preparing
      cases bound.symm.trans (coherent.unbound preparing)
    · intro atCheckpoint
      have something := coherent.pending.mpr (.inr atCheckpoint)
      rw [nothing] at something
      cases something
  | openedApproval | closedApproval | endedTurn | decided | ignoredStop =>
    exact callers.calling mem
  | cancelled | flagged | flaggedActive | toldTurn | refusedTurn | returned | raisedStop =>
    exact callers.calling (mem_of_moved mem (by simp))

/-- A doomed turn dooms the run that may have it. -/
theorem StopState.TurnDoomed.doomed (turn : state.TurnDoomed) (serves : state.thread.Serves) :
    Doomed state := by
  unfold Doomed
  generalize state.thread = point at serves
  cases point with
  | inTurn _ stage =>
    cases stage with
    | started => exact .inr turn
    | interrupting => trivial
    | listening => exact turn
    | finished => contradiction
  | closing | unbinding | ended => trivial
  | preparing | ready | atCheckpoint => exact serves.elim

theorem Callers.awaiting_step (callers : Callers state) (coherent : Coherent state)
    (careful : state.Careful action) (stepped : Stepped state action state') (turn : Nat)
    (mem : .awaiting turn ∈ state'.stops) : Doomed state' ∧ state'.thread.Turned := by
  have keeps : .awaiting turn ∈ state.stops → Doomed state' ∧ state'.thread.Turned := by
    intro before
    obtain ⟨doomed, turned⟩ := callers.awaiting turn before
    exact ⟨doomed.step coherent careful stepped, stepped.turned doomed turned⟩
  cases stepped with
  | toldTurn _ known runs =>
    have serves := coherent.serving (.inr ⟨_, known, runs.2⟩)
    exact ⟨StopState.TurnDoomed.doomed (.inl ⟨_, rfl, .inl rfl⟩) serves, serves.turned⟩
  | cancelled | calledBack | flagged | flaggedActive | refusedTurn | returned | raisedStop =>
    exact keeps (mem_of_moved mem (by simp))
  | _ => exact keeps mem

theorem Callers.step (callers : Callers state) (coherent : Coherent state)
    (careful : state.Careful action) (stepped : Stepped state action state') :
    Callers state' :=
  ⟨callers.calling_step coherent careful stepped, callers.awaiting_step coherent careful stepped⟩

/-! ### Acknowledgement dooms the run -/

/-- Without an active turn the flag dooms the run. -/
theorem doomed_of_flag (bound : ¬ state.thread.Preparing) (unregistered : ¬ state.thread.Registered)
    (flag : state.gateway.interruptRequested = true) : Doomed state := by
  unfold Doomed
  generalize state.thread = point at bound unregistered
  cases point with
  | inTurn _ stage =>
    cases stage with
    | started => exact .inl flag
    | _ => exact absurd trivial unregistered
  | preparing => exact bound trivial
  | ready => exact flag
  | atCheckpoint => exact .inl flag
  | _ => trivial

/-- A step that acknowledges a stop dooms the run. -/
theorem Stepped.doomed (stepped : Stepped state action state') (coherent : Coherent state)
    (callers : Callers state) (acknowledged : .stopAcknowledged ∈ state'.log) :
    .stopAcknowledged ∈ state.log ∨ Doomed state' := by
  cases stepped with
  | cancelled request =>
    obtain ⟨something, rfl⟩ := (requestStop_spec request).acknowledged rfl
    refine .inr ?_
    rcases coherent.pending.mp something with waits | atCheckpoint
    · exact StopState.TurnDoomed.doomed (.inr ⟨waits, rfl, rfl⟩) (coherent.serving (.inl waits))
    · unfold Doomed
      generalize state.thread = point at atCheckpoint
      cases point with
      | atCheckpoint => exact .inr ⟨rfl, rfl⟩
      | _ => exact atCheckpoint.elim
  | flagged calling idle =>
    refine .inr (doomed_of_flag (callers.calling calling).1 ?_ rfl)
    intro registered
    exact coherent.registered registered idle
  | @returned _ turn awaiting => exact .inr (callers.awaiting turn awaiting).1
  | openedCheckpoint | startedTurn | sentInterrupt | refusedInterrupt | observedEnd
  | resolvedCheckpoint | toldTurn | refusedTurn =>
    -- Another event was recorded.
    rcases mem_append.mp acknowledged with before | last
    · exact .inl before
    · cases mem_singleton.mp last
  | _ => exact .inl acknowledged

/-! ### Turns that start later -/

/-- How far the interrupt of a turn that was started too late has come. -/
def TurnStage.Interrupted (state : StopState) (turn : Nat) : TurnStage → Prop
  | .started => state.gateway.interruptRequested = true
  | .interrupting => True
  | .listening | .finished _ => .interruptSent turn ∈ state.log

/-- A turn that is started after an acknowledgement is on its way to be interrupted. -/
def InterruptsLate (state : StopState) : Prop :=
  ∀ call stage rest, state.thread = .inTurn call stage rest →
    StartedAfterAck state.log call.turn → stage.Interrupted state call.turn

/-- A run that is not in a turn has nothing to interrupt. -/
theorem InterruptsLate.of_away (away : ∀ call stage rest, state.thread ≠ .inTurn call stage rest) :
    InterruptsLate state := by
  intro call stage rest inTurn
  exact absurd inTurn (away call stage rest)

/-- A step of another thread that neither unsets the flag nor starts a turn. -/
theorem InterruptsLate.frame (late : InterruptsLate state) (thread : state'.thread = state.thread)
    (flag : state.gateway.interruptRequested = true → state'.gateway.interruptRequested = true)
    (started : ∀ turn, StartedAfterAck state'.log turn → StartedAfterAck state.log turn)
    (sent : ∀ event ∈ state.log, event ∈ state'.log) : InterruptsLate state' := by
  intro call stage rest inTurn after
  rw [thread] at inTurn
  have before := late call stage rest inTurn (started call.turn after)
  cases stage with
  | started => exact flag before
  | interrupting => trivial
  | listening | finished => exact sent _ before

/-- An event that is no start of a turn. -/
theorem startedAfterAck_of_concat (other : ∀ turn phase, event ≠ .turnStarted turn phase)
    (turn : Nat) (started : StartedAfterAck (log ++ [event]) turn) : StartedAfterAck log turn := by
  rcases startedAfterAck_concat started with before | ⟨⟨phase, now⟩, -⟩
  · exact before
  · exact absurd now (other turn phase)

/-- A step keeps every late turn on its way to be interrupted. -/
theorem InterruptsLate.step (late : InterruptsLate state)
    (doomed : .stopAcknowledged ∈ state.log → Doomed state)
    (stepped : Stepped state action state') : InterruptsLate state' := by
  cases stepped with
  | prepared | ranOut | openedCheckpoint | failedStart | refusedInterrupt | raised | finished
  | unbound => exact .of_away fun _ _ _ inTurn => by cases inTurn
  | @cleanedUp call status rest verdict _ =>
    apply InterruptsLate.of_away
    intro _ _ _ inTurn
    rcases afterTurn_cases call rest status verdict with
      ⟨final, goesTo⟩ | ⟨-, phases, attempt, goesTo⟩
    · cases goesTo.symm.trans inTurn
    · cases goesTo.symm.trans inTurn
  | resolvedCheckpoint =>
    apply InterruptsLate.of_away
    intro _ _ _ inTurn
    split at inTurn <;> cases inTurn
  | startedTurn atPoint =>
    -- The run was doomed between its phases, so the flag is set.
    rintro _ _ _ ⟨⟩ started
    have acknowledged : .stopAcknowledged ∈ state.log := by
      rcases startedAfterAck_concat started with before | ⟨-, acknowledged⟩
      · exact before.acknowledged
      · exact acknowledged
    have flag := doomed acknowledged
    rw [Doomed, atPoint] at flag
    exact flag
  | @registered call rest atPoint =>
    rintro _ _ _ inTurn started
    by_cases flag : state.gateway.interruptRequested = true
    · rw [if_pos flag] at inTurn
      cases inTurn
      trivial
    · rw [if_neg flag] at inTurn
      cases inTurn
      exact absurd (late call .started rest atPoint started) flag
  | sentInterrupt =>
    rintro _ _ _ ⟨⟩ _
    exact mem_append_right _ (mem_singleton_self _)
  | observedEnd atPoint =>
    rintro _ _ _ ⟨⟩ started
    have before := startedAfterAck_of_concat (by simp) _ started
    exact mem_append_left _ (late _ .listening _ atPoint before)
  | openedApproval | closedApproval | endedTurn | decided | ignoredStop | calledBack
  | raisedStop => exact late.frame rfl id (fun _ => id) fun _ => id
  | flaggedActive => exact late.frame rfl (fun _ => rfl) (fun _ => id) fun _ => id
  | flagged =>
    exact late.frame rfl (fun _ => rfl) (startedAfterAck_of_concat (by simp)) fun _ => mem_append_left _
  | cancelled | toldTurn | refusedTurn | returned =>
    exact late.frame rfl id (startedAfterAck_of_concat (by simp)) fun _ => mem_append_left _

/-! ### Checkpoints that are open -/

/-- Only the run thread opens and resolves checkpoints, and a checkpoint that was open
at an acknowledgement has a `cancel` to read. -/
structure Checkpoints (state : StopState) : Prop where
  opened : CheckpointOpen state.log → state.thread.AtCheckpoint
  held : OpenAtAck state.log → state.CancelPending

/-- An event that opens no checkpoint. -/
theorem checkpointOpen_of_concat (other : ∀ phaseId, event ≠ .checkpointOpened phaseId)
    (isOpen : CheckpointOpen (log ++ [event])) : CheckpointOpen log ∧ ¬ event.Resolves := by
  rcases standing_concat_iff.mp isOpen with ⟨phaseId, opens⟩ | before
  · exact absurd opens (other phaseId)
  · exact before

/-- An event that acknowledges no stop. -/
theorem openAtAck_of_concat (other : event ≠ .stopAcknowledged) (held : OpenAtAck (log ++ [event])) :
    OpenAtAck log ∧ ¬ event.Resolves := by
  rcases openAtAck_concat held with ⟨acknowledges, -⟩ | before
  · contradiction
  · exact before

/-- No checkpoint is open while the run thread is elsewhere. -/
theorem Checkpoints.elsewhere (checkpoints : Checkpoints state) {point : RunPoint}
    (atPoint : state.thread = point) (away : ¬ point.AtCheckpoint) :
    ¬ CheckpointOpen state.log := by
  intro isOpen
  have there := checkpoints.opened isOpen
  rw [atPoint] at there
  exact away there

theorem Checkpoints.opened_step (checkpoints : Checkpoints state)
    (stepped : Stepped state action state') (isOpen : CheckpointOpen state'.log) :
    state'.thread.AtCheckpoint := by
  cases stepped with
  | openedCheckpoint => trivial
  | prepared atPoint | ranOut atPoint | failedStart atPoint | registered atPoint
  | cleanedUp atPoint | raised atPoint | finished atPoint | unbound atPoint =>
    exact absurd isOpen (checkpoints.elsewhere atPoint id)
  | startedTurn atPoint | sentInterrupt atPoint | refusedInterrupt atPoint
  | observedEnd atPoint =>
    have before := (checkpointOpen_of_concat (by simp) isOpen).1
    exact absurd before (checkpoints.elsewhere atPoint id)
  | resolvedCheckpoint =>
    exact absurd trivial (checkpointOpen_of_concat (by simp) isOpen).2
  | cancelled | flagged | toldTurn | refusedTurn | returned =>
    exact checkpoints.opened (checkpointOpen_of_concat (by simp) isOpen).1
  | openedApproval | closedApproval | endedTurn | decided | ignoredStop | calledBack
  | flaggedActive | raisedStop => exact checkpoints.opened isOpen

/-- A stop that is acknowledged while no checkpoint is open holds none. -/
theorem not_openAtAck_of_acknowledged (none : ¬ CheckpointOpen log) :
    ¬ OpenAtAck (log ++ [.stopAcknowledged]) := by
  intro held
  rcases openAtAck_concat held with ⟨-, isOpen⟩ | ⟨before, -⟩
  · exact none isOpen
  · exact none before.checkpointOpen

theorem RunPoint.Turned.not_atCheckpoint {point : RunPoint} (turned : point.Turned) :
    ¬ point.AtCheckpoint := by
  cases point with
  | atCheckpoint => exact turned.elim
  | _ => exact id

/-- A checkpoint that is held keeps its `cancel`. -/
theorem Checkpoints.held_step (checkpoints : Checkpoints state) (coherent : Coherent state)
    (callers : Callers state) (careful : state.Careful action)
    (stepped : Stepped state action state') (held : OpenAtAck state'.log) :
    state'.CancelPending := by
  cases stepped with
  | prepared atPoint | ranOut atPoint | failedStart atPoint | registered atPoint
  | cleanedUp atPoint | raised atPoint | finished atPoint | unbound atPoint =>
    exact absurd held.checkpointOpen (checkpoints.elsewhere atPoint id)
  | openedCheckpoint atPoint | startedTurn atPoint | sentInterrupt atPoint
  | refusedInterrupt atPoint | observedEnd atPoint =>
    have before := (openAtAck_of_concat (by simp) held).1
    exact absurd before.checkpointOpen (checkpoints.elsewhere atPoint id)
  | resolvedCheckpoint => exact absurd trivial (openAtAck_of_concat (by simp) held).2
  | openedApproval known runs =>
    have serves := coherent.serving (.inr ⟨_, known, runs⟩)
    exact absurd (checkpoints.opened held.checkpointOpen) serves.not_atCheckpoint
  | closedApproval waits =>
    -- The reader does not wait while a checkpoint is open.
    have serves := coherent.serving (.inl waits)
    exact absurd (checkpoints.opened held.checkpointOpen) serves.not_atCheckpoint
  | decided => exact absurd (checkpoints.held held) careful
  | ignoredStop request | calledBack request =>
    obtain ⟨requested, pending⟩ := checkpoints.held held
    have spec := (requestStop_spec request).otherwise (by simp)
    exact ⟨spec.2 requested, spec.1.trans pending⟩
  | cancelled request =>
    obtain ⟨-, rfl⟩ := (requestStop_spec request).acknowledged rfl
    exact ⟨rfl, rfl⟩
  | flagged calling =>
    refine absurd held (not_openAtAck_of_acknowledged ?_)
    intro isOpen
    exact (callers.calling calling).2 (checkpoints.opened isOpen)
  | @returned _ turn awaiting =>
    refine absurd held (not_openAtAck_of_acknowledged ?_)
    intro isOpen
    exact (callers.awaiting turn awaiting).2.not_atCheckpoint (checkpoints.opened isOpen)
  | toldTurn | refusedTurn => exact checkpoints.held (openAtAck_of_concat (by simp) held).1
  | endedTurn | flaggedActive | raisedStop => exact checkpoints.held held

/-! ### Whole runs -/

/-- What careful runs keep. -/
structure Sound (state : StopState) : Prop where
  coherent : Coherent state
  callers : Callers state
  doomed : .stopAcknowledged ∈ state.log → Doomed state
  late : InterruptsLate state
  checkpoints : Checkpoints state
  kept : StopKept state.log

/-- A careful step loses no stop. -/
theorem Sound.kept_step (sound : Sound state) (stepped : Stepped state action state') :
    StopKept state'.log := by
  have ⟨coherent, callers, doomed, late, checkpoints, kept⟩ := sound
  cases stepped with
  | openedCheckpoint atPoint | startedTurn atPoint | sentInterrupt atPoint known runs
  | refusedInterrupt atPoint => exact kept.concat trivial
  | @observedEnd call rest _ atPoint known _ ended free =>
    refine kept.concat ⟨late call .listening rest atPoint, ?_⟩
    intro acknowledged
    -- The doomed turn has ended, and its end is not a completion.
    have doomedNow := doomed acknowledged
    rw [Doomed, atPoint] at doomedNow
    exact doomedNow.not_completed coherent known free
  | resolvedCheckpoint =>
    refine kept.concat (?_ : OpenAtAck state.log → _)
    intro held
    rw [(checkpoints.held held).exitWait]
    rfl
  | cancelled request | flagged calling idle | toldTurn sending known runs | refusedTurn
  | returned awaiting => exact kept.concat trivial
  | _ => exact kept

theorem Sound.step (sound : Sound state) (careful : state.Careful action)
    (stepped : Stepped state action state') : Sound state' := by
  have ⟨coherent, callers, doomed, late, checkpoints, kept⟩ := sound
  refine ⟨coherent.step careful stepped, callers.step coherent careful stepped, ?_,
    late.step doomed stepped, ⟨checkpoints.opened_step stepped,
      checkpoints.held_step coherent callers careful stepped⟩, sound.kept_step stepped⟩
  intro acknowledged
  rcases stepped.doomed coherent callers acknowledged with before | now
  · exact (doomed before).step coherent careful stepped
  · exact now

theorem sound_initial (phases : List Phase) (callers : Nat) : Sound (initial phases callers) := by
  refine ⟨coherent_initial phases callers, callers_initial phases callers, ?_, ?_, ⟨?_, ?_⟩, .nil⟩
  · simp [initial]
  · intro call stage rest inTurn
    cases inTurn
  · exact fun isOpen => absurd isOpen not_standing_nil
  · exact fun held => absurd held.checkpointOpen not_standing_nil

end Steps

/-- In every interleaving of careful steps, of a run of any phases with any number of
HTTP threads, no acknowledged stop is lost. -/
theorem acknowledgedStop_kept (phases : List Phase) (callers : Nat) (actions : List StopAction)
    {final : StopState}
    (careful : Along StopState.step StopState.Careful (StopState.initial phases callers) actions)
    (ran : execute StopState.step (StopState.initial phases callers) actions = some final) :
    StopKept final.log := by
  have sound : Sound final := by
    refine execute_invariant Sound ?_ (sound_initial phases callers) careful ran
    intro state action state' sound careful step
    exact sound.step careful (stepped_of_step step)
  exact sound.kept

def buildPhase : Phase :=
  .work { id := "build", name := "Build", goal := "Build the product." }

def reviewPhase : Phase :=
  .checkpoint { id := "review", name := "Review", question := "Ship it?" }

def shipPhase : Phase :=
  .work { id := "ship", name := "Ship", goal := "Ship the product." }

/-- A stop between two phases, whose flag interrupts the next turn. -/
def interruptedNext : List StopAction :=
  [.prepare, .requestStop 0, .interrupt 0, .beginPhase, .register, .sendInterrupt,
    .endTurn .interrupted, .observeEnd, .cleanup .pass, .finish, .unbind]

/-- The turn that was started after the stop is interrupted, and the second phase does not start. -/
theorem interruptedNext_kept :
    ∃ final, execute StopState.step (StopState.initial [buildPhase, shipPhase] 1)
        interruptedNext = some final ∧
      final.log = [.stopAcknowledged, .turnStarted 0 buildPhase, .interruptSent 0,
        .turnFinished 0 .interrupted] ∧
      StopKept final.log := by
  refine ⟨_, rfl, rfl, ?_⟩
  exact acknowledgedStop_kept [buildPhase, shipPhase] 1 interruptedNext (by decide) rfl

/-- The server completes the turn that an interrupt has just reached, and then answers
the interrupt.  The cleanup of that turn forgets the stop. -/
def completedAnyway : List StopAction :=
  [.prepare, .beginPhase, .register, .requestStop 0, .interrupt 0, .interruptTurn 0,
    .endTurn .completed, .stopReturns 0, .observeEnd, .cleanup .pass, .beginPhase, .register,
    .endTurn .completed, .observeEnd, .cleanup .pass]

/-- A later turn is started, is sent no interrupt, and completes its work phase. -/
theorem completedAnyway_loses_stop :
    ∃ final, execute StopState.step (StopState.initial [buildPhase, shipPhase] 1)
        completedAnyway = some final ∧
      final.log = [.turnStarted 0 buildPhase, .interruptSent 0, .stopAcknowledged,
        .turnFinished 0 .completed, .turnStarted 1 shipPhase, .turnFinished 1 .completed] ∧
      ¬ StopKept final.log := by
  refine ⟨_, rfl, rfl, ?_⟩
  intro kept
  have late : StartedAfterAck [.turnStarted 0 buildPhase, .interruptSent 0, .stopAcknowledged,
        .turnFinished 0 .completed, .turnStarted 1 shipPhase] 1 :=
    ⟨[_, _, _, _], shipPhase, [], rfl, by decide⟩
  have finished := kept _ (.turnFinished 1 .completed) [] rfl
  exact absurd (finished.1 late) (by decide)

theorem not_stopKept_of_accepted : ¬ StopKept
    [.checkpointOpened "review", .stopAcknowledged, .checkpointResolved "review" .accept] := by
  intro kept
  have held : OpenAtAck [.checkpointOpened "review", .stopAcknowledged] :=
    ⟨[], "review", [], [], rfl, by simp⟩
  exact absurd (kept _ (.checkpointResolved "review" .accept) [] rfl held) (by decide)

/-- A decision over the unread `cancel` of a stop accepts the checkpoint. -/
theorem decideOverCancel_loses_stop : ∃ final, execute step (initial [reviewPhase, shipPhase] 1)
      [.prepare, .beginPhase, .requestStop 0, .decide "accept" "", .leaveCheckpoint false] =
        some final ∧
    ¬ StopKept final.log :=
  ⟨_, rfl, not_stopKept_of_accepted⟩

/-- A checkpoint that opens between the two sections of a stop is not cancelled. -/
theorem checkpointBetweenSections_loses_stop :
    ∃ final, execute step (initial [reviewPhase, shipPhase] 1)
        [.prepare, .requestStop 0, .beginPhase, .interrupt 0, .decide "accept" "",
          .leaveCheckpoint false] = some final ∧
      ¬ StopKept final.log :=
  ⟨_, rfl, not_stopKept_of_accepted⟩

end WeaveCodex.ControlPlane
