/-
Purpose: What every interleaving of a run keeps: the run thread, the server's turn, the
  waiting reader and the pending question fit together.
-/
import WeaveCodex.ControlPlane.StopProtocol

namespace WeaveCodex.ControlPlane

namespace StopState

/-- The run thread is about to open a checkpoint. -/
def OpensCheckpoint (state : StopState) : Prop :=
  match state.thread with
  | .ready (.checkpoint _ :: _) _ => True
  | _ => False

/-- A stop's `cancel` waits to be read. -/
def CancelPending (state : StopState) : Prop :=
  state.session.stopRequested = true ∧ state.session.decision = some { decision := .cancel }

/-- A step after which no acknowledged stop can be lost: a turn that was told to stop
does not complete, nobody decides over an unread `cancel` of a stop, and no checkpoint
opens while a stop is between its two sections. -/
def Careful (state : StopState) : StopAction → Prop
  | .endTurn .completed => state.server.map ServerTurn.toldToStop ≠ some true
  | .decide _ _ => ¬ state.CancelPending
  | .beginPhase => state.OpensCheckpoint → .calling ∉ state.stops
  | _ => True

instance (state : StopState) : Decidable state.OpensCheckpoint := by
  unfold OpensCheckpoint
  split <;> infer_instance

instance (state : StopState) : Decidable state.CancelPending :=
  inferInstanceAs (Decidable (_ ∧ _))

instance (state : StopState) (action : StopAction) : Decidable (state.Careful action) := by
  unfold Careful
  split <;> infer_instance

end StopState

/-- Every way in which a step can go. -/
inductive Stepped (state : StopState) : StopAction → StopState → Prop where
  | prepared {phases} : state.thread = .preparing phases → Stepped state .prepare { state with
      session := { state.session with status := .running, interrupt := true }
      thread := .ready phases 0 }
  | ranOut {attempt} : state.thread = .ready [] attempt →
      Stepped state .beginPhase (state.move (.closing .completed))
  | openedCheckpoint {phase rest attempt} :
      state.thread = .ready (.checkpoint phase :: rest) attempt →
        Stepped state .beginPhase (state.openCheckpoint phase rest)
  | startedTurn {phase rest attempt} : state.thread = .ready (phase :: rest) attempt →
      Stepped state .beginPhase (state.startTurn phase attempt rest)
  | failedStart {phases attempt} : state.thread = .ready phases attempt →
      Stepped state .failStart (state.move (.closing .failed))
  | registered {call rest} : state.thread = .inTurn call .started rest →
      Stepped state .register { state with
        gateway := { state.gateway with activeTurn := some call.turn }
        thread := .inTurn call
          (if state.gateway.interruptRequested then .interrupting else .listening) rest }
  | sentInterrupt {call rest server} :
      state.thread = .inTurn call .interrupting rest → state.server = some server →
        server.Runs call.turn → Stepped state .sendInterrupt { state with
          server := some { server with toldToStop := true }
          thread := .inTurn call .listening rest
          log := state.log ++ [.interruptSent call.turn] }
  | refusedInterrupt {call rest} : state.thread = .inTurn call .interrupting rest →
      Stepped state .sendInterrupt { state with
        thread := .closing .failed
        log := state.log ++ [.interruptSent call.turn] }
  | observedEnd {call rest server} :
      state.thread = .inTurn call .listening rest → state.server = some server →
        server.id = call.turn → server.status ≠ .inProgress → state.readerWaits = false →
          Stepped state .observeEnd { state with
            thread := .inTurn call (.finished server.status) rest
            log := state.log ++ [.turnFinished call.turn server.status] }
  | cleanedUp {call status rest verdict} : state.thread = .inTurn call (.finished status) rest →
      Stepped state (.cleanup verdict) { state with
        gateway := state.gateway.cleanup call.turn
        thread := afterTurn call rest status verdict }
  | raised {call rest} : state.thread = .inTurn call .listening rest →
      Stepped state (.cleanup .raises) { state with
        gateway := state.gateway.cleanup call.turn
        thread := .closing .failed }
  | resolvedCheckpoint {phase rest timedOut} : state.thread = .atCheckpoint phase rest →
      Stepped state (.leaveCheckpoint timedOut) { state with
        session := state.session.exitWait.1
        thread := if state.session.exitWait.2.decision.accepts then .ready rest 0
          else .closing .completed
        log := state.log ++ [.checkpointResolved phase.id state.session.exitWait.2.decision] }
  | finished {status} : state.thread = .closing status → Stepped state .finish { state with
      session := { state.session with status }
      thread := .unbinding }
  | unbound : state.thread = .unbinding → Stepped state .unbind { state with
      session := state.session.bindInterrupt false
      thread := .ended }
  | openedApproval {method server} :
      state.server = some server → server.status = .inProgress → state.readerWaits = false →
        Stepped state (.openApproval method) { state with
          session := state.session.enterWait (.approval method)
          readerWaits := true }
  | closedApproval {timedOut} : state.readerWaits = true →
      Stepped state (.closeApproval timedOut) { state with
        session := state.session.exitWait.1
        readerWaits := false
        server := state.server.map fun server =>
          server.answerApproval state.session.exitWait.2.decision }
  | endedTurn {status server} :
      state.server = some server → server.status = .inProgress → status ≠ .inProgress →
        (status = .completed → state.readerWaits = false) →
          Stepped state (.endTurn status) { state with server := some { server with status } }
  | decided {decision feedback session} : state.session.decide decision feedback = .ok session →
      Stepped state (.decide decision feedback) { state with session }
  | ignoredStop {caller session} : state.session.requestStop = (session, .returned false) →
      Stepped state (.requestStop caller) { state with session }
  | cancelled {caller session} : state.session.requestStop = (session, .returned true) →
      Stepped state (.requestStop caller) ({ state with session }.acknowledge caller)
  | calledBack {caller session} : state.session.requestStop = (session, .callback) →
      Stepped state (.requestStop caller) ({ state with session }.moveStop caller .calling)
  | flagged {caller} : .calling ∈ state.stops → state.gateway.activeTurn = none →
      Stepped state (.interrupt caller)
        ({ state with gateway := { state.gateway with interruptRequested := true } }.acknowledge caller)
  | flaggedActive {caller turn} : .calling ∈ state.stops →
      state.gateway.activeTurn = some turn → Stepped state (.interrupt caller)
        ({ state with gateway := { state.gateway with interruptRequested := true } }.moveStop
          caller (.sending turn))
  | toldTurn {caller turn server} : .sending turn ∈ state.stops →
      state.server = some server → server.Runs turn → Stepped state (.interruptTurn caller)
        ({ state.record (.interruptSent turn) with
            server := some { server with toldToStop := true } }.moveStop caller (.awaiting turn))
  | refusedTurn {caller turn} :
      Stepped state (.interruptTurn caller) ((state.record (.interruptSent turn)).moveStop caller .idle)
  | returned {caller turn} : .awaiting turn ∈ state.stops →
      Stepped state (.stopReturns caller) (state.acknowledge caller)
  | raisedStop {caller} : Stepped state (.stopRaises caller) (state.moveStop caller .idle)

section Inversion

open StopState

variable {state state' : StopState}

theorem ServerTurn.interrupt_eq_some {server : Option ServerTurn} {turn : Nat}
    {told : ServerTurn} (delivered : ServerTurn.interrupt server turn = some told) :
    ∃ current, server = some current ∧ current.Runs turn ∧
      told = { current with toldToStop := true } := by
  obtain ⟨current, known, delivered⟩ := Option.bind_eq_some_iff.mp delivered
  split at delivered
  · rename_i runs
    exact ⟨current, known, runs, (Option.some.inj delivered).symm⟩
  · cases delivered

theorem stepped_beginPhase (step : state.beginPhase = some state') :
    Stepped state .beginPhase state' := by
  unfold beginPhase at step
  split at step
  · rename_i atPoint
    cases step
    exact .ranOut atPoint
  · rename_i atPoint
    cases step
    exact .openedCheckpoint atPoint
  · rename_i atPoint
    cases step
    exact .startedTurn atPoint
  · cases step

theorem stepped_sendInterrupt (step : state.sendInterrupt = some state') :
    Stepped state .sendInterrupt state' := by
  unfold sendInterrupt at step
  split at step
  · rename_i call rest atPoint
    cases delivered : ServerTurn.interrupt state.server call.turn with
    | none =>
      rw [delivered] at step
      cases step
      exact .refusedInterrupt atPoint
    | some =>
      rw [delivered] at step
      cases step
      obtain ⟨_, known, runs, rfl⟩ := ServerTurn.interrupt_eq_some delivered
      exact .sentInterrupt atPoint known runs
  · cases step

theorem stepped_cleanup {verdict : TurnVerdict} (step : state.cleanup verdict = some state') :
    Stepped state (.cleanup verdict) state' := by
  unfold cleanup at step
  split at step
  · rename_i atPoint
    cases step
    exact .cleanedUp atPoint
  · rename_i atPoint
    split at step
    · rename_i raises
      cases step
      rw [raises]
      exact .raised atPoint
    · cases step
  · cases step

theorem stepped_endTurn {status : TurnStatus} (step : state.endTurn status = some state') :
    Stepped state (.endTurn status) state' := by
  unfold endTurn at step
  split at step
  · rename_i known
    split at step
    · rename_i ready
      cases step
      refine .endedTurn known ready.1 ready.2.1 ?_
      intro completed
      exact Bool.eq_false_iff.mpr fun waits => ready.2.2 ⟨completed, waits⟩
    · cases step
  · cases step

variable {caller : Nat}

theorem stepped_requestStop (step : state.requestStop caller = some state') :
    Stepped state (.requestStop caller) state' := by
  unfold requestStop at step
  split at step
  · dsimp only at step
    generalize asked : state.session.requestStop = outcome at step
    obtain ⟨_, answer⟩ := outcome
    cases answer with
    | returned acknowledged =>
      cases acknowledged with
      | true =>
        cases step
        exact .cancelled asked
      | false =>
        cases step
        exact .ignoredStop asked
    | callback =>
      cases step
      exact .calledBack asked
  · cases step

theorem stepped_interrupt (step : state.interrupt caller = some state') :
    Stepped state (.interrupt caller) state' := by
  unfold interrupt at step
  split at step
  · rename_i atPoint
    have calling := List.mem_of_getElem? atPoint
    dsimp only [SdkGateway.interrupt] at step
    split at step
    · rename_i active
      cases step
      exact .flagged calling active
    · rename_i active
      cases step
      exact .flaggedActive calling active
  · cases step

theorem stepped_interruptTurn (step : state.interruptTurn caller = some state') :
    Stepped state (.interruptTurn caller) state' := by
  unfold interruptTurn at step
  split at step
  · rename_i turn atPoint
    have sending := List.mem_of_getElem? atPoint
    cases delivered : ServerTurn.interrupt state.server turn with
    | none =>
      rw [delivered] at step
      cases step
      exact .refusedTurn
    | some =>
      rw [delivered] at step
      cases step
      obtain ⟨_, known, runs, rfl⟩ := ServerTurn.interrupt_eq_some delivered
      exact .toldTurn sending known runs
  · cases step

/-- Every step goes in one of these ways. -/
theorem stepped_of_step {action : StopAction} (step : state.step action = some state') :
    Stepped state action state' := by
  cases action with
  | prepare | failStart | register | finish | unbind | decide =>
    -- One guard, and the step that is named after it.
    simp only [StopState.step, register] at step
    split at step
    · cases step
      constructor
      assumption
    · cases step
  | beginPhase => exact stepped_beginPhase step
  | sendInterrupt => exact stepped_sendInterrupt step
  | observeEnd =>
    simp only [StopState.step, observeEnd] at step
    split at step
    · rename_i atPoint known
      split at step
      · rename_i ready
        cases step
        exact .observedEnd atPoint known ready.1 ready.2.1 ready.2.2
      · cases step
    · cases step
  | cleanup => exact stepped_cleanup step
  | leaveCheckpoint =>
    simp only [StopState.step, leaveCheckpoint] at step
    split at step
    · rename_i atPoint
      split at step
      · cases step
        exact .resolvedCheckpoint atPoint
      · cases step
    · cases step
  | openApproval =>
    simp only [StopState.step, openApproval] at step
    split at step
    · rename_i known
      split at step
      · rename_i ready
        cases step
        exact .openedApproval known ready.1 ready.2
      · cases step
    · cases step
  | closeApproval =>
    simp only [StopState.step, closeApproval] at step
    split at step
    · rename_i ready
      cases step
      exact .closedApproval ready.1
    · cases step
  | endTurn => exact stepped_endTurn step
  | requestStop => exact stepped_requestStop step
  | interrupt => exact stepped_interrupt step
  | interruptTurn => exact stepped_interruptTurn step
  | stopReturns =>
    simp only [StopState.step, stopReturns] at step
    split at step
    · rename_i atPoint known
      split at step
      · cases step
        exact .returned (List.mem_of_getElem? atPoint)
      · cases step
    · cases step
  | stopRaises =>
    simp only [StopState.step, stopRaises] at step
    split at step
    · cases step
      exact .raisedStop
    · cases step
      exact .raisedStop
    · cases step

end Inversion

/-! ### The sections of the session -/

variable {session session' : RunSession}

/-- `decide` changes nothing but the decision. -/
theorem RunSession.decide_eq_ok {decision feedback : String}
    (accepted : session.decide decision feedback = .ok session') :
    ∃ resolution, session' = { session with decision := some resolution } := by
  unfold RunSession.decide at accepted
  split at accepted
  · cases accepted
  · dsimp only at accepted
    split at accepted
    · cases accepted
    · split at accepted
      · cases accepted
      · split at accepted
        · cases accepted
        · cases accepted
          exact ⟨_, rfl⟩

/-- `request_stop` leaves the pending question and the callback alone.  It is
acknowledged at once if something is pending, and calls back if nothing is. -/
structure StopSpec (session session' : RunSession) (answer : RunSession.StopAnswer) : Prop where
  pending : session'.pendingApproval = session.pendingApproval
  interrupt : session'.interrupt = session.interrupt
  acknowledged : answer = .returned true → session.pendingApproval.isSome ∧
    session' = { session with stopRequested := true, decision := some { decision := .cancel } }
  calledBack : answer = .callback → session.pendingApproval = none ∧ session.interrupt = true
  otherwise : answer ≠ .returned true → session'.decision = session.decision ∧
    (session.stopRequested = true → session'.stopRequested = true)

theorem RunSession.requestStop_spec {answer : RunSession.StopAnswer}
    (asked : session.requestStop = (session', answer)) :
    StopSpec session session' answer := by
  unfold RunSession.requestStop at asked
  split at asked
  · cases asked
    constructor <;> simp
  · split at asked
    · rename_i something
      cases asked
      constructor <;> simp [something]
    · rename_i nothing
      rw [Option.not_isSome_iff_eq_none] at nothing
      cases asked
      cases bound : session.interrupt with
      | true => constructor <;> simp [nothing, bound]
      | false => constructor <;> simp [bound]

/-! ### Coherence -/

namespace RunPoint

/-- A turn may run on the server while the run thread is here. -/
def Serves : RunPoint → Prop
  | .inTurn _ (.finished _) _ => False
  | .inTurn _ _ _ | .closing _ | .unbinding | .ended => True
  | .preparing _ | .ready _ _ | .atCheckpoint _ _ => False

def AtCheckpoint : RunPoint → Prop
  | .atCheckpoint _ _ => True
  | _ => False

def Preparing : RunPoint → Prop
  | .preparing _ => True
  | _ => False

/-- The turn of the run thread is the active one. -/
def Registered : RunPoint → Prop
  | .inTurn _ .started _ => False
  | .inTurn _ _ _ => True
  | _ => False

theorem Serves.not_atCheckpoint {point : RunPoint} (serves : point.Serves) :
    ¬ point.AtCheckpoint := by
  cases point with
  | atCheckpoint => contradiction
  | _ => exact id

end RunPoint

/-- A turn runs, or the reader waits for an approval of one. -/
def StopState.Busy (state : StopState) : Prop :=
  state.readerWaits = true ∨ ∃ server, state.server = some server ∧ server.status = .inProgress

/-- The parts of the state fit together. -/
structure Coherent (state : StopState) : Prop where
  unbound : state.thread.Preparing → state.session.interrupt = false
  serving : state.Busy → state.thread.Serves
  told : ∀ server, state.server = some server → server.toldToStop = true → server.status ≠ .completed
  reading : state.readerWaits = true → ∃ server, state.server = some server ∧ server.status ≠ .completed
  pending : state.session.pendingApproval.isSome ↔ state.readerWaits = true ∨ state.thread.AtCheckpoint
  registered : state.thread.Registered → state.gateway.activeTurn ≠ none

theorem coherent_initial (phases : List Phase) (callers : Nat) :
    Coherent (StopState.initial phases callers) := by
  constructor <;> simp [StopState.initial, StopState.Busy, RunPoint.AtCheckpoint, RunPoint.Registered]

section Steps

variable {state state' : StopState} {action : StopAction}

/-- After `run_turn` the run thread is between phases or past them. -/
theorem afterTurn_cases (call : TurnCall) (rest : List Phase) (status : TurnStatus)
    (verdict : TurnVerdict) :
    (∃ final, afterTurn call rest status verdict = .closing final) ∨
      status = .completed ∧ ∃ phases attempt,
        afterTurn call rest status verdict = .ready phases attempt := by
  unfold afterTurn
  by_cases completed : status = .completed
  · rw [if_neg (not_not_intro completed)]
    cases verdict with
    | raises => exact .inl ⟨_, rfl⟩
    | pass => exact .inr ⟨completed, _, _, rfl⟩
    | fail =>
      cases call.phase with
      | work | checkpoint => exact .inr ⟨completed, _, _, rfl⟩
      | verify =>
        dsimp only
        split <;> exact .inr ⟨completed, _, _, rfl⟩
      | command =>
        dsimp only
        split
        · exact .inl ⟨_, rfl⟩
        · exact .inr ⟨completed, _, _, rfl⟩
  · rw [if_pos completed]
    cases call.phase with
    | _ => exact .inl ⟨_, rfl⟩

namespace Coherent

variable (coherent : Coherent state)
include coherent

/-- Between turns the reader does not wait. -/
theorem free (rests : ¬ state.thread.Serves) : state.readerWaits = false := by
  apply Bool.eq_false_iff.mpr
  intro waits
  exact rests (coherent.serving (.inl waits))

/-- An HTTP thread that moves, or answers, or asks leaves the parts it does not own. -/
theorem frame (thread : state'.thread = state.thread)
    (server : state'.server = state.server) (reader : state'.readerWaits = state.readerWaits)
    (pending : state'.session.pendingApproval = state.session.pendingApproval)
    (bound : state'.session.interrupt = state.session.interrupt)
    (active : state'.gateway.activeTurn = state.gateway.activeTurn) : Coherent state' := by
  have ⟨unbound, serving, told, reading, asked, registered⟩ := coherent
  unfold StopState.Busy at serving
  constructor <;> simpa only [StopState.Busy, thread, server, reader, pending, bound, active]

/-- The run thread goes elsewhere. -/
theorem goTo (prepared : ¬ state'.thread.Preparing) (server : state'.server = state.server)
    (reader : state'.readerWaits = state.readerWaits)
    (serving : state.Busy → state'.thread.Serves)
    (pending : state'.session.pendingApproval.isSome ↔
      state.readerWaits = true ∨ state'.thread.AtCheckpoint)
    (registered : state'.thread.Registered → state'.gateway.activeTurn ≠ none) :
    Coherent state' where
  unbound := fun preparing => absurd preparing prepared
  serving := by
    rw [StopState.Busy, server, reader]
    exact serving
  told := by
    rw [server]
    exact coherent.told
  reading := by
    rw [server, reader]
    exact coherent.reading
  pending := by
    rw [reader]
    exact pending
  registered := registered

/-- Away from checkpoints the approvals of the reader are pending. -/
theorem pending_away (away : ¬ state.thread.AtCheckpoint) {point : RunPoint}
    (away' : ¬ point.AtCheckpoint) :
    state.session.pendingApproval.isSome ↔ state.readerWaits = true ∨ point.AtCheckpoint := by
  rw [coherent.pending, iff_false_intro away, iff_false_intro away']

/-- What is known about the turn of the server changes. -/
theorem withServer (later : ServerTurn)
    (serving : later.status = .inProgress → state.thread.Serves)
    (told : later.toldToStop = true → later.status ≠ .completed)
    (reading : state.readerWaits = true → later.status ≠ .completed) :
    Coherent { state with server := some later } where
  unbound := coherent.unbound
  serving := by
    rintro (waits | ⟨_, ⟨⟩, runs⟩)
    · exact coherent.serving (.inl waits)
    · exact serving runs
  told := by
    rintro _ ⟨⟩
    exact told
  reading := fun waits => ⟨later, rfl, reading waits⟩
  pending := coherent.pending
  registered := coherent.registered

variable {server : ServerTurn}

theorem tell (known : state.server = some server) (runs : server.status = .inProgress) :
    Coherent { state with server := some { server with toldToStop := true } } := by
  have notCompleted : server.status ≠ .completed := by
    rw [runs]
    simp
  refine coherent.withServer _ ?_ (fun _ => notCompleted) (fun _ => notCompleted)
  intro _
  exact coherent.serving (.inr ⟨server, known, runs⟩)

theorem openApproval (known : state.server = some server)
    (runs : server.status = .inProgress) (question : PendingApproval) :
    Coherent { state with session := state.session.enterWait question, readerWaits := true } where
  unbound := coherent.unbound
  serving := fun _ => coherent.serving (.inr ⟨server, known, runs⟩)
  told := coherent.told
  reading := fun _ => ⟨server, known, by simp [runs]⟩
  pending := by simp [RunSession.enterWait]
  registered := coherent.registered

/-- The reader goes on, and what was pending is gone. -/
theorem stopReading (waits : state.readerWaits = true) :
    Coherent { state with session := state.session.exitWait.1, readerWaits := false } where
  unbound := coherent.unbound
  serving := by
    rintro (⟨⟨⟩⟩ | runs)
    exact coherent.serving (.inr runs)
  told := coherent.told
  reading := by simp
  pending := by simp [RunSession.exitWait, (coherent.serving (.inl waits)).not_atCheckpoint]
  registered := coherent.registered

/-- The answer to an approval may tell the turn to stop. -/
theorem answer (decision : Decision) :
    Coherent { state with
      server := state.server.map fun server => server.answerApproval decision } := by
  cases known : state.server with
  | none =>
    rw [Option.map_none, ← known]
    exact coherent
  | some =>
    rw [Option.map_some]
    unfold ServerTurn.answerApproval
    split
    · rename_i cancels
      exact coherent.tell known cancels.2
    · rw [← known]
      exact coherent

/-- Every careful step keeps the parts together. -/
theorem step (careful : state.Careful action) (stepped : Stepped state action state') :
    Coherent state' := by
  have busy := coherent.serving
  have away := @coherent.pending_away
  have registered := coherent.registered
  cases stepped with
  | prepared atPoint =>
    rw [atPoint] at busy away
    exact coherent.goTo id rfl rfl busy (away id id) (fun there => there.elim)
  | ranOut atPoint | failedStart atPoint | refusedInterrupt atPoint | raised atPoint
  | finished atPoint | unbound atPoint =>
    rw [atPoint] at away
    exact coherent.goTo id rfl rfl (fun _ => trivial) (away id id) (fun there => there.elim)
  | openedCheckpoint atPoint =>
    rw [atPoint] at busy
    refine coherent.goTo id rfl rfl busy ?_ (fun there => there.elim)
    simp [StopState.openCheckpoint, RunSession.enterWait, RunPoint.AtCheckpoint]
  | @startedTurn phase rest attempt atPoint =>
    rw [atPoint] at away
    have started : Coherent
        (state.move (.inTurn { phase, attempt, turn := state.nextTurn } .started rest)) :=
      coherent.goTo id rfl rfl (fun _ => trivial) (away id id) (fun there => there.elim)
    have served := started.withServer { id := state.nextTurn } (fun _ => trivial) (by simp) (by simp)
    exact served.frame rfl rfl rfl rfl rfl rfl
  | registered atPoint =>
    rw [atPoint] at away
    cases state.gateway.interruptRequested with
    | _ => exact coherent.goTo id rfl rfl (fun _ => trivial) (away id id) (by simp)
  | sentInterrupt atPoint known runs =>
    rw [atPoint] at away registered
    exact (coherent.tell known runs.2).goTo id rfl rfl (fun _ => trivial) (away id id) registered
  | observedEnd atPoint known _ ended free =>
    rw [atPoint] at away registered
    refine coherent.goTo id rfl rfl ?_ (away id id) registered
    rintro (waits | ⟨_, known', runs⟩)
    · cases free.symm.trans waits
    · cases known.symm.trans known'
      contradiction
  | @cleanedUp call status rest verdict atPoint =>
    -- A finished turn does not run any more, and no approval of it is open.
    rw [atPoint] at busy away
    rcases afterTurn_cases call rest status verdict with
      ⟨final, goesTo⟩ | ⟨-, phases, attempt, goesTo⟩
    all_goals
      rw [goesTo]
      exact coherent.goTo id rfl rfl (fun running => (busy running).elim) (away id id)
        (fun there => there.elim)
  | resolvedCheckpoint atPoint =>
    have free := coherent.free (by rw [atPoint]; exact id)
    rw [atPoint] at busy
    split
    all_goals
      refine coherent.goTo id rfl rfl (fun running => (busy running).elim) ?_ (fun there => there.elim)
      simp [RunSession.exitWait, RunPoint.AtCheckpoint, free]
  | openedApproval known runs => exact coherent.openApproval known runs _
  | closedApproval waits => exact (coherent.stopReading waits).answer _
  | @endedTurn _ _ known runs ended free =>
    refine coherent.withServer _ (fun runs => absurd runs ended) ?_ ?_
    · -- A turn that was told to stop does not complete.
      rintro told rfl
      cases told.symm.trans (by simpa [StopState.Careful, known] using careful)
    · intro waits completed
      cases waits.symm.trans (free completed)
  | decided accepted =>
    obtain ⟨_, rfl⟩ := RunSession.decide_eq_ok accepted
    exact coherent.frame rfl rfl rfl rfl rfl rfl
  | ignoredStop request | cancelled request | calledBack request =>
    have spec := RunSession.requestStop_spec request
    exact coherent.frame rfl rfl rfl spec.pending spec.interrupt rfl
  | toldTurn sending known runs => exact (coherent.tell known runs.2).frame rfl rfl rfl rfl rfl rfl
  | _ => exact coherent.frame rfl rfl rfl rfl rfl rfl

omit coherent

end Coherent

end Steps

end WeaveCodex.ControlPlane
