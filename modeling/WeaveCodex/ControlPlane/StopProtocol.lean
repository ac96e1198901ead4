/-
Purpose: A phase-program run as the interleaving of its threads: the run thread, the
  reader thread of the client, the app server, and the HTTP threads that decide and
  request stops.  One action is one critical section or one message.
Trusted boundary: the app server starts one turn at a time, answers `turn/interrupt` for
  the running turn when that turn has ended and refuses it for any other turn, ends a
  turn at once when an approval is answered with `cancel`, and completes no turn while
  an approval of it is open
-/
import WeaveCodex.ControlPlane.RunSession
import WeaveCodex.Library.StepRuns

namespace WeaveCodex.ControlPlane

/-- The status of a turn on the app server. -/
inductive TurnStatus where
  | inProgress | completed | interrupted | failed
deriving DecidableEq, Repr

/-- The latest turn of the app server.  It was told to stop if an interrupt reached it
while it ran, or if one of its approvals was answered with `cancel`. -/
structure ServerTurn where
  id : Nat
  toldToStop : Bool := false
  status : TurnStatus := .inProgress
deriving DecidableEq, Repr

/-- The call of `run_turn` for a phase; a verify phase may make several attempts. -/
structure TurnCall where
  phase : Phase
  attempt : Nat
  turn : Nat
deriving DecidableEq, Repr

/-- Where the run thread is in `run_turn`: after `turn_start`, before its own
`turn_interrupt`, in the notification loop, or before the cleanup. -/
inductive TurnStage where
  | started | interrupting | listening
  | finished (status : TurnStatus)
deriving DecidableEq, Repr

/-- Where the run thread is in `HarnessRunner.run`. -/
inductive RunPoint where
  | preparing (phases : List Phase)
  | ready (phases : List Phase) (attempt : Nat)
  | atCheckpoint (phase : CheckpointPhase) (rest : List Phase)
  | inTurn (call : TurnCall) (stage : TurnStage) (rest : List Phase)
  | closing (status : SessionStatus)
  | unbinding | ended
deriving DecidableEq, Repr

/-- Where an HTTP thread is in `request_stop`: outside, before the callback's section,
before its `turn_interrupt`, or waiting for the answer to it. -/
inductive StopPoint where
  | idle | calling
  | sending (turn : Nat)
  | awaiting (turn : Nat)
deriving DecidableEq, Repr

/-- What can be observed of a run. -/
inductive StopEvent where
  | stopAcknowledged
  | turnStarted (turn : Nat) (phase : Phase)
  | interruptSent (turn : Nat)
  | turnFinished (turn : Nat) (status : TurnStatus)
  | checkpointOpened (phaseId : String)
  | checkpointResolved (phaseId : String) (decision : Decision)
deriving DecidableEq, Repr

structure StopState where
  session : RunSession := {}
  gateway : SdkGateway := {}
  server : Option ServerTurn := none
  nextTurn : Nat := 0
  thread : RunPoint
  /-- The client's reader thread waits for an approval, and reads no messages. -/
  readerWaits : Bool := false
  stops : List StopPoint
  log : List StopEvent := []
deriving DecidableEq, Repr

/-- What `execute_phase_program` makes of a turn that has completed. -/
inductive TurnVerdict where
  | pass | fail | raises
deriving DecidableEq, Repr

inductive StopAction where
  -- the run thread
  | prepare | beginPhase | failStart | register | sendInterrupt | observeEnd
  | cleanup (verdict : TurnVerdict)
  | leaveCheckpoint (timedOut : Bool)
  | finish | unbind
  -- the reader thread
  | openApproval (method : ApprovalMethod)
  | closeApproval (timedOut : Bool)
  -- the app server
  | endTurn (status : TurnStatus)
  -- the HTTP threads
  | decide (decision feedback : String)
  | requestStop (caller : Nat)
  | interrupt (caller : Nat)
  | interruptTurn (caller : Nat)
  | stopReturns (caller : Nat)
  | stopRaises (caller : Nat)
deriving DecidableEq, Repr

namespace ServerTurn

def Runs (server : ServerTurn) (turn : Nat) : Prop :=
  server.id = turn ∧ server.status = .inProgress

instance (server : ServerTurn) (turn : Nat) : Decidable (server.Runs turn) :=
  inferInstanceAs (Decidable (_ ∧ _))

/-- `turn/interrupt`, which is refused if the turn does not run. -/
def interrupt (server : Option ServerTurn) (turn : Nat) : Option ServerTurn :=
  server.bind fun current =>
    if current.Runs turn then some { current with toldToStop := true } else none

/-- The answer to an approval of the turn. -/
def answerApproval (server : ServerTurn) (decision : Decision) : ServerTurn :=
  if decision = .cancel ∧ server.status = .inProgress then
    { server with toldToStop := true }
  else server

end ServerTurn

/-- Where `execute_phase_program` goes on after `run_turn`.  An interrupted check that
stops on failure leaves the session `completed`. -/
def afterTurn (call : TurnCall) (rest : List Phase) (status : TurnStatus)
    (verdict : TurnVerdict) : RunPoint :=
  if status ≠ .completed then
    match call.phase with
    | .command phase => .closing (if phase.stopOnFailure then .completed else .stopped)
    | _ => .closing .stopped
  else
    match verdict with
    | .raises => .closing .failed
    | .pass => .ready rest 0
    | .fail =>
      match call.phase with
      | .command phase => if phase.stopOnFailure then .closing .completed else .ready rest 0
      | .verify phase =>
        if call.attempt < phase.maxRepairs then .ready (.verify phase :: rest) (call.attempt + 1)
        else .ready rest 0
      | _ => .ready rest 0

namespace StopState

variable (state : StopState) (caller : Nat)

def record (event : StopEvent) : StopState :=
  { state with log := state.log ++ [event] }

def move (thread : RunPoint) : StopState :=
  { state with thread }

def moveStop (point : StopPoint) : StopState :=
  { state with stops := state.stops.set caller point }

/-- `request_stop` returns True. -/
def acknowledge : StopState :=
  (state.moveStop caller .idle).record .stopAcknowledged

/-- `request_checkpoint` up to its wait. -/
def openCheckpoint (phase : CheckpointPhase) (rest : List Phase) :
    StopState :=
  { state with
    session := state.session.enterWait (.checkpoint phase.id phase.question)
    thread := .atCheckpoint phase rest
    log := state.log ++ [.checkpointOpened phase.id] }

/-- `turn_start`: the server starts a new turn. -/
def startTurn (phase : Phase) (attempt : Nat) (rest : List Phase) :
    StopState :=
  { state with
    server := some { id := state.nextTurn }
    nextTurn := state.nextTurn + 1
    thread := .inTurn { phase, attempt, turn := state.nextTurn } .started rest
    log := state.log ++ [.turnStarted state.nextTurn phase] }

def beginPhase : Option StopState :=
  match state.thread with
  | .ready [] _ => some (state.move (.closing .completed))
  | .ready (.checkpoint phase :: rest) _ => some (state.openCheckpoint phase rest)
  | .ready (phase :: rest) attempt => some (state.startTurn phase attempt rest)
  | _ => none

def register (state : StopState) : Option StopState :=
  match state.thread with
  | .inTurn call .started rest =>
    let (gateway, interruptRequested) := state.gateway.register call.turn
    let stage := if interruptRequested then .interrupting else .listening
    some { state with gateway, thread := .inTurn call stage rest }
  | _ => none

/-- The `turn_interrupt` of the run thread.  A refusal raises before the loop is
entered, and there is no cleanup. -/
def sendInterrupt : Option StopState :=
  match state.thread with
  | .inTurn call .interrupting rest =>
    let sent := state.record (.interruptSent call.turn)
    match ServerTurn.interrupt state.server call.turn with
    | some server =>
      some { sent with server := some server, thread := .inTurn call .listening rest }
    | none => some (sent.move (.closing .failed))
  | _ => none

/-- The run thread reads `turn/completed`. -/
def observeEnd : Option StopState :=
  match state.thread, state.server with
  | .inTurn call .listening rest, some server =>
    if server.id = call.turn ∧ server.status ≠ .inProgress ∧ state.readerWaits = false then
      some ((state.move (.inTurn call (.finished server.status) rest)).record
        (.turnFinished call.turn server.status))
    else none
  | _, _ => none

/-- The cleanup of `run_turn`, also after an exception in its loop. -/
def cleanup (state : StopState) (verdict : TurnVerdict) : Option StopState :=
  match state.thread with
  | .inTurn call (.finished status) rest =>
    some { state with
      gateway := state.gateway.cleanup call.turn
      thread := afterTurn call rest status verdict }
  | .inTurn call .listening _ =>
    if verdict = .raises then
      some { state with
        gateway := state.gateway.cleanup call.turn
        thread := .closing .failed }
    else none
  | _ => none

/-- `request_checkpoint` after its wait. -/
def leaveCheckpoint (timedOut : Bool) : Option StopState :=
  match state.thread with
  | .atCheckpoint phase rest =>
    if state.session.waitOver timedOut then
      let (session, resolution) := state.session.exitWait
      let thread :=
        if resolution.decision.accepts then .ready rest 0 else .closing .completed
      some { state with
        session
        thread
        log := state.log ++ [.checkpointResolved phase.id resolution.decision] }
    else none
  | _ => none

/-- A tool of the running turn asks for an approval. -/
def openApproval (method : ApprovalMethod) : Option StopState :=
  match state.server with
  | some server =>
    if server.status = .inProgress ∧ state.readerWaits = false then
      some { state with
        session := state.session.enterWait (.approval method)
        readerWaits := true }
    else none
  | none => none

def closeApproval (timedOut : Bool) : Option StopState :=
  if state.readerWaits ∧ state.session.waitOver timedOut then
    let (session, resolution) := state.session.exitWait
    some { state with
      session
      readerWaits := false
      server := state.server.map fun server => server.answerApproval resolution.decision }
  else none

def endTurn (status : TurnStatus) : Option StopState :=
  match state.server with
  | some server =>
    if server.status = .inProgress ∧ status ≠ .inProgress ∧
        ¬ (status = .completed ∧ state.readerWaits) then
      some { state with server := some { server with status } }
    else none
  | none => none

def requestStop (state : StopState) (caller : Nat) : Option StopState :=
  if state.stops[caller]? = some .idle then
    let (session, answer) := state.session.requestStop
    let asked := { state with session }
    match answer with
    | .returned true => some (asked.acknowledge caller)
    | .returned false => some asked
    | .callback => some (asked.moveStop caller .calling)
  else none

def interrupt (state : StopState) (caller : Nat) : Option StopState :=
  if state.stops[caller]? = some .calling then
    let (gateway, active) := state.gateway.interrupt
    let flagged := { state with gateway }
    match active with
    | none => some (flagged.acknowledge caller)
    | some turn => some (flagged.moveStop caller (.sending turn))
  else none

/-- The `turn_interrupt` of an HTTP thread.  A refusal raises out of `request_stop`. -/
def interruptTurn : Option StopState :=
  match state.stops[caller]? with
  | some (.sending turn) =>
    let sent := state.record (.interruptSent turn)
    match ServerTurn.interrupt state.server turn with
    | some server => some ({ sent with server := some server }.moveStop caller (.awaiting turn))
    | none => some (sent.moveStop caller .idle)
  | _ => none

/-- The answer to `turn_interrupt` comes when its turn has ended. -/
def stopReturns : Option StopState :=
  match state.stops[caller]?, state.server with
  | some (.awaiting turn), some server =>
    if ¬ server.Runs turn ∧ state.readerWaits = false then some (state.acknowledge caller)
    else none
  | _, _ => none

/-- `turn_interrupt` raises because the client was closed. -/
def stopRaises : Option StopState :=
  match state.stops[caller]? with
  | some (.sending _) | some (.awaiting _) => some (state.moveStop caller .idle)
  | _ => none

def step : StopAction → Option StopState
  | .prepare =>
    match state.thread with
    | .preparing phases =>
      some { state with
        session := { state.session with status := .running }.bindInterrupt true
        thread := .ready phases 0 }
    | _ => none
  | .beginPhase => state.beginPhase
  | .failStart =>
    match state.thread with
    | .ready _ _ => some (state.move (.closing .failed))
    | _ => none
  | .register => state.register
  | .sendInterrupt => state.sendInterrupt
  | .observeEnd => state.observeEnd
  | .cleanup verdict => state.cleanup verdict
  | .leaveCheckpoint timedOut => state.leaveCheckpoint timedOut
  | .finish =>
    match state.thread with
    | .closing status =>
      some { state with session := { state.session with status }, thread := .unbinding }
    | _ => none
  | .unbind =>
    match state.thread with
    | .unbinding =>
      some { state with session := state.session.bindInterrupt false, thread := .ended }
    | _ => none
  | .openApproval method => state.openApproval method
  | .closeApproval timedOut => state.closeApproval timedOut
  | .endTurn status => state.endTurn status
  | .decide decision feedback =>
    match state.session.decide decision feedback with
    | .ok session => some { state with session }
    | .error _ => none
  | .requestStop caller => state.requestStop caller
  | .interrupt caller => state.interrupt caller
  | .interruptTurn caller => state.interruptTurn caller
  | .stopReturns caller => state.stopReturns caller
  | .stopRaises caller => state.stopRaises caller

/-- A queued run of these phases, watched by this many HTTP threads. -/
def initial (phases : List Phase) (callers : Nat) : StopState :=
  { thread := .preparing phases
    stops := List.replicate callers .idle }

end StopState

end WeaveCodex.ControlPlane
