/-
Purpose: The lock-protected sections of `RunSession` and `SdkGateway`: waiting for a
  decision, deciding, requesting a stop, and the registration, interrupt and cleanup of
  a turn.  Each function is one critical section.
Trusted boundary: the conditions and locks of the threads make each section atomic; the
  server names turns by ids that are never used twice, here natural numbers
-/
import WeaveCodex.ControlPlane.HarnessRunner

namespace WeaveCodex.ControlPlane

/-! ### The session -/

/-- The approval requests that `request_approval` lets a human answer. -/
inductive ApprovalMethod where
  | commandExecution | fileChange
deriving DecidableEq, Repr

/-- `pending_approval`: what the human is asked. -/
inductive PendingApproval where
  | checkpoint (phaseId question : String)
  | approval (method : ApprovalMethod)
deriving DecidableEq, Repr

def PendingApproval.isCheckpoint : PendingApproval → Bool
  | .checkpoint _ _ => true
  | .approval _ => false

/-- The fields of a session that its threads share for stopping and deciding. -/
structure RunSession where
  status : SessionStatus := .queued
  pendingApproval : Option PendingApproval := none
  decision : Option Resolution := none
  /-- Whether `_interrupt` holds the gateway's callback. -/
  interrupt : Bool := false
  stopRequested : Bool := false
deriving DecidableEq, Repr

def SessionStatus.isFinal : SessionStatus → Bool
  | .completed | .failed | .stopped => true
  | .queued | .running | .waitingForApproval => false

/-- `decision in {"accept", "acceptForSession", "decline", "cancel"}`. -/
def Decision.ofText (text : String) : Option Decision :=
  if text = "accept" then some .accept
  else if text = "acceptForSession" then some .acceptForSession
  else if text = "decline" then some .decline
  else if text = "cancel" then some .cancel
  else none

/-- `text.strip()`. -/
def stripText (text : String) : String :=
  String.ofList ((text.toList.dropWhile isSpace).reverse.dropWhile isSpace).reverse

namespace RunSession

variable (session : RunSession)

/-- `_wait_for_decision` up to its wait. -/
def enterWait (pending : PendingApproval) : RunSession :=
  { session with pendingApproval := some pending, status := .waitingForApproval }

/-- `_wait_for_decision` after its wait, which ends with a decision or at the deadline. -/
def exitWait : RunSession × Resolution :=
  ({ session with decision := none, pendingApproval := none, status := .running },
    session.decision.getD { decision := .decline })

/-- The wait is over if there is a decision or the deadline has passed. -/
def waitOver (timedOut : Bool) : Bool :=
  session.decision.isSome || timedOut

/-- `decide`.  The checks before the lock do not read the session. -/
def decide (decision feedback : String) : Except String RunSession :=
  match Decision.ofText decision with
  | none => .error "unsupported approval decision"
  | some decision =>
    let feedback := stripText feedback
    if 2000 < feedback.length then
      .error "checkpoint feedback must contain at most 2000 characters"
    else
      match session.pendingApproval with
      | none => .error "this run has no pending approval"
      | some pending =>
        if feedback ≠ "" ∧ pending.isCheckpoint = false then
          .error "feedback is supported only at a harness checkpoint"
        else
          .ok { session with decision := some { decision, feedback } }

/-- `bind_interrupt`. -/
def bindInterrupt (callback : Bool) : RunSession :=
  { session with interrupt := callback }

/-- What `request_stop` does after its section: it returns, or it calls the callback. -/
inductive StopAnswer where
  | returned (acknowledged : Bool)
  | callback
deriving DecidableEq, Repr

/-- The section of `request_stop`. -/
def requestStop : RunSession × StopAnswer :=
  if session.status.isFinal then
    (session, .returned false)
  else if session.pendingApproval.isSome then
    ({ session with stopRequested := true, decision := some { decision := .cancel } }, .returned true)
  else
    ({ session with stopRequested := true },
      if session.interrupt then .callback else .returned false)

end RunSession

/-! ### The gateway -/

/-- The fields that `interrupt` and `run_turn` share under `_active_lock`. -/
structure SdkGateway where
  activeTurn : Option Nat := none
  interruptRequested : Bool := false
deriving DecidableEq, Repr

namespace SdkGateway

/-- The section of `interrupt`: the turn to be interrupted, if one is active. -/
def interrupt (gateway : SdkGateway) : SdkGateway × Option Nat :=
  ({ gateway with interruptRequested := true }, gateway.activeTurn)

/-- The registration of `run_turn`: whether an interrupt was requested before. -/
def register (gateway : SdkGateway) (turn : Nat) : SdkGateway × Bool :=
  ({ gateway with activeTurn := some turn }, gateway.interruptRequested)

/-- The cleanup of `run_turn`. -/
def cleanup (gateway : SdkGateway) (turn : Nat) : SdkGateway :=
  { activeTurn := if gateway.activeTurn = some turn then none else gateway.activeTurn
    interruptRequested := false }

end SdkGateway

end WeaveCodex.ControlPlane
