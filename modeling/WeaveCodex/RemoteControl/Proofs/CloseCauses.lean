/-
Purpose: Why connections are closed, along every interleaving.  A joined task returns only
  its client key, so the join of an old task closes the newer connection that a second
  initialize opened under that key; every other close has its proper cause.
-/
import WeaveCodex.RemoteControl.Proofs.ConnectionLife

namespace WeaveCodex.RemoteControl

open ClientTracker Option
open Library.StepRuns List

/-- What may close a connection in a round that starts from `tracker`. -/
inductive Cause (tracker : ClientTracker) : Action → Nat → Prop where
  /-- Its own outbound task ended and is joined. -/
  | taskEnded (connectionId : Nat) : Cause tracker (.join connectionId) connectionId
  /-- Its client closed the key under which it was opened. -/
  | clientClosed {envelope now randomStreamId sent connectionId}
      (closed : envelope.event = .clientClosed)
      (opened : .connectionOpened connectionId (tracker.addressed envelope randomStreamId) ∈
        tracker.transportEvents) :
      Cause tracker (.envelope envelope now randomStreamId sent) connectionId
  /-- An initialize for the key under which it was opened replaces it. -/
  | replaced {envelope now randomStreamId sent connectionId}
      (starts : envelope.event.isInitialize = true)
      (opened : .connectionOpened connectionId (tracker.addressed envelope randomStreamId) ∈
        tracker.transportEvents) :
      Cause tracker (.envelope envelope now randomStreamId sent) connectionId
  /-- It is opened in this round, and its initialize is not delivered. -/
  | undelivered {envelope now randomStreamId sent} (starts : envelope.event.isInitialize = true)
      (lost : sent.incoming = false) :
      Cause tracker (.envelope envelope now randomStreamId sent) tracker.nextConnectionId
  /-- It was idle for too long. -/
  | expired {now expired handled clientKey client}
      (known : tracker.clients.lookup clientKey = some client)
      (idle : remoteControlClientIsAlive client now = false) :
      Cause tracker (.idleSweep now expired handled) client.connectionId
  /-- The tracker shuts down. -/
  | shutdown (order : List ClientKey) (connectionId : Nat) :
      Cause tracker (.shutdown order) connectionId

/-- Every connection that the round closes has a cause. -/
def Lawful (tracker : ClientTracker) (action : Action) : Prop :=
  ∀ after, tracker.step action = some after → ∀ connectionId, .connectionClosed connectionId ∈
      after.transportEvents.drop tracker.transportEvents.length →
    Cause tracker action connectionId

/-- A joined task finds its own connection under its key, or none. -/
def JoinsOwn (tracker : ClientTracker) : Action → Prop
  | .join connectionId =>
    ∀ task ∈ tracker.endedTask connectionId, task.ended ≠ some .panicked →
      ∀ holder ∈ tracker.holder task.key, holder = connectionId
  | _ => True

/-! ### One round -/

variable {tracker after : ClientTracker} {action : Action}

/-- A round closes nothing without a cause, unless it joins a task. -/
theorem evolves_step (consistent : Consistent tracker) (stepped : tracker.step action = some after) :
    Evolves (fun connectionId => (∀ joined, action ≠ .join joined) →
      Cause tracker action connectionId) tracker after := by
  cases action with
  | envelope envelope now randomStreamId sent =>
    cases stepped
    refine evolves_handleMessage tracker now (fun event connectionId held _ => ?_) fun starts lost _ =>
      .undelivered starts lost
    have opened := (consistent.held _ _ held).1
    exact event.elim (.clientClosed · opened) (.replaced · opened)
  | disconnect | cancelShutdown =>
    cases stepped
    exact evolves_unseen rfl rfl rfl
  | taskEnds =>
    rw [ClientTracker.step] at stepped
    split at stepped <;> cases stepped
    exact evolves_unseen rfl rfl rfl
  | join joined =>
    rw [ClientTracker.step] at stepped
    split at stepped
    · cases stepped
    · rename_i task _
      have erased : Evolves (fun connectionId => (∀ other, Action.join joined ≠ .join other) →
          Cause tracker (.join joined) connectionId) tracker
          { tracker with joinSet := tracker.joinSet.erase task } := evolves_unseen rfl rfl rfl
      simp only at stepped
      split at stepped <;> cases stepped
      · exact erased
      · exact erased.trans (evolves_closeClient _ fun _ _ other => absurd rfl (other joined))
  | idleSweep now =>
    rw [ClientTracker.step] at stepped
    split at stepped
    · rename_i listed
      cases stepped
      refine evolves_closeClients tracker fun clientKey taken connectionId held _ => ?_
      have collected := listed.mem_iff.mp (mem_of_mem_take taken)
      obtain ⟨client, known, rfl⟩ := map_eq_some_iff.mp held
      rw [expiredClients, mem_filter, known] at collected
      exact .expired known (by simpa using collected.2)
    · cases stepped
  | shutdown order =>
    rw [ClientTracker.step] at stepped
    split at stepped <;> cases stepped
    have cancelled : Evolves (fun connectionId => (∀ joined, Action.shutdown order ≠ .join joined) →
        Cause tracker (.shutdown order) connectionId) tracker { tracker with shutdownCancelled := true } :=
      evolves_unseen rfl rfl rfl
    refine (cancelled.trans (evolves_closeClients _ fun _ _ connectionId _ _ => ?_)).trans
      (evolves_unseen rfl rfl rfl)
    exact .shutdown order connectionId

/-- Every step of the tracker keeps the books. -/
theorem consistent_step (consistent : Consistent tracker)
    (stepped : tracker.step action = some after) : Consistent after :=
  consistent_evolves (evolves_step consistent stepped) consistent

/-- The join of a task closes what its key holds, whichever connection that is.  It is lawful if
this is its own connection, or none. -/
theorem lawful_join_iff (tracker : ClientTracker) (joined : Nat) :
    Lawful tracker (.join joined) ↔ JoinsOwn tracker (.join joined) := by
  have caused (connectionId : Nat) :
      Cause tracker (.join joined) connectionId ↔ connectionId = joined := by
    constructor
    · rintro ⟨⟩
      rfl
    · rintro rfl
      exact .taskEnded _
  unfold Lawful JoinsOwn
  cases found : tracker.endedTask joined with
  | none => simp [ClientTracker.step, found]
  | some task =>
    by_cases panicked : task.ended = some .panicked
    · simp [ClientTracker.step, found, panicked]
    rcases closeClient_eq { tracker with joinSet := tracker.joinSet.erase task } task.key with
      ⟨same, free⟩ | ⟨connectionId, held, -, -, events⟩
    · have none : tracker.holder task.key = none := free
      simp [ClientTracker.step, found, panicked, same, none]
    · have some : tracker.holder task.key = some connectionId := held
      simp [ClientTracker.step, found, panicked, events, some, caused]

/-- A round is lawful exactly if it is not the join of an old task. -/
theorem lawful_iff (consistent : Consistent tracker) (action : Action) :
    Lawful tracker action ↔ JoinsOwn tracker action := by
  have lawful (other : ∀ joined, action ≠ .join joined) : Lawful tracker action := by
    intro after stepped connectionId mem
    obtain ⟨sent, events, caused⟩ := (evolves_step consistent stepped).closes
    rw [events, drop_left] at mem
    exact caused connectionId (mem_closedConnections.mpr mem) other
  cases action with
  | join joined => exact lawful_join_iff tracker joined
  | _ => exact iff_of_true (lawful nofun) trivial

/-! ### Whole runs -/

theorem consistent_initial : Consistent {} := by
  refine ⟨?_, ?_, nodup_nil⟩
  · exact nofun
  · exact nofun

/-- In every interleaving no connection is closed twice, and every close has its cause
exactly if no task is joined while a newer connection holds its key. -/
theorem closes_lawful_iff (actions : List Action) : (Along ClientTracker.step Lawful {} actions ∧
      ∀ final, execute ClientTracker.step {} actions = some final →
        (closedConnections final.transportEvents).Nodup) ↔
    Along ClientTracker.step JoinsOwn {} actions := by
  have lawful : Along ClientTracker.step Lawful {} actions ↔
      Along ClientTracker.step JoinsOwn {} actions :=
    along_congr Consistent (fun _ _ _ consistent stepped => consistent_step consistent stepped)
      (fun _ action consistent => lawful_iff consistent action) consistent_initial
  have once : ∀ final, execute ClientTracker.step {} actions = some final →
      (closedConnections final.transportEvents).Nodup := by
    intro final ran
    have always : Along ClientTracker.step (fun _ _ => True) {} actions :=
      along_of_forall (fun _ _ => trivial) _ actions
    have consistent : Consistent final := execute_invariant Consistent
      (fun _ _ _ consistent _ stepped => consistent_step consistent stepped) consistent_initial
      always ran
    exact consistent.once
  rw [lawful]
  exact and_iff_left once

/-- Two initializes for one key; then the task of the first connection, which the second
initialize disconnected, ends and is joined. -/
def staleJoin : List Action :=
  let starting : ClientEnvelope :=
    { event := .clientMessage (.request "initialize")
      clientId := "client"
      streamId := some "stream"
      seqId := some 0 }
  [.envelope starting 0 "" {}, .envelope starting 1 "" {}, .taskEnds 0 .disconnected, .join 0]

/-- The join closes the second connection, which nothing asked to close. -/
theorem staleJoin_closes_newer :
    (execute ClientTracker.step {} staleJoin).map ClientTracker.transportEvents = some
          [.connectionOpened 0 ⟨"client", "stream"⟩, .incomingMessage 0 (.request "initialize"),
            .connectionClosed 0,
            .connectionOpened 1 ⟨"client", "stream"⟩, .incomingMessage 1 (.request "initialize"),
            .connectionClosed 1] ∧
      ¬ Along ClientTracker.step Lawful {} staleJoin := by
  refine ⟨by decide, ?_⟩
  rintro ⟨-, -, -, lawful, -⟩
  have closed : (.connectionClosed 1) ∈ [TransportEvent.connectionClosed 1] := by simp
  cases lawful _ rfl 1 closed

end WeaveCodex.RemoteControl
