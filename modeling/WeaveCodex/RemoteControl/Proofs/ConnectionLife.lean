/-
Purpose: What a round can do to connections, said once: it opens one with a new id or closes
  one that a key holds.  From this, every connection has one key, and is closed at most once.
-/
import WeaveCodex.RemoteControl.ClientTracker

namespace WeaveCodex.RemoteControl

namespace ClientTracker

variable {tracker before after : ClientTracker} {clientKey : ClientKey}

/-- The connection that is open under a key. -/
def holder (tracker : ClientTracker) (clientKey : ClientKey) : Option Nat :=
  (tracker.clients.lookup clientKey).map ClientState.connectionId

end ClientTracker

open ClientTracker Option Function Nat List

/-- The connections that were closed, in the order of the events. -/
def closedConnections (events : List TransportEvent) : List Nat :=
  events.filterMap fun
    | .connectionClosed connectionId => some connectionId
    | _ => none

/-- `before` becomes `after`, and no connection is closed but those that may be. -/
inductive Evolves (MayClose : Nat → Prop) : ClientTracker → ClientTracker → Prop where
  | quiet {before after : ClientTracker} {sent : List TransportEvent}
      (holders : after.holder = before.holder)
      (next : before.nextConnectionId ≤ after.nextConnectionId)
      (events : after.transportEvents = before.transportEvents ++ sent)
      (silent : closedConnections sent = []) : Evolves MayClose before after
  | opened {before after : ClientTracker} {clientKey : ClientKey}
      (holders : after.holder = update before.holder clientKey (some before.nextConnectionId))
      (next : after.nextConnectionId = before.nextConnectionId + 1)
      (events : after.transportEvents = before.transportEvents ++
        [.connectionOpened before.nextConnectionId clientKey]) : Evolves MayClose before after
  | closed {before after : ClientTracker} {clientKey : ClientKey} {connectionId : Nat}
      (may : MayClose connectionId) (held : before.holder clientKey = some connectionId)
      (holders : after.holder = update before.holder clientKey none)
      (next : after.nextConnectionId = before.nextConnectionId)
      (events : after.transportEvents = before.transportEvents ++ [.connectionClosed connectionId]) :
      Evolves MayClose before after
  | trans {first second third : ClientTracker} (one : Evolves MayClose first second)
      (two : Evolves MayClose second third) : Evolves MayClose first third

variable {MayClose : Nat → Prop} {sent : List TransportEvent} {before after : ClientTracker}
  {connectionId : Nat} {clientKey : ClientKey}

theorem mem_closedConnections {events : List TransportEvent} :
    connectionId ∈ closedConnections events ↔ .connectionClosed connectionId ∈ events := by
  rw [closedConnections, mem_filterMap]
  constructor
  · rintro ⟨event, mem, isClosed⟩
    cases event <;> cases isClosed
    exact mem
  · exact fun mem => ⟨_, mem, rfl⟩

theorem closedConnections_append (events sent : List TransportEvent) :
    closedConnections (events ++ sent) = closedConnections events ++ closedConnections sent :=
  filterMap_append

theorem Evolves.closes (evolves : Evolves MayClose before after) :
    ∃ sent, after.transportEvents = before.transportEvents ++ sent ∧
      ∀ connectionId ∈ closedConnections sent, MayClose connectionId := by
  induction evolves with
  | quiet _ _ events silent => exact ⟨_, events, by simp [silent]⟩
  | opened _ _ events => exact ⟨_, events, by simp [closedConnections]⟩
  | closed may _ _ _ events => exact ⟨_, events, by simpa [closedConnections] using may⟩
  | trans _ _ inductionOne inductionTwo =>
    obtain ⟨first, firstSent, firstMay⟩ := inductionOne
    obtain ⟨second, secondSent, secondMay⟩ := inductionTwo
    refine ⟨first ++ second, by rw [secondSent, firstSent, append_assoc], ?_⟩
    rw [closedConnections_append]
    exact forall_mem_append.mpr ⟨firstMay, secondMay⟩

/-! ### Consistent trackers -/

/-- Every open connection was opened under the one key that holds it and was not closed, ids are
not used twice, and no connection was closed twice. -/
structure Consistent (tracker : ClientTracker) : Prop where
  held : ∀ clientKey connectionId, tracker.holder clientKey = some connectionId →
    .connectionOpened connectionId clientKey ∈ tracker.transportEvents ∧
      connectionId ∉ closedConnections tracker.transportEvents ∧
      connectionId < tracker.nextConnectionId ∧
      ∀ other, tracker.holder other = some connectionId → other = clientKey
  closed : ∀ connectionId ∈ closedConnections tracker.transportEvents,
    connectionId < tracker.nextConnectionId
  once : (closedConnections tracker.transportEvents).Nodup

theorem consistent_quiet (consistent : Consistent before) (holders : after.holder = before.holder)
    (next : before.nextConnectionId ≤ after.nextConnectionId)
    (events : after.transportEvents = before.transportEvents ++ sent)
    (silent : closedConnections sent = []) : Consistent after := by
  have same : closedConnections after.transportEvents =
      closedConnections before.transportEvents := by
    rw [events, closedConnections_append, silent, append_nil]
  refine ⟨?_, ?_, same ▸ consistent.once⟩
  · rw [same, holders, events]
    intro clientKey connectionId held
    obtain ⟨opened, live, below, sole⟩ := consistent.held clientKey connectionId held
    exact ⟨mem_append_left _ opened, live, below.trans_le next, sole⟩
  · rw [same]
    exact fun connectionId mem => (consistent.closed connectionId mem).trans_le next

/-- Opening a connection with the next number keeps the books. -/
theorem consistent_opened (consistent : Consistent before) (holders : after.holder =
      update before.holder clientKey (some before.nextConnectionId))
    (next : after.nextConnectionId = before.nextConnectionId + 1)
    (events : after.transportEvents = before.transportEvents ++
      [.connectionOpened before.nextConnectionId clientKey]) :
    Consistent after := by
  have same : closedConnections after.transportEvents =
      closedConnections before.transportEvents := by
    rw [events, closedConnections_append]
    exact append_nil _
  -- No key held the id that the new connection gets.
  have new {other : ClientKey} : before.holder other ≠ some before.nextConnectionId :=
    fun held => lt_irrefl _ (consistent.held other _ held).2.2.1
  refine ⟨?_, ?_, same ▸ consistent.once⟩
  · rw [same, holders, events, next]
    intro other connectionId held
    simp only [update_apply] at held ⊢
    split at held
    · rename_i isKey
      cases held
      refine ⟨by simp [isKey], fun mem => lt_irrefl _ (consistent.closed _ mem), lt_succ_self _, ?_⟩
      intro third heldToo
      split at heldToo
      · rename_i isKeyToo
        rw [isKey, isKeyToo]
      · exact absurd heldToo new
    · obtain ⟨opened, live, below, sole⟩ := consistent.held other connectionId held
      refine ⟨mem_append_left _ opened, live, lt_succ_of_lt below, ?_⟩
      intro third heldToo
      split at heldToo
      · cases heldToo
        exact absurd held new
      · exact sole third heldToo
  · rw [same, next]
    exact fun connectionId mem => lt_succ_of_lt (consistent.closed connectionId mem)

/-- Closing the connection that a client holds keeps the books. -/
theorem consistent_closed (consistent : Consistent before)
    (held : before.holder clientKey = some connectionId)
    (holders : after.holder = update before.holder clientKey none)
    (next : after.nextConnectionId = before.nextConnectionId)
    (events : after.transportEvents = before.transportEvents ++ [.connectionClosed connectionId]) :
    Consistent after := by
  obtain ⟨_, live, below, sole⟩ := consistent.held clientKey connectionId held
  have closed : closedConnections after.transportEvents =
      closedConnections before.transportEvents ++ [connectionId] := by
    rw [events, closedConnections_append]
    rfl
  refine ⟨?_, ?_, ?_⟩
  · rw [closed, holders, events, next]
    intro other otherId heldOther
    simp only [update_apply] at heldOther ⊢
    split at heldOther
    · cases heldOther
    · rename_i apart
      obtain ⟨opened, otherLive, otherBelow, otherSole⟩ := consistent.held other otherId heldOther
      refine ⟨mem_append_left _ opened, ?_, otherBelow, ?_⟩
      · rw [mem_append, mem_singleton]
        rintro (earlier | rfl)
        · exact otherLive earlier
        · exact apart (sole other heldOther)
      · intro third heldToo
        split at heldToo
        · cases heldToo
        · exact otherSole third heldToo
  · rw [closed, next]
    exact forall_mem_append.mpr ⟨consistent.closed, forall_mem_singleton.mpr below⟩
  · rw [closed]
    exact consistent.once.append (nodup_singleton _) (disjoint_singleton.mpr live)

theorem consistent_evolves (evolves : Evolves MayClose before after) (consistent : Consistent before) :
    Consistent after := by
  induction evolves with
  | quiet holders next events silent => exact consistent_quiet consistent holders next events silent
  | opened holders next events => exact consistent_opened consistent holders next events
  | closed _ held holders next events => exact consistent_closed consistent held holders next events
  | trans _ _ inductionOne inductionTwo => exact inductionTwo (inductionOne consistent)

/-! ### What the operations do -/

theorem evolves_refl (tracker : ClientTracker) : Evolves MayClose tracker tracker :=
  .quiet rfl (le_refl _) (append_nil _).symm rfl

/-- Nothing but what concerns no connection was changed. -/
theorem evolves_unseen (clients : after.clients = before.clients)
    (next : after.nextConnectionId = before.nextConnectionId)
    (events : after.transportEvents = before.transportEvents) : Evolves MayClose before after := by
  refine .quiet ?_ next.ge (events.trans (append_nil _).symm) rfl
  funext clientKey
  rw [holder, holder, clients]

variable (tracker : ClientTracker) (clientKey : ClientKey)
include tracker

theorem holder_erase (clients : after.clients = tracker.clients.erase clientKey) :
    after.holder = update tracker.holder clientKey none := by
  funext other
  rw [holder, clients, update_apply]
  split
  · rename_i same
    rw [same, AList.lookup_erase, map_none]
  · rename_i apart
    rw [AList.lookup_erase_ne apart]
    rfl

theorem holder_insert (client : ClientState)
    (clients : after.clients = tracker.clients.insert clientKey client) :
    after.holder = update tracker.holder clientKey (some client.connectionId) := by
  funext other
  rw [holder, clients, update_apply]
  split
  · rename_i same
    rw [same, AList.lookup_insert, map_some]
  · rename_i apart
    rw [AList.lookup_insert_ne apart]
    rfl

theorem evolves_updateClient {change : ClientState → ClientState}
    (kept : ∀ client, (change client).connectionId = client.connectionId) :
    Evolves MayClose tracker (tracker.updateClient clientKey change) := by
  unfold updateClient
  cases found : tracker.clients.lookup clientKey with
  | none => exact evolves_refl tracker
  | some client =>
    refine .quiet ?_ (le_refl _) (append_nil _).symm rfl
    rw [holder_insert tracker clientKey (change client) rfl, kept client]
    have held : tracker.holder clientKey = some client.connectionId := by
      rw [holder, found, map_some]
    rw [← held, update_eq_self]

theorem evolves_recordDelivery (seqId : Option Nat) :
    Evolves MayClose tracker (tracker.recordInboundMessageDelivery clientKey seqId) := by
  cases seqId with
  | none => exact evolves_refl tracker
  | some => exact evolves_updateClient tracker clientKey fun _ => rfl

omit clientKey in
theorem evolves_incoming (connectionId : Nat) (message : JSONRPCMessage) :
    Evolves MayClose tracker (tracker.emit (.incomingMessage connectionId message)) :=
  .quiet rfl (le_refl _) rfl rfl

/-- A key that holds a connection loses it; any other close does nothing. -/
theorem closeClient_eq : tracker.closeClient clientKey = tracker ∧ tracker.holder clientKey = none ∨
    ∃ connectionId, tracker.holder clientKey = some connectionId ∧
      (tracker.closeClient clientKey).holder = update tracker.holder clientKey none ∧
      (tracker.closeClient clientKey).nextConnectionId = tracker.nextConnectionId ∧
      (tracker.closeClient clientKey).transportEvents =
        tracker.transportEvents ++ [.connectionClosed connectionId] := by
  unfold closeClient removeClient
  cases found : tracker.clients.lookup clientKey with
  | none => exact .inl ⟨rfl, by rw [holder, found, map_none]⟩
  | some client =>
    exact .inr ⟨client.connectionId, by rw [holder, found, map_some],
      holder_erase tracker clientKey rfl, rfl, rfl⟩

theorem next_closeClient :
    (tracker.closeClient clientKey).nextConnectionId = tracker.nextConnectionId := by
  rcases closeClient_eq tracker clientKey with ⟨same, -⟩ | ⟨_, -, -, next, -⟩
  · rw [same]
  · exact next

variable {clientKey}

theorem evolves_closeClient
    (may : ∀ connectionId, tracker.holder clientKey = some connectionId → MayClose connectionId) :
    Evolves MayClose tracker (tracker.closeClient clientKey) := by
  rcases closeClient_eq tracker clientKey with ⟨same, -⟩ | ⟨connectionId, held, holders, next, events⟩
  · rw [same]
    exact evolves_refl tracker
  · exact .closed (may connectionId held) held holders next events

omit tracker

/-- Closing several clients closes the connections that their keys held. -/
theorem evolves_closeClients (tracker : ClientTracker) {clientKeys : List ClientKey}
    (may : ∀ clientKey ∈ clientKeys, ∀ connectionId, tracker.holder clientKey = some connectionId →
      MayClose connectionId) : Evolves MayClose tracker (tracker.closeClients clientKeys) := by
  induction clientKeys generalizing tracker with
  | nil => exact evolves_refl tracker
  | cons clientKey _ ih =>
    rw [forall_mem_cons] at may
    refine (evolves_closeClient tracker may.1).trans (ih _ fun other listed connectionId held => ?_)
    refine may.2 other listed connectionId ?_
    rcases closeClient_eq tracker clientKey with ⟨same, -⟩ | ⟨_, -, holders, -⟩
    · rwa [same] at held
    · rw [holders, update_apply] at held
      split at held
      · cases held
      · exact held

/-- A new connection is closed in its own round only if its initialize is not delivered. -/
theorem evolves_openConnection (tracker : ClientTracker) (message : JSONRPCMessage)
    (isLegacyStreamId : Bool) (seqId : Option Nat) (now : Nat) {sent : Deliveries}
    (may : sent.incoming = false → MayClose tracker.nextConnectionId) :
    Evolves MayClose tracker
      (tracker.openConnection clientKey message isLegacyStreamId seqId now sent).1 := by
  unfold openConnection
  cases sent.opened with
  | false => exact .quiet rfl (le_succ _) (append_nil _).symm rfl
  | true =>
    let registered := (({ tracker with nextConnectionId := tracker.nextConnectionId + 1 } :
      ClientTracker).emit (.connectionOpened tracker.nextConnectionId clientKey)).registerClient
        clientKey tracker.nextConnectionId isLegacyStreamId now
    have holders : registered.holder =
        update tracker.holder clientKey (some tracker.nextConnectionId) :=
      holder_insert tracker clientKey
        { connectionId := tracker.nextConnectionId, lastActivityAt := now } rfl
    have opening : Evolves MayClose tracker registered := .opened holders rfl rfl
    cases incoming : sent.incoming with
    | false =>
      refine opening.trans (evolves_closeClient registered fun connectionId held => ?_)
      rw [holders, update_self] at held
      cases held
      exact may incoming
    | true =>
      refine opening.trans ((evolves_incoming registered tracker.nextConnectionId message).trans ?_)
      cases isLegacyStreamId with
      | true => exact evolves_refl _
      | false => exact evolves_recordDelivery _ clientKey seqId

/-- A message closes the connection that an initialize replaces, and the new one if its
initialize is not delivered. -/
theorem evolves_handleClientMessage (tracker : ClientTracker) {message : JSONRPCMessage}
    (isLegacyStreamId : Bool) (seqId : Option Nat) (now : Nat) {sent : Deliveries}
    (may : remoteControlMessageStartsConnection message = true →
      (∀ connectionId, tracker.holder clientKey = some connectionId → MayClose connectionId) ∧
        (sent.incoming = false → MayClose tracker.nextConnectionId)) :
    Evolves MayClose tracker
      (tracker.handleClientMessage clientKey message isLegacyStreamId seqId now sent).1 := by
  unfold handleClientMessage
  by_cases starts : remoteControlMessageStartsConnection message = true
  · rw [if_pos starts]
    obtain ⟨replaced, lost⟩ := may starts
    have closing := evolves_closeClient tracker replaced
    simp only
    split
    · exact closing
    · refine closing.trans (evolves_openConnection _ message isLegacyStreamId seqId now ?_)
      rwa [next_closeClient]
  · rw [if_neg starts]
    cases tracker.clients.lookup clientKey with
    | none => exact evolves_refl tracker
    | some client =>
      simp only
      split
      · exact evolves_refl tracker
      · have touched : Evolves MayClose tracker (tracker.updateClient clientKey fun client =>
            { client with lastActivityAt := now }) :=
          evolves_updateClient tracker clientKey fun _ => rfl
        cases sent.incoming with
        | false => exact touched
        | true =>
          exact touched.trans ((evolves_incoming _ client.connectionId message).trans
            (evolves_recordDelivery _ clientKey seqId))

/-- The client key of an envelope. -/
def ClientTracker.addressed (tracker : ClientTracker) (envelope : ClientEnvelope)
    (randomStreamId : String) : ClientKey :=
  { clientId := envelope.clientId
    streamId := (tracker.resolveStreamId envelope randomStreamId).1 }

/-- What an envelope closes is the connection of its key, at the word of the client or for
an initialize, or a new one whose initialize is not delivered. -/
theorem evolves_handleMessage (tracker : ClientTracker) {envelope : ClientEnvelope} (now : Nat)
    {randomStreamId : String} {sent : Deliveries}
    (held : envelope.event = .clientClosed ∨ envelope.event.isInitialize = true →
      ∀ connectionId, tracker.holder (tracker.addressed envelope randomStreamId) = some connectionId →
        MayClose connectionId)
    (lost : envelope.event.isInitialize = true → sent.incoming = false →
      MayClose tracker.nextConnectionId) :
    Evolves MayClose tracker (tracker.handleMessage envelope now randomStreamId sent).1 := by
  have resolving : Evolves MayClose tracker (tracker.resolveStreamId envelope randomStreamId).2 ∧
      (tracker.resolveStreamId envelope randomStreamId).2.holder = tracker.holder ∧
      (tracker.resolveStreamId envelope randomStreamId).2.nextConnectionId =
        tracker.nextConnectionId := by
    unfold resolveStreamId
    split
    · exact ⟨evolves_refl tracker, rfl, rfl⟩
    · simp only
      split
      · exact ⟨evolves_unseen rfl rfl rfl, rfl, rfl⟩
      · exact ⟨evolves_refl tracker, rfl, rfl⟩
  obtain ⟨resolved, holders, next⟩ := resolving
  rw [addressed, ← holders] at held
  rw [← next] at lost
  unfold handleMessage
  simp only
  split
  · exact resolved
  · cases kind : envelope.event with
    | clientMessage message =>
      rw [kind] at held lost
      exact resolved.trans (evolves_handleClientMessage _ envelope.streamId.isNone envelope.seqId now
        fun starts => ⟨held (.inr starts), lost starts⟩)
    | clientMessageChunk | ack => exact resolved
    | ping => exact resolved.trans (evolves_updateClient _ _ fun _ => rfl)
    | clientClosed => exact resolved.trans (evolves_closeClient _ (held (.inl kind)))

end WeaveCodex.RemoteControl
