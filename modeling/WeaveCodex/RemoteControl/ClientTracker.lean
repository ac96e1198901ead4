/-
Purpose: The clients of remote control: which connection is open under which client and
  stream, the outbound task of each connection, and the reader that handles envelopes,
  joins ended tasks and sweeps idle clients.  One action is one round of the reader, or one
  move of a task or of the app server between two rounds.
Trusted boundary: translation of
  `app-server-transport/src/transport/remote_control/client_tracker.rs` and of the loop of
  `run_websocket_reader_inner`; whether a transport event could be sent, the clock, random
  stream ids and the order of hash maps are arguments of the actions, messages are their
  methods, and the pongs and forwarded messages of the outbound tasks are left out
-/
import Mathlib.Data.List.AList
import Mathlib.Data.String.Basic
import WeaveCodex.Library.StepRuns

namespace WeaveCodex.RemoteControl

/-! ### Envelopes and events -/

structure ClientKey where
  clientId : String
  streamId : String
deriving DecidableEq, Repr

inductive JSONRPCMessage where
  | request (method : String)
  | notification (method : String)
  | response | error
deriving DecidableEq, Repr

inductive ClientEvent where
  | clientMessage (message : JSONRPCMessage)
  | clientMessageChunk | ack | ping | clientClosed
deriving DecidableEq, Repr

structure ClientEnvelope where
  event : ClientEvent
  clientId : String
  streamId : Option String
  seqId : Option Nat
deriving DecidableEq, Repr

/-- The writer of an opened connection is read by the outbound task of a client key. -/
inductive TransportEvent where
  | connectionOpened (connectionId : Nat) (writer : ClientKey)
  | connectionClosed (connectionId : Nat)
  | incomingMessage (connectionId : Nat) (message : JSONRPCMessage)
deriving DecidableEq, Repr

inductive Stopped where
  | stopped
deriving DecidableEq, Repr

def remoteControlMessageStartsConnection : JSONRPCMessage → Bool
  | .request method => method = "initialize"
  | _ => false

/-- `is_initialize`. -/
def ClientEvent.isInitialize : ClientEvent → Bool
  | .clientMessage message => remoteControlMessageStartsConnection message
  | _ => false

/-! ### The tracker -/

structure ClientState where
  connectionId : Nat
  /-- In seconds. -/
  lastActivityAt : Nat
  lastInboundSeqId : Option Nat := none
deriving DecidableEq, Repr

/-- The message with this id was forwarded before. -/
def ClientState.hasReceived (client : ClientState) (seqId : Option Nat) : Bool :=
  match seqId, client.lastInboundSeqId with
  | some seqId, some lastSeqId => seqId ≤ lastSeqId
  | _, _ => false

/-- Why `run_client_outbound` ended. -/
inductive TaskEnd where
  | disconnected | writerDropped | statusDropped | serverEventsClosed | panicked
deriving DecidableEq, Repr

/-- A task of the join set; it returns only its client key. -/
structure OutboundTask where
  key : ClientKey
  connectionId : Nat
  ended : Option TaskEnd := none
deriving DecidableEq, Repr

structure ClientTracker where
  clients : AList fun _ : ClientKey => ClientState := ∅
  legacyStreamIds : AList fun _ : String => String := ∅
  joinSet : List OutboundTask := []
  /-- The connections whose disconnect token is cancelled. -/
  disconnected : List Nat := []
  /-- The shutdown token, the parent of all disconnect tokens, is cancelled. -/
  shutdownCancelled : Bool := false
  /-- `CONNECTION_ID_COUNTER`. -/
  nextConnectionId : Nat := 0
  /-- What was sent to the app server, oldest first. -/
  transportEvents : List TransportEvent := []

/-- Which sends of a round the app server takes in time. -/
structure Deliveries where
  opened : Bool := true
  incoming : Bool := true
  closed : Bool := true
deriving DecidableEq, Repr

namespace ClientTracker

variable (tracker : ClientTracker) (clientKey : ClientKey) (connectionId : Nat)

def emit (event : TransportEvent) : ClientTracker :=
  { tracker with transportEvents := tracker.transportEvents ++ [event] }

/-- `send_transport_event`; an event that is not taken in time is not sent. -/
def sendTransportEvent (event : TransportEvent) (delivered : Bool) :
    ClientTracker × Except Stopped Unit :=
  if delivered then (tracker.emit event, .ok ()) else (tracker, .error .stopped)

/-- `disconnect_token.cancel()`. -/
def disconnect : ClientTracker :=
  { tracker with disconnected := connectionId :: tracker.disconnected }

def removeClient : Option (ClientState × ClientTracker) :=
  match tracker.clients.lookup clientKey with
  | none => none
  | some client =>
    let legacyStreamIds :=
      if tracker.legacyStreamIds.lookup clientKey.clientId = some clientKey.streamId then
        tracker.legacyStreamIds.erase clientKey.clientId
      else tracker.legacyStreamIds
    some (client, { tracker with clients := tracker.clients.erase clientKey, legacyStreamIds })

/-- `close_client`. The event is sent by a task of its own, so it is sent whatever becomes
of the caller. -/
def closeClient : ClientTracker :=
  match tracker.removeClient clientKey with
  | none => tracker
  | some (client, tracker) =>
    (tracker.disconnect client.connectionId).emit (.connectionClosed client.connectionId)

/-- A change of the state of a client. -/
def updateClient (change : ClientState → ClientState) : ClientTracker :=
  match tracker.clients.lookup clientKey with
  | none => tracker
  | some client => { tracker with clients := tracker.clients.insert clientKey (change client) }

def recordInboundMessageDelivery (seqId : Option Nat) : ClientTracker :=
  match seqId with
  | none => tracker
  | some seqId => tracker.updateClient clientKey ({ · with lastInboundSeqId := some seqId })

/-- The stream of an envelope. An initialize without one takes the legacy stream of its
client out of the map. -/
def resolveStreamId (envelope : ClientEnvelope) (randomStreamId : String) : String × ClientTracker :=
  match envelope.streamId with
  | some streamId => (streamId, tracker)
  | none =>
    let legacy := tracker.legacyStreamIds.lookup envelope.clientId
    if envelope.event.isInitialize then
      (legacy.getD randomStreamId,
        { tracker with
          legacyStreamIds := tracker.legacyStreamIds.erase envelope.clientId })
    else (legacy.getD (if envelope.event = .ping then randomStreamId else ""), tracker)

/-- The outbound task of a new connection is spawned and the client is known. -/
def registerClient (isLegacyStreamId : Bool) (now : Nat) : ClientTracker :=
  { tracker with
    joinSet := tracker.joinSet ++ [{ key := clientKey, connectionId }]
    clients := tracker.clients.insert clientKey
      ({ connectionId, lastActivityAt := now } : ClientState)
    legacyStreamIds :=
      if isLegacyStreamId then
        tracker.legacyStreamIds.insert clientKey.clientId clientKey.streamId
      else tracker.legacyStreamIds }

/-- The part of `handle_message` that opens a connection and forwards its initialize. -/
def openConnection (message : JSONRPCMessage)
    (isLegacyStreamId : Bool) (seqId : Option Nat) (now : Nat) (sent : Deliveries) :
    ClientTracker × Except Stopped Unit :=
  let connectionId := tracker.nextConnectionId
  let tracker := { tracker with nextConnectionId := connectionId + 1 }
  match tracker.sendTransportEvent (.connectionOpened connectionId clientKey) sent.opened with
  | (tracker, .error failure) => (tracker, .error failure)
  | (tracker, .ok ()) =>
    let tracker := tracker.registerClient clientKey connectionId isLegacyStreamId now
    match tracker.sendTransportEvent (.incomingMessage connectionId message) sent.incoming with
    | (tracker, .error failure) => (tracker.closeClient clientKey, .error failure)
    | (tracker, .ok ()) =>
      (if isLegacyStreamId then tracker
        else tracker.recordInboundMessageDelivery clientKey seqId, .ok ())

/-- A message for a client key: duplicates are skipped, an initialize replaces the open
connection, other messages need one. -/
def handleClientMessage
    (message : JSONRPCMessage) (isLegacyStreamId : Bool) (seqId : Option Nat) (now : Nat)
    (sent : Deliveries) : ClientTracker × Except Stopped Unit :=
  if remoteControlMessageStartsConnection message then
    let replaced := tracker.clients.lookup clientKey
    let tracker := tracker.closeClient clientKey
    if replaced.isSome && !sent.closed then (tracker, .error .stopped)
    else tracker.openConnection clientKey message isLegacyStreamId seqId now sent
  else
    match tracker.clients.lookup clientKey with
    | none => (tracker, .ok ())
    | some client =>
      if client.hasReceived seqId then (tracker, .ok ())
      else
        let tracker := tracker.updateClient clientKey ({ · with lastActivityAt := now })
        match tracker.sendTransportEvent (.incomingMessage client.connectionId message)
            sent.incoming with
        | (tracker, .error failure) => (tracker, .error failure)
        | (tracker, .ok ()) => (tracker.recordInboundMessageDelivery clientKey seqId, .ok ())

def handleMessage (envelope : ClientEnvelope) (now : Nat)
    (randomStreamId : String) (sent : Deliveries) : ClientTracker × Except Stopped Unit :=
  let isLegacyStreamId := envelope.streamId.isNone
  let (streamId, tracker) := tracker.resolveStreamId envelope randomStreamId
  if streamId = "" then (tracker, .ok ())
  else
    let clientKey : ClientKey := { clientId := envelope.clientId, streamId }
    match envelope.event with
    | .clientMessage message =>
      tracker.handleClientMessage clientKey message isLegacyStreamId envelope.seqId now sent
    | .clientMessageChunk | .ack => (tracker, .ok ())
    | .ping => (tracker.updateClient clientKey ({ · with lastActivityAt := now }), .ok ())
    | .clientClosed =>
      (tracker.closeClient clientKey,
        if (tracker.clients.lookup clientKey).isSome && !sent.closed then .error .stopped
        else .ok ())

/-- `REMOTE_CONTROL_CLIENT_IDLE_TIMEOUT`. -/
def remoteControlClientIdleTimeout : Nat := 10 * 60

def remoteControlClientIsAlive (client : ClientState) (now : Nat) : Bool :=
  now - client.lastActivityAt < remoteControlClientIdleTimeout

/-- The keys that the idle sweep collects. -/
def expiredClients (now : Nat) : List ClientKey :=
  tracker.clients.keys.filter fun clientKey =>
    (tracker.clients.lookup clientKey).any fun client => !remoteControlClientIsAlive client now

def closeClients (clientKeys : List ClientKey) : ClientTracker :=
  clientKeys.foldl closeClient tracker

/-- What makes an outbound task end. -/
def TaskEnd.Enabled : TaskEnd → Prop
  | .disconnected => tracker.shutdownCancelled = true ∨ connectionId ∈ tracker.disconnected
  | .statusDropped =>
    ∀ clientKey ∈ tracker.clients.keys,
      (tracker.clients.lookup clientKey).map ClientState.connectionId ≠ some connectionId
  | _ => True

instance (tracker : ClientTracker) (connectionId : Nat) (cause : TaskEnd) :
    Decidable (TaskEnd.Enabled tracker connectionId cause) := by
  cases cause <;> unfold TaskEnd.Enabled <;> infer_instance

end ClientTracker

/-! ### Interleavings -/

inductive Action where
  /-- The reader handles an envelope. -/
  | envelope (envelope : ClientEnvelope) (now : Nat) (randomStreamId : String) (sent : Deliveries)
  /-- The app server cancels the disconnect token of a connection. -/
  | disconnect (connectionId : Nat)
  /-- The shutdown token is cancelled. -/
  | cancelShutdown
  /-- The outbound task of a connection ends. -/
  | taskEnds (connectionId : Nat) (cause : TaskEnd)
  /-- `bookkeep_join_set` yields the ended task of a connection. -/
  | join (connectionId : Nat)
  /-- `close_expired_clients`, which stops early if the app server is gone. -/
  | idleSweep (now : Nat) (expired : List ClientKey) (handled : Nat)
  /-- `shutdown`, with the order in which it takes the clients. -/
  | shutdown (order : List ClientKey)
deriving DecidableEq, Repr

namespace ClientTracker

variable (tracker : ClientTracker)

/-- The task that a join finds. -/
def endedTask (connectionId : Nat) : Option OutboundTask :=
  tracker.joinSet.find? fun task => task.connectionId = connectionId && task.ended.isSome

def isRunning (connectionId : Nat) : Bool :=
  tracker.joinSet.any fun task => task.connectionId = connectionId && task.ended.isNone

def step : Action → Option ClientTracker
  | .envelope envelope now randomStreamId sent =>
    some (tracker.handleMessage envelope now randomStreamId sent).1
  | .disconnect connectionId => some (tracker.disconnect connectionId)
  | .cancelShutdown => some { tracker with shutdownCancelled := true }
  | .taskEnds connectionId cause =>
    if tracker.isRunning connectionId ∧ TaskEnd.Enabled tracker connectionId cause then
      some
        { tracker with
          joinSet := tracker.joinSet.map fun task =>
            if task.connectionId = connectionId then { task with ended := some cause } else task }
    else none
  | .join connectionId =>
    match tracker.endedTask connectionId with
    | none => none
    | some task =>
      let tracker := { tracker with joinSet := tracker.joinSet.erase task }
      -- A task that panicked has no result, so its key is not known.
      if task.ended = some .panicked then some tracker else some (tracker.closeClient task.key)
  | .idleSweep now expired handled =>
    if expired.Perm (tracker.expiredClients now) then
      some (tracker.closeClients (expired.take handled))
    else none
  | .shutdown order =>
    if order.Perm tracker.clients.keys then
      some { { tracker with shutdownCancelled := true }.closeClients order with joinSet := [] }
    else none

end ClientTracker

end WeaveCodex.RemoteControl
