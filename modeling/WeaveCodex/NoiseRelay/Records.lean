/-
Purpose: A stream of JSON-RPC messages over an encrypted relay: framing by a length, records
  of bounded size with sequence numbers, the window in which the receiver puts records back
  into their order, decryption with an implicit nonce, and the decoder of the byte stream.
Trusted boundary: translation of `exec-server/src/noise_relay` (`ordered_ciphertext.rs`,
  `message_framing.rs`, the writer and `receive_data` of `executor_stream.rs`); encryption,
  JSON and the answers of the queue of received messages are parameters
-/
import Mathlib.Algebra.Order.Ring.Nat
import WeaveCodex.Library.SortedMap

namespace WeaveCodex.NoiseRelay

open Library

abbrev Bytes : Type := List UInt8

/-- `u32::MAX`. -/
def maxSequence : Nat := 4294967295

/-! ### Records in order -/

def maxReorderDistance : Nat := 64

def maxPendingBytes : Nat := 1048576

structure OrderedCiphertextFrames where
  nextSeq : Nat := 0
  pending : List (Nat × Bytes) := []
  pendingBytes : Nat := 0
deriving DecidableEq, Repr

namespace OrderedCiphertextFrames

def advance (frames : OrderedCiphertextFrames) : Except String OrderedCiphertextFrames :=
  if frames.nextSeq = maxSequence then .error "Noise relay sequence number exhausted"
  else .ok { frames with nextSeq := frames.nextSeq + 1 }

/-- The loop that releases what follows without a gap. Every turn takes one record from the
buffer, so that the length of the buffer bounds the turns. -/
def release : Nat → OrderedCiphertextFrames → List Bytes →
    Except String (OrderedCiphertextFrames × List Bytes)
  | 0, frames, ready => .ok (frames, ready)
  | turns + 1, frames, ready =>
    match SortedMap.get frames.pending frames.nextSeq with
    | none => .ok (frames, ready)
    | some payload =>
      let removed := { frames with
        pending := SortedMap.erase frames.nextSeq frames.pending
        pendingBytes := frames.pendingBytes - payload.length }
      match removed.advance with
      | .error error => .error error
      | .ok advanced => release turns advanced (ready ++ [payload])

def push (frames : OrderedCiphertextFrames) (seq : Nat) (payload : Bytes) :
    Except String (OrderedCiphertextFrames × List Bytes) :=
  if seq < frames.nextSeq ∨ (SortedMap.get frames.pending seq).isSome then .ok (frames, [])
  else if frames.nextSeq < seq then
    if maxReorderDistance < seq - frames.nextSeq then
      .error "Noise relay ciphertext exceeds reorder window"
    else
      let pendingBytes := frames.pendingBytes + payload.length
      if maxPendingBytes < pendingBytes then
        .error "Noise relay pending ciphertext buffer is full"
      else
        .ok ({ frames with
          pending := SortedMap.insert seq payload frames.pending
          pendingBytes }, [])
  else
    match frames.advance with
    | .error error => .error error
    | .ok advanced => release advanced.pending.length advanced [payload]

/-- All records of a delivery, with what was released. -/
def pushAll (frames : OrderedCiphertextFrames) :
    List (Nat × Bytes) → Except String (OrderedCiphertextFrames × List Bytes)
  | [] => .ok (frames, [])
  | (seq, payload) :: delivery =>
    match frames.push seq payload with
    | .error error => .error error
    | .ok (next, ready) =>
      match next.pushAll delivery with
      | .error error => .error error
      | .ok (last, later) => .ok (last, ready ++ later)

end OrderedCiphertextFrames

/-! ### Messages in a byte stream -/

def lengthPrefixBytes : Nat := 4

def maxNoiseJsonrpcMessageLen : Nat := 67108864

def noiseRecordPlaintextLen : Nat := 61440

/-- `u32::to_be_bytes`. -/
def toBeBytes (value : Nat) : Bytes :=
  [UInt8.ofNat (value / 16777216), UInt8.ofNat (value / 65536), UInt8.ofNat (value / 256),
    UInt8.ofNat value]

/-- `u32::from_be_bytes`. -/
def fromBeBytes (first second third fourth : UInt8) : Nat :=
  first.toNat * 16777216 + second.toNat * 65536 + third.toNat * 256 + fourth.toNat

/-- `serde_json` for the messages. -/
structure JsonCodec (Message : Type) where
  serialize : Message → Bytes
  deserialize : Bytes → Except String Message

/-- The two directions of a transport; every record takes the next nonce. -/
structure NoiseCipher where
  encrypt : Nat → Bytes → Bytes
  decrypt : Nat → Bytes → Except String Bytes

variable {Message : Type}

def frameJsonrpcMessage (codec : JsonCodec Message) (message : Message) : Except String Bytes :=
  let serialized := codec.serialize message
  if maxNoiseJsonrpcMessageLen < serialized.length then
    .error "Noise relay JSON-RPC message exceeds maximum length"
  else .ok (toBeBytes serialized.length ++ serialized)

/-- The length at the start of the buffer. -/
def declaredLength : Bytes → Option Nat
  | first :: second :: third :: fourth :: _ => some (fromBeBytes first second third fourth)
  | _ => none

/-- The loop of the decoder. Every turn takes more than one byte, so that the length of the
buffer bounds the turns. -/
def decodeMessages (codec : JsonCodec Message) : Nat → Bytes → Except String (List Message × Bytes)
  | 0, buffered => .ok ([], buffered)
  | turns + 1, buffered =>
    match declaredLength buffered with
    | none => .ok ([], buffered)
    | some messageLen =>
      if messageLen = 0 ∨ maxNoiseJsonrpcMessageLen < messageLen then
        .error "Noise relay JSON-RPC message has invalid length"
      else if buffered.length < lengthPrefixBytes + messageLen then .ok ([], buffered)
      else
        match codec.deserialize ((buffered.drop lengthPrefixBytes).take messageLen) with
        | .error error => .error error
        | .ok message =>
          match decodeMessages codec turns (buffered.drop (lengthPrefixBytes + messageLen)) with
          | .error error => .error error
          | .ok (messages, rest) => .ok (message :: messages, rest)

structure JsonRpcMessageDecoder where
  buffered : Bytes := []
deriving DecidableEq, Repr

def JsonRpcMessageDecoder.push (codec : JsonCodec Message) (decoder : JsonRpcMessageDecoder)
    (plaintextRecord : Bytes) : Except String (JsonRpcMessageDecoder × List Message) :=
  if noiseRecordPlaintextLen < plaintextRecord.length then
    .error "Noise relay plaintext record exceeds maximum length"
  else
    let buffered := decoder.buffered ++ plaintextRecord
    match decodeMessages codec buffered.length buffered with
    | .error error => .error error
    | .ok (messages, rest) =>
      if lengthPrefixBytes + maxNoiseJsonrpcMessageLen < rest.length then
        .error "Noise relay JSON-RPC reassembly buffer exceeds maximum length"
      else .ok ({ buffered := rest }, messages)

/-! ### The receiver -/

/-- `CHANNEL_CAPACITY`: so many messages fit into the queue. -/
def channelCapacity : Nat := 128

/-- The messages of one record go to the queue, behind those that went there before; `accepts` is
the answer of `try_send` to the message with this number. -/
def trySendAll (accepts : Nat → Bool) (sent : List Message) : List Message → Except String (List Message)
  | [] => .ok sent
  | message :: messages =>
    if accepts sent.length then trySendAll accepts (sent ++ [message]) messages
    else .error "Noise virtual stream inbound queue is full or closed"

/-- The reading half of a stream, with the record of what it decrypted and passed on. -/
structure NoiseVirtualStream (Message : Type) where
  receiveNonce : Nat := 0
  inboundCiphertexts : OrderedCiphertextFrames := {}
  inboundDecoder : JsonRpcMessageDecoder := {}
  decrypted : List Bytes := []
  messages : List Message := []

namespace NoiseVirtualStream

variable (codec : JsonCodec Message) (cipher : NoiseCipher) (accepts : Nat → Bool)

/-- One released ciphertext. -/
def receiveCiphertext (stream : NoiseVirtualStream Message) (ciphertext : Bytes) :
    Except String (NoiseVirtualStream Message) :=
  match cipher.decrypt stream.receiveNonce ciphertext with
  | .error error => .error ("Noise relay decryption failed: " ++ error)
  | .ok plaintext =>
    match stream.inboundDecoder.push codec plaintext with
    | .error error => .error error
    | .ok (decoder, messages) =>
      match trySendAll accepts stream.messages messages with
      | .error error => .error error
      | .ok messages =>
        .ok { stream with
          receiveNonce := stream.receiveNonce + 1
          inboundDecoder := decoder
          decrypted := stream.decrypted ++ [plaintext]
          messages }

def receiveCiphertexts (stream : NoiseVirtualStream Message) :
    List Bytes → Except String (NoiseVirtualStream Message)
  | [] => .ok stream
  | ciphertext :: ciphertexts =>
    match stream.receiveCiphertext codec cipher accepts ciphertext with
    | .error error => .error error
    | .ok next => next.receiveCiphertexts ciphertexts

def receiveData (stream : NoiseVirtualStream Message) (seq : Nat) (payload : Bytes) :
    Except String (NoiseVirtualStream Message) :=
  match stream.inboundCiphertexts.push seq payload with
  | .error error => .error error
  | .ok (frames, ready) =>
    ({ stream with inboundCiphertexts := frames } : NoiseVirtualStream Message).receiveCiphertexts
      codec cipher accepts ready

/-- All records of a delivery. -/
def receiveAll (stream : NoiseVirtualStream Message) :
    List (Nat × Bytes) → Except String (NoiseVirtualStream Message)
  | [] => .ok stream
  | (seq, payload) :: delivery =>
    match stream.receiveData codec cipher accepts seq payload with
    | .error error => .error error
    | .ok next => next.receiveAll delivery

end NoiseVirtualStream

/-! ### The sender -/

/-- `slice.chunks(size)`: full chunks, and a shorter one if something is left. Every turn
takes one byte at least. -/
def chunksOf (size : Nat) : Nat → Bytes → List Bytes
  | 0, _ | _ + 1, [] => []
  | turns + 1, bytes => bytes.take size :: chunksOf size turns (bytes.drop size)

def chunks (bytes : Bytes) : List Bytes :=
  chunksOf noiseRecordPlaintextLen bytes.length bytes

/-- The writing half of a stream, with the frames that were sent. -/
structure NoiseWriter where
  nextSeq : Nat := 0
  sendNonce : Nat := 0
  sent : List (Nat × Bytes) := []

/-- `take_next_sequence` and `encrypt` of one record. -/
def NoiseWriter.sendRecord (cipher : NoiseCipher) (writer : NoiseWriter) (record : Bytes) :
    Except String NoiseWriter :=
  if writer.nextSeq = maxSequence then .error "Noise relay sequence number exhausted"
  else
    .ok { nextSeq := writer.nextSeq + 1
          sendNonce := writer.sendNonce + 1
          sent := writer.sent ++ [(writer.nextSeq, cipher.encrypt writer.sendNonce record)] }

def NoiseWriter.sendRecords (cipher : NoiseCipher) (writer : NoiseWriter) :
    List Bytes → Except String NoiseWriter
  | [] => .ok writer
  | record :: records =>
    match writer.sendRecord cipher record with
    | .error error => .error error
    | .ok next => next.sendRecords cipher records

def NoiseWriter.sendMessages (codec : JsonCodec Message) (cipher : NoiseCipher)
    (writer : NoiseWriter) : List Message → Except String NoiseWriter
  | [] => .ok writer
  | message :: messages =>
    match frameJsonrpcMessage codec message with
    | .error error => .error error
    | .ok framed =>
      match writer.sendRecords cipher (chunks framed) with
      | .error error => .error error
      | .ok next => next.sendMessages codec cipher messages

end WeaveCodex.NoiseRelay
