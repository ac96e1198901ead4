/-
Purpose: The decoder finds the messages in the byte stream however it is cut into records,
  and so the receiver passes on the messages that were sent, each once and in their order.
-/
import Mathlib.Data.List.GetD
import WeaveCodex.NoiseRelay.Proofs.OrderedDelivery

namespace WeaveCodex.NoiseRelay

open Library Nat
open OrderedCiphertextFrames NoiseWriter NoiseVirtualStream List

variable {Message : Type} {codec : JsonCodec Message} {cipher : NoiseCipher}

/-! ### Framing -/

theorem fromBeBytes_toBeBytes {value : Nat} (small : value ≤ maxSequence) :
    fromBeBytes (UInt8.ofNat (value / 16777216)) (UInt8.ofNat (value / 65536))
      (UInt8.ofNat (value / 256)) (UInt8.ofNat value) = value := by
  rw [maxSequence] at small
  simp only [fromBeBytes, UInt8.toNat_ofNat']
  omega

/-- A message that can be sent and read back. -/
structure Sendable (codec : JsonCodec Message) (message : Message) : Prop where
  nonempty : codec.serialize message ≠ []
  fits : (codec.serialize message).length ≤ maxNoiseJsonrpcMessageLen
  decodes : codec.deserialize (codec.serialize message) = .ok message

/-- A message with its length in front. -/
def framed (codec : JsonCodec Message) (message : Message) : Bytes :=
  toBeBytes (codec.serialize message).length ++ codec.serialize message

/-- The byte stream of some messages. -/
def byteStream (codec : JsonCodec Message) (messages : List Message) : Bytes :=
  messages.flatMap (framed codec)

theorem length_framed (codec : JsonCodec Message) (message : Message) :
    (framed codec message).length = 4 + (codec.serialize message).length := by
  rw [framed, length_append]
  rfl

theorem declaredLength_append {length : Nat} (small : length ≤ maxSequence) (rest : Bytes) :
    declaredLength (toBeBytes length ++ rest) = some length := by
  have bytes := fromBeBytes_toBeBytes small
  rw [toBeBytes]
  simp only [cons_append, nil_append, declaredLength]
  rw [bytes]

variable {buffered rest others : Bytes} {left : List Message}

theorem declaredLength_eq_none (short : buffered.length < 4) : declaredLength buffered = none := by
  match buffered with
  | [] | [_] | [_, _] | [_, _, _] => rfl
  | _ :: _ :: _ :: _ :: _ =>
    simp only [length_cons] at short
    omega

/-- Of two ways to cut a text, the longer first part begins with the shorter one. -/
theorem append_of_length_le {first second : Bytes} (same : first ++ rest = second ++ others)
    (shorter : second.length ≤ first.length) :
    ∃ middle, first = second ++ middle ∧ middle ++ rest = others := by
  obtain ⟨middle, rfl⟩ :=
    prefix_of_prefix_length_le ⟨others, same.symm⟩ (prefix_append first rest) shorter
  rw [append_assoc] at same
  exact ⟨middle, rfl, append_cancel_left same⟩

/-! ### The decoder -/

/-- The bytes that wait do not hold the next message. -/
def Incomplete (codec : JsonCodec Message) (waiting : Bytes) (left : List Message) : Prop :=
  ∀ message ∈ left.head?, waiting.length < (framed codec message).length

/-- The declared length of a buffer that begins a framed message. -/
theorem declaredLength_of_begins {message : Message} (sendable : Sendable codec message)
    (begins : buffered ++ rest = framed codec message ++ others) (long : 4 ≤ buffered.length) :
    declaredLength buffered = some (codec.serialize message).length := by
  have fits := sendable.fits
  rw [maxNoiseJsonrpcMessageLen] at fits
  rw [framed, append_assoc] at begins
  obtain ⟨middle, rfl, _⟩ := append_of_length_le begins long
  exact declaredLength_append (by rw [maxSequence]; omega) middle

/-- The loop takes the whole messages from the buffer and leaves an incomplete one. -/
theorem decodeMessages_spec {messages : List Message}
    (sendable : ∀ message ∈ messages, Sendable codec message) {turns : Nat}
    (enough : buffered.length ≤ turns) (stream : buffered ++ rest = byteStream codec messages) :
    ∃ done left waiting, decodeMessages codec turns buffered = .ok (done, waiting) ∧
      messages = done ++ left ∧ waiting ++ rest = byteStream codec left ∧
      Incomplete codec waiting left := by
  induction turns generalizing messages buffered with
  | zero =>
    obtain rfl : buffered = [] := eq_nil_of_length_eq_zero (le_zero.mp enough)
    refine ⟨[], messages, [], rfl, rfl, stream, ?_⟩
    intro message _
    rw [length_framed, length_nil]
    omega
  | succ turns ih =>
    cases messages with
    | nil =>
      obtain ⟨rfl, rfl⟩ := append_eq_nil_iff.mp stream
      refine ⟨[], [], [], rfl, rfl, rfl, ?_⟩
      exact nofun
    | cons message messages =>
      have first := sendable message mem_cons_self
      have begins : buffered ++ rest = framed codec message ++ byteStream codec messages :=
        stream
      have positive : 0 < (codec.serialize message).length :=
        length_pos_iff.mpr first.nonempty
      have valid : ¬ ((codec.serialize message).length = 0 ∨
          maxNoiseJsonrpcMessageLen < (codec.serialize message).length) := by
        have fits := first.fits
        omega
      by_cases whole : (framed codec message).length ≤ buffered.length
      · -- The first message is complete.
        obtain ⟨more, rfl, moreStream⟩ := append_of_length_le begins whole
        have lengths := length_framed codec message
        have moreTurns : more.length ≤ turns := by
          rw [length_append] at enough
          omega
        obtain ⟨done, left, waiting, decoded, parts, remaining, incomplete⟩ :=
          ih (fun other mem => sendable other (mem_cons_of_mem message mem)) moreTurns moreStream
        refine ⟨message :: done, left, waiting, ?_, by rw [parts, cons_append], remaining, incomplete⟩
        have declared := declaredLength_of_begins first begins (by
          rw [length_append]
          omega)
        have complete : ¬ (framed codec message ++ more).length <
            lengthPrefixBytes + (codec.serialize message).length := by
          rw [length_append, lengthPrefixBytes]
          omega
        have body : ((framed codec message ++ more).drop lengthPrefixBytes).take
            (codec.serialize message).length = codec.serialize message := by
          rw [framed, append_assoc, lengthPrefixBytes]
          exact take_left
        have after : (framed codec message ++ more).drop
            (lengthPrefixBytes + (codec.serialize message).length) = more := by
          rw [lengthPrefixBytes, ← lengths, drop_left]
        rw [decodeMessages, declared]
        dsimp only
        rw [if_neg valid, if_neg complete, body, first.decodes, after, decoded]
      · -- It is not: the loop stops at its length or at its body.
        refine ⟨[], message :: messages, buffered, ?_, rfl, stream, ?_⟩
        · rw [decodeMessages]
          by_cases short : buffered.length < 4
          · rw [declaredLength_eq_none short]
          · rw [declaredLength_of_begins first begins (Nat.le_of_not_lt short)]
            have waits : buffered.length < lengthPrefixBytes + (codec.serialize message).length := by
              rw [lengthPrefixBytes, ← length_framed]
              exact Nat.lt_of_not_le whole
            dsimp only
            rw [if_neg valid, if_pos waits]
        · intro other mem
          cases mem
          exact Nat.lt_of_not_le whole

/-- What waits is shorter than the limit of the decoder. -/
theorem Incomplete.bounded {waiting : Bytes} (incomplete : Incomplete codec waiting left)
    (sendable : ∀ message ∈ left, Sendable codec message)
    (stream : waiting ++ rest = byteStream codec left) :
    waiting.length ≤ lengthPrefixBytes + maxNoiseJsonrpcMessageLen := by
  cases left with
  | nil =>
    obtain ⟨rfl, _⟩ := append_eq_nil_iff.mp stream
    exact zero_le _
  | cons message =>
    have shorter := incomplete message rfl
    have fits := (sendable message mem_cons_self).fits
    rw [length_framed] at shorter
    rw [lengthPrefixBytes]
    omega

/-- One record goes through the decoder. -/
theorem decoderPush_spec (sendable : ∀ message ∈ left, Sendable codec message)
    {decoder : JsonRpcMessageDecoder} {record : Bytes}
    (small : record.length ≤ noiseRecordPlaintextLen)
    (stream : decoder.buffered ++ (record ++ rest) = byteStream codec left) :
    ∃ done later waiting, decoder.push codec record = .ok ({ buffered := waiting }, done) ∧
      left = done ++ later ∧ waiting ++ rest = byteStream codec later ∧
      Incomplete codec waiting later := by
  rw [← append_assoc] at stream
  obtain ⟨done, later, waiting, decoded, parts, remaining, incomplete⟩ :=
    decodeMessages_spec sendable le_rfl stream
  rw [parts, forall_mem_append] at sendable
  refine ⟨done, later, waiting, ?_, parts, remaining, incomplete⟩
  have bounded := incomplete.bounded sendable.2 remaining
  rw [JsonRpcMessageDecoder.push, if_neg (not_lt.mpr small)]
  dsimp only
  rw [decoded]
  dsimp only
  rw [if_neg (not_lt.mpr bounded)]

/-! ### The receiver -/

/-- The records of a stream of messages. -/
structure Cut (codec : JsonCodec Message) (messages : List Message) (records : List Bytes) :
    Prop where
  stream : records.flatten = byteStream codec messages
  small : ∀ record ∈ records, record.length ≤ noiseRecordPlaintextLen

/-- The payload of a number: the record that is encrypted with that nonce. -/
def payloadOf (cipher : NoiseCipher) (records : List Bytes) (seq : Nat) : Bytes :=
  cipher.encrypt seq (records.getD seq [])

/-- The receiver has decrypted the first records and passed on the messages in them. -/
structure Received (codec : JsonCodec Message) (messages : List Message) (records : List Bytes)
    (count : Nat) (stream : NoiseVirtualStream Message) : Prop where
  nonce : stream.receiveNonce = count
  decrypted : stream.decrypted = records.take count
  passed : ∃ left, messages = stream.messages ++ left ∧
    stream.inboundDecoder.buffered ++ (records.drop count).flatten = byteStream codec left ∧
    Incomplete codec stream.inboundDecoder.buffered left

section Receiver

variable {messages : List Message} {records : List Bytes} {accepts : Nat → Bool}
  (sendable : ∀ message ∈ messages, Sendable codec message)
  (cut : Cut codec messages records)
  (roundTrip : ∀ seq record, records[seq]? = some record →
    cipher.decrypt seq (payloadOf cipher records seq) = .ok record)
  (room : ∀ number < messages.length, accepts number = true)
include sendable cut

omit sendable in
theorem received_start : Received codec messages records 0 {} where
  nonce := rfl
  decrypted := rfl
  passed := by
    refine ⟨messages, rfl, cut.stream, ?_⟩
    intro message _
    rw [length_framed]
    change 0 < 4 + _
    omega

include roundTrip room

variable {stream : NoiseVirtualStream Message} {count : Nat} {frames : OrderedCiphertextFrames}
  {delivered : List Nat}

omit sendable cut roundTrip room in
/-- A queue with room takes all messages. -/
theorem trySendAll_eq_ok (sent more : List Message)
    (room : ∀ number < (sent ++ more).length, accepts number = true) :
    trySendAll accepts sent more = .ok (sent ++ more) := by
  induction more generalizing sent with
  | nil => rw [trySendAll, append_nil]
  | cons message _ ih =>
    rw [trySendAll, if_pos (room _ (by simp)), ih _ (by simpa using room)]
    simp

/-- The next record is decrypted, decoded and passed on. -/
theorem receiveCiphertext_spec (received : Received codec messages records count stream)
    (inside : count < records.length) :
    ∃ next, stream.receiveCiphertext codec cipher accepts (payloadOf cipher records count) = .ok next ∧
      Received codec messages records (count + 1) next ∧
      next.inboundCiphertexts = stream.inboundCiphertexts := by
  obtain ⟨left, parts, remaining, _⟩ := received.passed
  have record := drop_eq_getElem_cons inside
  rw [record, flatten_cons] at remaining
  rw [parts, forall_mem_append] at sendable
  obtain ⟨done, later, waiting, pushed, split, after, incomplete⟩ :=
    decoderPush_spec sendable.2 (cut.small _ (getElem_mem inside)) remaining
  have decrypted : cipher.decrypt stream.receiveNonce (payloadOf cipher records count) =
      .ok records[count] := by
    rw [received.nonce, roundTrip count _ (getElem?_eq_getElem inside)]
  refine ⟨{ stream with
    receiveNonce := stream.receiveNonce + 1
    inboundDecoder := { buffered := waiting }
    decrypted := stream.decrypted ++ [records[count]]
    messages := stream.messages ++ done }, ?_, ?_, rfl⟩
  · have queued := trySendAll_eq_ok stream.messages done fun number inDone => room number (by
      rw [parts, split, ← append_assoc, length_append]
      omega)
    rw [receiveCiphertext, decrypted]
    dsimp only
    rw [pushed]
    dsimp only
    rw [queued]
  · constructor
    · exact congrArg (· + 1) received.nonce
    · dsimp only
      rw [received.decrypted, take_add_one, getElem?_eq_getElem inside]
      rfl
    · refine ⟨later, ?_, after, incomplete⟩
      rw [parts, split, append_assoc]

/-- A run of released records. -/
theorem receiveCiphertexts_spec (received : Received codec messages records count stream)
    (more : Nat) (inside : count + more ≤ records.length) :
    ∃ next, stream.receiveCiphertexts codec cipher accepts
        (released (payloadOf cipher records) count (count + more)) = .ok next ∧
      Received codec messages records (count + more) next ∧
      next.inboundCiphertexts = stream.inboundCiphertexts := by
  induction more generalizing count stream with
  | zero =>
    refine ⟨stream, ?_, received, rfl⟩
    rw [add_zero, released_self]
    rfl
  | succ more ih =>
    obtain ⟨_, first, receivedNext, sameFrames⟩ :=
      receiveCiphertext_spec sendable cut roundTrip room received (by omega)
    have total : count + (more + 1) = count + 1 + more := by omega
    rw [total] at inside ⊢
    obtain ⟨last, rest, receivedLast, lastFrames⟩ := ih receivedNext inside
    refine ⟨last, ?_, receivedLast, lastFrames.trans sameFrames⟩
    rw [← released_append (le_succ count)
      (le_add_right (count + 1) more), released_succ,
      singleton_append, receiveCiphertexts, first]
    exact rest

omit sendable cut roundTrip room in
/-- No more records are released than there are. -/
theorem nextSeq_le (buffered : Buffered (payloadOf cipher records) delivered frames)
    (known : ∀ seq ∈ delivered, seq < records.length) : frames.nextSeq ≤ records.length := by
  by_contra beyond
  have last := buffered.behind records.length (Nat.lt_of_not_le beyond)
  exact lt_irrefl _ (known _ last)

/-- If the window takes a delivery, the receiver does so all the way: it has then decrypted the
records that the window released. -/
theorem receiveAll_spec (front back : List Nat) {result : OrderedCiphertextFrames × List Bytes}
    (received : Received codec messages records stream.inboundCiphertexts.nextSeq stream)
    (buffered : Buffered (payloadOf cipher records) delivered stream.inboundCiphertexts)
    (known : ∀ seq ∈ front.reverse ++ delivered, seq < records.length)
    (pushed : stream.inboundCiphertexts.pushAll
      (arriving (payloadOf cipher records) (front ++ back)) = .ok result) :
    ∃ next, stream.receiveAll codec cipher accepts (arriving (payloadOf cipher records) front) =
        .ok next ∧
      Received codec messages records next.inboundCiphertexts.nextSeq next ∧
      Buffered (payloadOf cipher records) (front.reverse ++ delivered) next.inboundCiphertexts := by
  induction front generalizing stream delivered result with
  | nil => exact ⟨stream, rfl, received, buffered⟩
  | cons _ _ ih =>
    rw [cons_append, arriving, map_cons, pushAll] at pushed
    split at pushed
    · cases pushed
    · rename_i first _ pushedFirst
      split at pushed
      · cases pushed
      · rename_i pushedLater
        obtain ⟨bufferedFirst, later, isFirst⟩ := push_spec buffered pushedFirst
        rw [reverse_cons, append_assoc, singleton_append] at known ⊢
        have inside := nextSeq_le bufferedFirst fun other mem =>
          known other (mem_append_right _ mem)
        have receivedFirst : Received codec messages records stream.inboundCiphertexts.nextSeq
            { stream with inboundCiphertexts := first } :=
          ⟨received.nonce, received.decrypted, received.passed⟩
        have step := receiveCiphertexts_spec sendable cut roundTrip room receivedFirst
          (first.nextSeq - stream.inboundCiphertexts.nextSeq) (by omega)
        rw [Nat.add_sub_cancel' later, ← isFirst] at step
        obtain ⟨_, took, receivedNext, sameFrames⟩ := step
        dsimp only at sameFrames
        rw [← sameFrames] at receivedNext bufferedFirst pushedLater
        obtain ⟨final, rest, reached⟩ := ih receivedNext bufferedFirst known pushedLater
        refine ⟨final, ?_, reached⟩
        rw [arriving, map_cons, receiveAll, receiveData, pushedFirst]
        dsimp only
        rw [took]
        exact rest

end Receiver

/-! ### The sender -/

theorem flatten_chunksOf {size turns : Nat} (positive : 0 < size) {bytes : Bytes}
    (enough : bytes.length ≤ turns) : (chunksOf size turns bytes).flatten = bytes := by
  induction turns generalizing bytes with
  | zero =>
    rw [eq_nil_of_length_eq_zero (le_zero.mp enough)]
    rfl
  | succ turns ih =>
    cases bytes with
    | nil => rfl
    | cons byte bytes =>
      have shorter : ((byte :: bytes).drop size).length ≤ turns := by
        rw [length_drop]
        omega
      rw [chunksOf, flatten_cons, ih shorter, take_append_drop]
      exact nofun

theorem length_of_mem_chunksOf (size turns : Nat) (bytes : Bytes) :
    ∀ chunk ∈ chunksOf size turns bytes, chunk.length ≤ size := by
  induction turns generalizing bytes with
  | zero => exact nofun
  | succ _ ih =>
    cases bytes with
    | nil => exact nofun
    | cons =>
      rw [chunksOf]
      · exact forall_mem_cons.mpr ⟨length_take_le size _, ih _⟩
      · exact nofun

/-- The records with their numbers, from a number on. -/
def numbered (cipher : NoiseCipher) (start : Nat) (records : List Bytes) : List (Nat × Bytes) :=
  (records.zipIdx start).map fun record => (record.2, cipher.encrypt record.2 record.1)

variable {writer last : NoiseWriter}

/-- The records are sealed under the numbers that follow, one each. -/
theorem sendRecords_spec {records : List Bytes} (same : writer.sendNonce = writer.nextSeq)
    (sent : writer.sendRecords cipher records = .ok last) :
    last.sendNonce = last.nextSeq ∧ last.nextSeq = writer.nextSeq + records.length ∧
      last.sent = writer.sent ++ numbered cipher writer.nextSeq records := by
  induction records generalizing writer with
  | nil =>
    rw [sendRecords] at sent
    cases sent
    exact ⟨same, rfl, (append_nil _).symm⟩
  | cons _ _ ih =>
    rw [sendRecords] at sent
    split at sent
    · cases sent
    · rename_i first
      rw [sendRecord] at first
      split at first
      · cases first
      · cases first
        obtain ⟨nonce, count, frames⟩ := ih (congrArg (· + 1) same) sent
        refine ⟨nonce, ?_, ?_⟩
        · rw [count, length_cons]
          dsimp only
          omega
        · rw [frames, same, append_assoc]
          rfl

/-- The writer cuts every framed message into records, numbers them and encrypts each with
its number. -/
theorem sendMessages_spec {messages : List Message} (same : writer.sendNonce = writer.nextSeq)
    (sent : writer.sendMessages codec cipher messages = .ok last) :
    ∃ records, Cut codec messages records ∧
      last.sent = writer.sent ++ numbered cipher writer.nextSeq records := by
  induction messages generalizing writer with
  | nil =>
    rw [sendMessages] at sent
    cases sent
    exact ⟨[], ⟨rfl, fun _ mem => absurd mem not_mem_nil⟩, (append_nil _).symm⟩
  | cons message _ ih =>
    rw [sendMessages] at sent
    split at sent
    · cases sent
    · rename_i bytes isFramed
      split at sent
      · cases sent
      · rename_i first
        have bytesEq : bytes = framed codec message := by
          rw [frameJsonrpcMessage] at isFramed
          split at isFramed
          · cases isFramed
          · exact (Except.ok.inj isFramed).symm
        obtain ⟨nonce, count, frames⟩ := sendRecords_spec same first
        obtain ⟨records, cut, rest⟩ := ih nonce sent
        refine ⟨chunks bytes ++ records, ⟨?_, ?_⟩, ?_⟩
        · rw [flatten_append, cut.stream, chunks, flatten_chunksOf (by decide) le_rfl, bytesEq]
          rfl
        · exact forall_mem_append.mpr ⟨length_of_mem_chunksOf _ _ _, cut.small⟩
        · rw [rest, frames, append_assoc, count, numbered, numbered, numbered,
            zipIdx_append, map_append]

/-! ### Delivery -/

/-- Flags as messages of one byte. -/
def flagCodec : JsonCodec Bool where
  serialize message := if message then [1] else [0]
  deserialize bytes := if bytes = [1] then .ok true else .ok false

/-- A transport that leaves the records as they are. -/
def plainCipher : NoiseCipher where
  encrypt _ plaintext := plaintext
  decrypt _ ciphertext := .ok ciphertext

/-- Two messages of a writer that has sent five records before. -/
theorem laterFlags_cut : ∃ records, Cut flagCodec [true, false] records ∧
    [(5, [0, 0, 0, 1, 1]), (6, [0, 0, 0, 1, 0])] = numbered plainCipher 5 records :=
  @sendMessages_spec _ _ _ ⟨5, 5, []⟩ ⟨7, 7, _⟩ _ rfl rfl

end WeaveCodex.NoiseRelay
