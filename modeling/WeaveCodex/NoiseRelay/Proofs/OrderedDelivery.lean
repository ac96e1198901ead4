/-
Purpose: The window releases the records in their order, each once, whatever the order and
  the number of copies in which they are delivered.
-/
import Mathlib.Algebra.BigOperators.Group.List.Basic
import WeaveCodex.NoiseRelay.Records

namespace WeaveCodex.NoiseRelay

open Library SortedMap List Nat Option

namespace OrderedCiphertextFrames

variable {payloadOf : Nat → Bytes} {delivered : List Nat} {frames : OrderedCiphertextFrames}

/-- The total length of the buffered payloads. -/
def bufferedLength (pending : List (Nat × Bytes)) : Nat :=
  (pending.map fun entry => entry.2.length).sum

theorem bufferedLength_perm {pending others : List (Nat × Bytes)} (same : pending.Perm others) :
    bufferedLength pending = bufferedLength others :=
  (same.map fun entry : Nat × Bytes => entry.2.length).sum_eq

theorem bufferedLength_cons (seq : Nat) (payload : Bytes) (pending : List (Nat × Bytes)) :
    bufferedLength ((seq, payload) :: pending) = payload.length + bufferedLength pending :=
  sum_cons

/-- What the window knows while it releases records: the delivered records below the next
number are behind it, and its buffer holds the others. -/
structure Gathered (payloadOf : Nat → Bytes) (delivered : List Nat)
    (frames : OrderedCiphertextFrames) : Prop where
  sorted : SortedMap.Sorted frames.pending
  bytes : frames.pendingBytes = bufferedLength frames.pending
  behind : ∀ seq < frames.nextSeq, seq ∈ delivered
  near : ∀ seq ∈ delivered, seq ≤ frames.nextSeq + 64
  holds : ∀ seq payload, SortedMap.get frames.pending seq = some payload ↔
    frames.nextSeq ≤ seq ∧ seq ∈ delivered ∧ payload = payloadOf seq

/-- Between two deliveries the next record is missing. -/
structure Buffered (payloadOf : Nat → Bytes) (delivered : List Nat)
    (frames : OrderedCiphertextFrames) : Prop extends Gathered payloadOf delivered frames where
  gap : frames.nextSeq ∉ delivered

/-- Records with these numbers, as they arrive. -/
def arriving (payloadOf : Nat → Bytes) (delivery : List Nat) : List (Nat × Bytes) :=
  delivery.map fun seq => (seq, payloadOf seq)

/-- The payloads of a range of numbers. -/
def released (payloadOf : Nat → Bytes) (start stop : Nat) : List Bytes :=
  (range' start (stop - start)).map payloadOf

theorem released_self (start : Nat) : released payloadOf start start = [] := by
  simp [released]

theorem released_append {start middle stop : Nat} (lower : start ≤ middle) (upper : middle ≤ stop) :
    released payloadOf start middle ++ released payloadOf middle stop =
      released payloadOf start stop := by
  rw [released, released, released, ← map_append]
  have whole : stop - start = (middle - start) + (stop - middle) := by omega
  have next : middle = start + (middle - start) := by omega
  rw [whole, ← range'_append_1, ← next]

theorem released_succ (start : Nat) : released payloadOf start (start + 1) = [payloadOf start] := by
  simp [released]

theorem buffered_empty (payloadOf : Nat → Bytes) : Buffered payloadOf [] {} where
  sorted := .nil
  bytes := rfl
  behind := nofun
  near := nofun
  holds := by simp
  gap := not_mem_nil

theorem advance_eq_ok {next : OrderedCiphertextFrames} (advanced : frames.advance = .ok next) :
    next = { frames with nextSeq := frames.nextSeq + 1 } := by
  rw [advance] at advanced
  split at advanced
  · cases advanced
  · exact (Except.ok.inj advanced).symm

theorem lt_succ_mem {next : Nat} (behind : ∀ seq < next, seq ∈ delivered) (arrived : next ∈ delivered) :
    ∀ seq < next + 1, seq ∈ delivered := by
  intro seq below
  rcases Nat.lt_succ_iff_lt_or_eq.mp below with earlier | same
  · exact behind seq earlier
  · rw [same]
    exact arrived

/-- The next record leaves the buffer. -/
theorem Gathered.takeNext (gathered : Gathered payloadOf delivered frames)
    (arrived : frames.nextSeq ∈ delivered) : Gathered payloadOf delivered
      { nextSeq := frames.nextSeq + 1
        pending := erase frames.nextSeq frames.pending
        pendingBytes := frames.pendingBytes - (payloadOf frames.nextSeq).length } where
  sorted := sorted_erase gathered.sorted _
  bytes := by
    have found := (gathered.holds frames.nextSeq _).mpr ⟨le_rfl, arrived, rfl⟩
    have total := gathered.bytes
    rw [bufferedLength_perm (perm_erase gathered.sorted found), bufferedLength_cons] at total
    dsimp only
    omega
  behind := lt_succ_mem gathered.behind arrived
  near seq mem := (gathered.near seq mem).trans (by simp)
  holds seq payload := by
    rw [get_erase]
    by_cases same : frames.nextSeq = seq
    · simp [same]
    · have later : frames.nextSeq ≤ seq ↔ frames.nextSeq + 1 ≤ seq := by omega
      rw [if_neg same, gathered.holds, later]

variable {result : OrderedCiphertextFrames} {ready : List Bytes} {seq : Nat}

/-- The loop releases the records that follow without a gap. -/
theorem release_spec {turns : Nat} {all : List Bytes}
    (gathered : Gathered payloadOf delivered frames) (enough : frames.pending.length ≤ turns)
    (looped : release turns frames ready = .ok (result, all)) :
    Buffered payloadOf delivered result ∧ frames.nextSeq ≤ result.nextSeq ∧
      all = ready ++ released payloadOf frames.nextSeq result.nextSeq := by
  induction turns generalizing frames ready with
  | zero =>
    cases looped
    refine ⟨⟨gathered, fun arrived => ?_⟩, le_rfl, by rw [released_self, append_nil]⟩
    have found := (gathered.holds _ _).mpr ⟨le_rfl, arrived, rfl⟩
    rw [eq_nil_of_length_eq_zero (le_zero.mp enough)] at found
    cases found
  | succ turns ih =>
    rw [release] at looped
    split at looped
    · rename_i gap
      cases looped
      refine ⟨⟨gathered, fun arrived => ?_⟩, le_rfl, by rw [released_self, append_nil]⟩
      cases gap.symm.trans ((gathered.holds _ _).mpr ⟨le_rfl, arrived, rfl⟩)
    · rename_i found
      obtain ⟨-, arrived, rfl⟩ := (gathered.holds _ _).mp found
      dsimp only at looped
      split at looped
      · cases looped
      · rename_i advanced
        rw [advance_eq_ok advanced] at looped
        have shorter : (erase frames.nextSeq frames.pending).length ≤ turns := by
          have lengths := (perm_erase gathered.sorted found).length_eq
          rw [length_cons] at lengths
          omega
        obtain ⟨buffered, later, rest⟩ := ih (gathered.takeNext arrived) shorter looped
        dsimp only at later rest
        refine ⟨buffered, by omega, ?_⟩
        rw [rest, append_assoc, ← released_succ, released_append (by omega) later]

variable (buffered : Buffered payloadOf delivered frames)
include buffered

/-- A copy of a known record changes nothing. -/
theorem Buffered.again (seen : seq ∈ delivered) : Buffered payloadOf (seq :: delivered) frames := by
  have same (other : Nat) : other ∈ seq :: delivered ↔ other ∈ delivered :=
    mem_cons.trans (or_iff_right_of_imp fun here => here ▸ seen)
  constructor
  · refine ⟨buffered.sorted, buffered.bytes, ?_, ?_, ?_⟩
    · simpa only [same] using buffered.behind
    · simpa only [same] using buffered.near
    · simpa only [same] using buffered.holds
  · simpa only [same] using buffered.gap

/-- A record ahead of the next one waits in the buffer. -/
theorem Buffered.wait (ahead : frames.nextSeq < seq) (near : seq ≤ frames.nextSeq + 64)
    (missing : get frames.pending seq = none) :
    Buffered payloadOf (seq :: delivered)
      { frames with
        pending := insert seq (payloadOf seq) frames.pending
        pendingBytes := frames.pendingBytes + (payloadOf seq).length } where
  sorted := sorted_insert buffered.sorted seq _
  bytes := by
    rw [bufferedLength_perm (perm_insert missing (payloadOf seq)), bufferedLength_cons, buffered.bytes]
    exact add_comm _ _
  behind other below := mem_cons_of_mem seq (buffered.behind other below)
  near := forall_mem_cons.mpr ⟨near, buffered.near⟩
  holds other payload := by
    rw [get_insert, mem_cons]
    by_cases same : seq = other
    · simp [← same, ahead.le, eq_comm]
    · rw [if_neg same, buffered.holds, or_iff_right (Ne.symm same)]
  gap := not_mem_cons_of_ne_of_not_mem ahead.ne buffered.gap

/-- The next record itself. -/
theorem Buffered.expected : Gathered payloadOf (frames.nextSeq :: delivered)
    { frames with nextSeq := frames.nextSeq + 1 } where
  sorted := buffered.sorted
  bytes := buffered.bytes
  behind := lt_succ_mem (fun seq below => mem_cons_of_mem _ (buffered.behind seq below)) mem_cons_self
  near := forall_mem_cons.mpr ⟨by dsimp only; omega, fun seq mem => (buffered.near seq mem).trans (by simp)⟩
  holds other payload := by
    rw [buffered.holds, mem_cons]
    by_cases same : other = frames.nextSeq
    · simp [same, buffered.gap]
    · have later : frames.nextSeq ≤ other ↔ frames.nextSeq + 1 ≤ other := by omega
      rw [later, or_iff_right same]

/-- One delivered record. -/
theorem push_spec (pushed : frames.push seq (payloadOf seq) = .ok (result, ready)) :
    Buffered payloadOf (seq :: delivered) result ∧ frames.nextSeq ≤ result.nextSeq ∧
      ready = released payloadOf frames.nextSeq result.nextSeq := by
  rw [push] at pushed
  split at pushed
  · rename_i seen
    cases pushed
    refine ⟨buffered.again ?_, le_rfl, (released_self _).symm⟩
    rcases seen with earlier | waiting
    · exact buffered.behind seq earlier
    · obtain ⟨_, found⟩ := isSome_iff_exists.mp waiting
      exact ((buffered.holds _ _).mp found).2.1
  · rename_i unseen
    rw [not_or, not_isSome_iff_eq_none] at unseen
    split at pushed
    · rename_i ahead
      split at pushed
      · cases pushed
      · rename_i near
        dsimp only at pushed
        split at pushed
        · cases pushed
        · cases pushed
          rw [maxReorderDistance] at near
          exact ⟨buffered.wait ahead (by omega) unseen.2, le_rfl, (released_self _).symm⟩
    · have isNext : seq = frames.nextSeq := by omega
      subst isNext
      split at pushed
      · cases pushed
      · rename_i advanced
        rw [advance_eq_ok advanced] at pushed
        obtain ⟨done, later, all⟩ := release_spec buffered.expected le_rfl pushed
        dsimp only at later all
        refine ⟨done, by omega, ?_⟩
        rw [all, ← released_succ, released_append (by omega) later]

omit buffered

end OrderedCiphertextFrames

end WeaveCodex.NoiseRelay
