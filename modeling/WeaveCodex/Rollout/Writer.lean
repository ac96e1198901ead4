/-
Purpose: The background writer of a rollout file with its retries, the file that failed
  writes leave behind, and the projection that reads the file by its ordinals.
Trusted boundary: translation of `RolloutWriterState` in `rollout/src/recorder.rs`, of
  `rollout/src/ordinal.rs` and of `read_projection_steps` in
  `thread-store/src/local/thread_history_materialization.rs`. What a write leaves is known up to
  whether it is a proper part of the JSON text, and such a part does not parse; a record that
  was written whole decodes as itself.
-/
import WeaveCodex.Rollout.History

namespace WeaveCodex.Rollout

universe u

variable {Item : Type u}

/-! ### The file -/

structure RolloutLine (Item : Type u) where
  timestamp : String
  ordinal : Option Nat
  item : Item
deriving DecidableEq

/-- What one write leaves of a record in a line: a proper part of its JSON text, or all of
it. -/
inductive Fragment (Item : Type u) where
  | part (line : RolloutLine Item)
  | whole (line : RolloutLine Item)
deriving DecidableEq

structure RolloutFile (Item : Type u) where
  lines : List (List (Fragment Item)) := []
  /-- What stands behind the last newline. -/
  unterminated : List (Fragment Item) := []

def parseLine : List (Fragment Item) → Option (RolloutLine Item)
  | [.whole line] => some line
  | _ => none

/-- How the write of a record ends: it succeeds, or it fails and leaves nothing, a proper
part of the JSON text, the text without its newline, or all of the line. -/
inductive WriteOutcome where
  | ok | nothing | part | text | line
deriving DecidableEq

/-- Opening the file can fail, before or after a missing newline was written. -/
inductive OpenOutcome where
  | ok
  | failed (newlineWritten : Bool)

namespace RolloutFile

variable (file : RolloutFile Item)

/-- The lines that parse as rollout records. -/
def records : List (RolloutLine Item) :=
  (file.lines ++ [file.unterminated]).filterMap parseLine

def writeLine (line : RolloutLine Item) : WriteOutcome → RolloutFile Item
  | .ok | .line => ⟨file.lines ++ [file.unterminated ++ [.whole line]], []⟩
  | .nothing => file
  | .part => { file with unterminated := file.unterminated ++ [.part line] }
  | .text => { file with unterminated := file.unterminated ++ [.whole line] }

def ensureRolloutIsNewlineTerminated : RolloutFile Item :=
  if file.unterminated.isEmpty then file else ⟨file.lines ++ [file.unterminated], []⟩

def openLogFile : OpenOutcome → Bool × RolloutFile Item
  | .ok => (true, file.ensureRolloutIsNewlineTerminated)
  | .failed true => (false, file.ensureRolloutIsNewlineTerminated)
  | .failed false => (false, file)

end RolloutFile

/-! ### The writer -/

inductive RolloutOrdinalState where
  | legacy
  | paginated (next : Option Nat)
deriving DecidableEq

namespace RolloutOrdinalState

/-- The inner `none` is a record without an ordinal, the outer one the overflow. -/
def current : RolloutOrdinalState → Option (Option Nat)
  | .legacy => some none
  | .paginated next => next.map some

def advance : RolloutOrdinalState → RolloutOrdinalState
  | .paginated (some ordinal) => .paginated (if ordinal < u64Max then some (ordinal + 1) else none)
  | state => state

end RolloutOrdinalState

structure GitInfo where
  commitHash : Option String
  branch : Option String
  repositoryUrl : Option String

/-- What one call of `write_pending_once` meets: the opening, the git data, time and outcome
of each write by its number, and whether the last flush succeeds. -/
structure Attempt where
  opening : OpenOutcome
  git : Option GitInfo
  timestamp : Nat → String
  write : Nat → WriteOutcome
  flushed : Bool

/-- The ordinal state with the file. -/
structure RolloutLog (Item : Type u) where
  ordinalState : RolloutOrdinalState
  file : RolloutFile Item := {}

structure RolloutWriterState (Item : Type u) where
  writer : Bool := false
  deferredCreation : Bool := true
  pendingItems : List Item := []
  /-- The metadata that is still to be written, as an item with the git data. -/
  sessionMeta : Option (Option GitInfo → Item)
  log : RolloutLog Item

/-- A record is written with the current ordinal, which advances if the write succeeds. -/
def writeRolloutItem (attempt : Attempt) (index : Nat) (item : Item) (log : RolloutLog Item) :
    Bool × RolloutLog Item :=
  match log.ordinalState.current with
  | none => (false, log)
  | some ordinal =>
    let file := log.file.writeLine ⟨attempt.timestamp index, ordinal, item⟩ (attempt.write index)
    if attempt.write index = .ok then (true, ⟨log.ordinalState.advance, file⟩)
    else (false, { log with file })

namespace RolloutWriterState

variable (first second attempt : Attempt) (state : RolloutWriterState Item)

def isDeferred : Bool := !state.writer && state.deferredCreation

def enterRecoveryMode : RolloutWriterState Item := { state with writer := false }

def ensureWriterOpen : Bool × RolloutWriterState Item :=
  if state.writer then (true, state)
  else
    match state.log.file.openLogFile attempt.opening with
    | (true, file) =>
      (true, { state with writer := true, deferredCreation := false, log.file := file })
    | (false, file) => (false, { state with log.file := file })

def writeSessionMetaIfNeeded : Bool × RolloutWriterState Item :=
  match state.sessionMeta with
  | none => (true, state)
  | some sessionMeta =>
    match writeRolloutItem attempt 0 (sessionMeta attempt.git) state.log with
    | (true, log) => (true, { state with sessionMeta := none, log })
    | (false, log) => (false, { state with log })

/-- The loop over the pending items; an item that was written is no longer pending. -/
def writePendingItemsOnce (attempt : Attempt) :
    Nat → List Item → RolloutWriterState Item → Bool × RolloutWriterState Item
  | _, [], state => (true, state)
  | index, item :: pendingItems, state =>
    match writeRolloutItem attempt index item state.log with
    | (true, log) =>
      writePendingItemsOnce attempt (index + 1) pendingItems { state with pendingItems, log }
    | (false, log) => (false, { state with log })

/-- What comes after a `?`. -/
def andThen (result : Bool × RolloutWriterState Item)
    (next : RolloutWriterState Item → Bool × RolloutWriterState Item) :
    Bool × RolloutWriterState Item :=
  if result.1 then next result.2 else result

def writePendingOnce : Bool × RolloutWriterState Item :=
  andThen (state.ensureWriterOpen attempt) fun state =>
    andThen (state.writeSessionMetaIfNeeded attempt) fun state =>
      andThen (writePendingItemsOnce attempt 1 state.pendingItems state) fun state =>
        (attempt.flushed, state)

def writePendingWithRecovery : Bool × RolloutWriterState Item :=
  match state.writePendingOnce first with
  | (true, state) => (true, state)
  | (false, state) =>
    match state.enterRecoveryMode.writePendingOnce second with
    | (true, state) => (true, state)
    | (false, state) => (false, state.enterRecoveryMode)

/-- Both `flush` and `shutdown`. -/
def flush : Bool × RolloutWriterState Item :=
  if state.isDeferred && state.pendingItems.isEmpty then (true, state)
  else state.writePendingWithRecovery first second

def flushIfMaterialized : RolloutWriterState Item :=
  if state.isDeferred then state
  else
    match state.flush first second with
    | (true, state) => state
    | (false, state) => state.enterRecoveryMode

end RolloutWriterState

inductive RolloutCmd (Item : Type u) where
  | addItems (items : List Item)
  | persist
  | flush
  | shutdown

def RolloutCmd.items : RolloutCmd Item → List Item
  | .addItems items => items
  | _ => []

/-- A command, with what its two attempts to write meet. -/
abbrev WriterInput (Item : Type u) := RolloutCmd Item × Attempt × Attempt

/-- The task of the writer. -/
structure WriterRun (Item : Type u) where
  state : RolloutWriterState Item
  finished : Bool := false

/-- One round of `rollout_writer`, with the acknowledgement. -/
def WriterRun.step (run : WriterRun Item) (input : WriterInput Item) : Option Bool × WriterRun Item :=
  if run.finished then (none, run)
  else
    match input with
    | (.addItems items, first, second) =>
      let state := { run.state with pendingItems := run.state.pendingItems ++ items }
      (none, { run with state := state.flushIfMaterialized first second })
    | (.persist, first, second) =>
      let (ok, state) := run.state.writePendingWithRecovery first second
      (some ok, { run with state })
    | (.flush, first, second) =>
      let (ok, state) := run.state.flush first second
      (some ok, { run with state })
    | (.shutdown, first, second) =>
      let (ok, state) := run.state.flush first second
      (some ok, { state, finished := ok })

/-- A new paginated rollout whose first ordinal is `base`. -/
def WriterRun.create (sessionMeta : Option GitInfo → Item) (base : Nat) : WriterRun Item :=
  { state := { sessionMeta := some sessionMeta, log := { ordinalState := .paginated (some base) } } }

def WriterRun.run (run : WriterRun Item) (inputs : List (WriterInput Item)) : WriterRun Item :=
  inputs.foldl (fun run input => (run.step input).2) run

/-! ### The projection -/

inductive RolloutProjectionStep (Item : Type u) where
  | skippedOrdinalRange (startOrdinal endOrdinalExclusive : Nat)
  | line (ordinal startByteOffset endByteOffset : Nat) (line : RolloutLine Item)

inductive ProjectionError where
  | missingOrdinal
  | expectedOrdinal (expected got : Nat)
  | uncoveredGap (expected got rejected : Nat)
  | ordinalRange
deriving DecidableEq

/-- The length of a line with its newline, and whether the changes of a record need a time
that its timestamp does not give. -/
structure ProjectionTools (Item : Type u) where
  byteLen : List (Fragment Item) → Nat
  lacksTime : RolloutLine Item → Bool

structure Projection (Item : Type u) where
  projections : List (RolloutProjectionStep Item) := []
  nextOrdinal : Nat
  nextOffset : Nat := 0
  pendingRejectedLineCount : Nat := 0
  lineStartOffset : Nat := 0

def Projection.reject (state : Projection Item) (lineEnd : Nat) : Projection Item :=
  { state with
    pendingRejectedLineCount := state.pendingRejectedLineCount + 1
    lineStartOffset := lineEnd }

/-- One line of the loop. -/
def Projection.readLine (tools : ProjectionTools Item) (state : Projection Item)
    (line : List (Fragment Item)) : Except ProjectionError (Projection Item) :=
  let lineEnd := state.lineStartOffset + tools.byteLen line
  if line.isEmpty then
    .ok { state with
      nextOffset := if state.pendingRejectedLineCount = 0 then lineEnd else state.nextOffset
      lineStartOffset := lineEnd }
  else
    match parseLine line with
    | none => .ok (state.reject lineEnd)
    | some record =>
      match record.ordinal with
      | none => .error .missingOrdinal
      | some ordinal =>
        if ordinal < state.nextOrdinal then .error (.expectedOrdinal state.nextOrdinal ordinal)
        else if state.pendingRejectedLineCount < ordinal - state.nextOrdinal then
          .error (.uncoveredGap state.nextOrdinal ordinal state.pendingRejectedLineCount)
        else if tools.lacksTime record then .ok (state.reject lineEnd)
        else if ordinal = u64Max then .error .ordinalRange
        else
          .ok {
            projections := state.projections ++
              (if state.nextOrdinal < ordinal then
                [.skippedOrdinalRange state.nextOrdinal ordinal] else []) ++
              [.line ordinal state.lineStartOffset lineEnd record]
            nextOrdinal := ordinal + 1
            nextOffset := lineEnd
            lineStartOffset := lineEnd }

/-- Only lines with their newline are read. -/
def readProjectionSteps (tools : ProjectionTools Item) (expectedOrdinal : Nat)
    (file : RolloutFile Item) :
    Except ProjectionError (List (RolloutProjectionStep Item) × Nat) := do
  let state ← file.lines.foldlM (Projection.readLine tools) { nextOrdinal := expectedOrdinal }
  return (state.projections, state.nextOffset)

end WeaveCodex.Rollout
