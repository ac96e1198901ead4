/-
Purpose: The records that a writer leaves in its file through any failed writes: in order,
  each once, with consecutive ordinals, as long as no failed write leaves a whole JSON text.
-/
import WeaveCodex.Rollout.Writer

namespace WeaveCodex.Rollout

open RolloutWriterState RolloutFile List Projection Nat

universe u

variable {Item : Type u}

/-- No failed write leaves the whole JSON text of its record. -/
def Attempt.Careful (attempt : Attempt) : Prop :=
  ∀ index, attempt.write index ≠ .text ∧ attempt.write index ≠ .line

/-! ### The file -/

/-- The records of the file are these items with consecutive ordinals, and the next ordinal
follows them. -/
structure Holds (base : Nat) (items : List Item) (log : RolloutLog Item) : Prop where
  contents : log.file.records.map RolloutLine.item = items
  numbered : log.file.records.map RolloutLine.ordinal = (List.range' base items.length).map some
  next : log.ordinalState = .paginated (some (base + items.length))
  torn : parseLine log.file.unterminated = none

variable {base : Nat} {items : List Item} {log : RolloutLog Item} {file : RolloutFile Item}
  {attempt : Attempt}

theorem Holds.withFile (holds : Holds base items log) (same : file.records = log.file.records)
    (torn : parseLine file.unterminated = none) : Holds base items { log with file } :=
  ⟨by rw [same, holds.contents], by rw [same, holds.numbered], holds.next, torn⟩

theorem records_of_torn (torn : parseLine file.unterminated = none) :
    file.records = file.lines.filterMap parseLine := by
  rw [records, filterMap_append, filterMap_cons_none torn]
  exact append_nil _

theorem records_writeLine (clean : file.unterminated = []) (line : RolloutLine Item) :
    (file.writeLine line .ok).records = file.records ++ [line] := by
  rw [records_of_torn rfl, records_of_torn (clean ▸ rfl), writeLine, clean, filterMap_append]
  rfl

theorem records_ensure (file : RolloutFile Item) :
    file.ensureRolloutIsNewlineTerminated.records = file.records := by
  unfold ensureRolloutIsNewlineTerminated
  split
  · rfl
  · exact filterMap_append.trans (append_nil _)

theorem unterminated_ensure (file : RolloutFile Item) :
    file.ensureRolloutIsNewlineTerminated.unterminated = [] := by
  unfold ensureRolloutIsNewlineTerminated
  split
  · rename_i empty
    exact isEmpty_iff.mp empty
  · rfl

/-- Opening the file changes none of its records, and ends its last line. -/
theorem openLogFile_spec (torn : parseLine file.unterminated = none) (opening : OpenOutcome) :
    (file.openLogFile opening).2.records = file.records ∧
      parseLine (file.openLogFile opening).2.unterminated = none ∧
      ((file.openLogFile opening).1 = true → (file.openLogFile opening).2.unterminated = []) := by
  have ended : parseLine file.ensureRolloutIsNewlineTerminated.unterminated = none := by
    rw [unterminated_ensure]
    rfl
  match opening with
  | .ok => exact ⟨records_ensure file, ended, fun _ => unterminated_ensure file⟩
  | .failed true => exact ⟨records_ensure file, ended, nofun⟩
  | .failed false => exact ⟨rfl, torn, nofun⟩

/-- One record: it is the next one, or a failed write left nothing that parses. -/
theorem holds_writeRolloutItem (holds : Holds base items log)
    (clean : log.file.unterminated = []) (careful : attempt.Careful)
    (room : base + items.length < u64Max) (index : Nat) (item : Item) :
    (∃ after, writeRolloutItem attempt index item log = (true, after) ∧
        Holds base (items ++ [item]) after ∧ after.file.unterminated = []) ∨
      ∃ after, writeRolloutItem attempt index item log = (false, after) ∧ Holds base items after := by
  have now : log.ordinalState.current = some (some (base + items.length)) := by
    rw [holds.next]
    rfl
  have advanced : log.ordinalState.advance = .paginated (some (base + (items.length + 1))) := by
    rw [holds.next, RolloutOrdinalState.advance, if_pos room, add_assoc]
  simp only [writeRolloutItem, now]
  cases outcome : attempt.write index with
  | ok =>
    refine .inl ⟨_, if_pos rfl, ⟨?_, ?_, ?_, rfl⟩, rfl⟩
    · rw [records_writeLine clean, map_append, holds.contents]
      rfl
    · rw [records_writeLine clean, map_append, holds.numbered, length_append,
        length_singleton, range'_concat, map_append, one_mul]
      rfl
    · rw [advanced, length_append, length_singleton]
  | nothing => exact .inr ⟨_, if_neg nofun, holds⟩
  | part =>
    have torn : parseLine (log.file.writeLine
        ⟨attempt.timestamp index, some (base + items.length), item⟩ .part).unterminated = none := by
      rw [writeLine, clean]
      rfl
    refine .inr ⟨_, if_neg nofun, holds.withFile ?_ torn⟩
    rw [records_of_torn torn, records_of_torn holds.torn]
    rfl
  | text => exact absurd outcome (careful index).1
  | line => exact absurd outcome (careful index).2

/-! ### The writer -/

/-- What a rollout is to hold. -/
structure Plan (Item : Type u) where
  base : Nat
  sessionMeta : Option GitInfo → Item
  added : List Item

namespace Plan

variable (plan : Plan Item)

def add (items : List Item) : Plan Item := { plan with added := plan.added ++ items }

/-- There are ordinals for all of it. -/
def Room : Prop := plan.base + 1 + plan.added.length ≤ u64Max

end Plan

variable {plan : Plan Item} {state : RolloutWriterState Item}

/-- The file holds the metadata and the items that are no longer pending, or nothing yet. -/
inductive Sound (plan : Plan Item) (state : RolloutWriterState Item) :
    Prop where
  | fresh (waits : state.sessionMeta = some plan.sessionMeta)
      (holds : Holds plan.base [] state.log) (pending : state.pendingItems = plan.added)
  | started {git : Option GitInfo} {taken : List Item} (wrote : state.sessionMeta = none)
      (holds : Holds plan.base (plan.sessionMeta git :: taken) state.log)
      (split : plan.added = taken ++ state.pendingItems)

/-- The file ends in a newline. -/
def Clean (state : RolloutWriterState Item) : Prop := state.log.file.unterminated = []

def Ready (state : RolloutWriterState Item) : Prop := state.writer = true → Clean state

/-- A call leaves a sound state, and one with this property if it succeeds. -/
def Leaves (plan : Plan Item) (post : RolloutWriterState Item → Prop)
    (result : Bool × RolloutWriterState Item) : Prop :=
  Sound plan result.2 ∧ (result.1 = true → post result.2)

variable (sound : Sound plan state)
include sound

theorem Sound.withFile {writer deferredCreation : Bool}
    (same : file.records = state.log.file.records) (torn : parseLine file.unterminated = none) :
    Sound plan { state with writer, deferredCreation, log.file := file } := by
  cases sound with
  | fresh waits holds pending => exact .fresh waits (holds.withFile same torn) pending
  | started wrote holds split => exact .started wrote (holds.withFile same torn) split

theorem Sound.torn : parseLine state.log.file.unterminated = none := by
  cases sound with
  | fresh _ holds | started _ holds => exact holds.torn

theorem leaves_ensureWriterOpen (ready : Ready state) (attempt : Attempt) :
    Leaves plan Clean (state.ensureWriterOpen attempt) := by
  unfold ensureWriterOpen
  split
  · rename_i opened
    exact ⟨sound, fun _ => ready opened⟩
  · have spec := openLogFile_spec sound.torn attempt.opening
    generalize state.log.file.openLogFile attempt.opening = result at spec
    obtain ⟨_ | _, _⟩ := result
    · exact ⟨sound.withFile spec.1 spec.2.1, nofun⟩
    · exact ⟨sound.withFile spec.1 spec.2.1, spec.2.2⟩

theorem leaves_writeSessionMeta (clean : Clean state) (careful : attempt.Careful) (room : plan.Room) :
    Leaves plan (fun after => after.sessionMeta = none ∧ Clean after)
      (state.writeSessionMetaIfNeeded attempt) := by
  cases sound with
  | fresh waits holds pending =>
    rw [writeSessionMetaIfNeeded, waits]
    dsimp only
    rcases holds_writeRolloutItem holds clean careful
      (lt_of_lt_of_le (lt_succ_self _) (le_trans (le_add_right _ _) room)) 0
      (plan.sessionMeta attempt.git) with
      ⟨after, written, holds, clean⟩ | ⟨after, failed, holds⟩
    · rw [written]
      exact ⟨.started rfl holds pending.symm, fun _ => ⟨rfl, clean⟩⟩
    · rw [failed]
      exact ⟨.fresh rfl holds pending, nofun⟩
  | started wrote holds split =>
    rw [writeSessionMetaIfNeeded, wrote]
    exact ⟨.started wrote holds split, fun _ => ⟨wrote, clean⟩⟩

omit sound

/-- Writing the pending items leaves none of them if it succeeds. -/
theorem leaves_writePendingItems (careful : attempt.Careful) (room : plan.Room) (index : Nat)
    (sound : Sound plan state) (begun : state.sessionMeta = none ∧ Clean state) :
    Leaves plan (fun after => after.pendingItems = [] ∧ Clean after)
      (writePendingItemsOnce attempt index state.pendingItems state) := by
  generalize pending : state.pendingItems = items
  induction items generalizing state index with
  | nil => exact ⟨sound, fun _ => ⟨pending, begun.2⟩⟩
  | cons item _ ih =>
    cases sound with
    | fresh waits => exact absurd (waits.symm.trans begun.1) nofun
    | @started git taken wrote holds split =>
      rw [pending] at split
      have short : plan.base + (plan.sessionMeta git :: taken).length < u64Max := by
        rw [Plan.Room, split, length_append, length_cons] at room
        rw [length_cons]
        omega
      rw [writePendingItemsOnce]
      rcases holds_writeRolloutItem holds begun.2 careful short index item with
        ⟨after, written, holds, clean⟩ | ⟨after, failed, holds⟩
      · rw [written]
        exact ih _ (.started wrote holds (split.trans (by simp))) ⟨wrote, clean⟩ rfl
      · rw [failed]
        exact ⟨.started wrote holds (split.trans (congrArg _ pending.symm)), nofun⟩

theorem Leaves.andThen {post post' : RolloutWriterState Item → Prop}
    {result : Bool × RolloutWriterState Item}
    {next : RolloutWriterState Item → Bool × RolloutWriterState Item}
    (leaves : Leaves plan post result)
    (goesOn : ∀ state, Sound plan state → post state → Leaves plan post' (next state)) :
    Leaves plan post' (RolloutWriterState.andThen result next) := by
  unfold RolloutWriterState.andThen
  split
  · rename_i ok
    exact goesOn _ leaves.1 (leaves.2 ok)
  · rename_i failed
    exact ⟨leaves.1, fun ok => absurd ok failed⟩

include sound

theorem leaves_writePendingOnce (ready : Ready state) (careful : attempt.Careful) (room : plan.Room) :
    Leaves plan (fun after => after.pendingItems = [] ∧ Clean after)
      (state.writePendingOnce attempt) := by
  apply (leaves_ensureWriterOpen sound ready attempt).andThen
  intro state sound clean
  apply (leaves_writeSessionMeta sound clean careful room).andThen
  intro state sound begun
  apply (leaves_writePendingItems careful room 1 sound begun).andThen
  exact fun state sound done => ⟨sound, fun _ => done⟩

theorem Sound.enterRecoveryMode : Sound plan state.enterRecoveryMode := sound.withFile rfl sound.torn

omit sound

section Calls

variable {first second : Attempt} (sound : Sound plan state) (ready : Ready state)
  (careful : first.Careful ∧ second.Careful) (room : plan.Room)

include sound ready careful room

theorem leaves_writePendingWithRecovery : Ready (state.writePendingWithRecovery first second).2 ∧
    Leaves plan (·.pendingItems = []) (state.writePendingWithRecovery first second) := by
  unfold writePendingWithRecovery
  have once := leaves_writePendingOnce sound ready careful.1 room
  generalize state.writePendingOnce first = result at once
  obtain ⟨_ | _, state⟩ := result
  · dsimp only
    have again := leaves_writePendingOnce once.1.enterRecoveryMode nofun careful.2 room
    generalize state.enterRecoveryMode.writePendingOnce second = result at again
    obtain ⟨_ | _, _⟩ := result
    · exact ⟨nofun, again.1.enterRecoveryMode, nofun⟩
    · exact ⟨fun _ => (again.2 rfl).2, again.1, fun _ => (again.2 rfl).1⟩
  · exact ⟨fun _ => (once.2 rfl).2, once.1, fun _ => (once.2 rfl).1⟩

theorem leaves_flush : Ready (state.flush first second).2 ∧
    Leaves plan (·.pendingItems = []) (state.flush first second) := by
  unfold flush
  split
  · rename_i idle
    exact ⟨ready, sound, fun _ => isEmpty_iff.mp (Bool.and_eq_true _ _ ▸ idle).2⟩
  · exact leaves_writePendingWithRecovery sound ready careful room

theorem sound_flushIfMaterialized : Ready (state.flushIfMaterialized first second) ∧
    Sound plan (state.flushIfMaterialized first second) := by
  unfold flushIfMaterialized
  split
  · exact ⟨ready, sound⟩
  · have flushed := leaves_flush sound ready careful room
    generalize state.flush first second = result at flushed
    obtain ⟨_ | _, _⟩ := result
    · exact ⟨nofun, flushed.2.1.enterRecoveryMode⟩
    · exact ⟨flushed.1, flushed.2.1⟩

end Calls

/-! ### Runs -/

variable {run : WriterRun Item}

/-- The items that a list of commands adds. -/
def addedItems (inputs : List (WriterInput Item)) : List Item :=
  inputs.flatMap fun input => input.1.items

/-- The state is sound for the items that were added before the writer finished. -/
structure Reached (plan : Plan Item) (run : WriterRun Item) : Prop where
  accepted : ∃ accepted, Sound { plan with added := accepted } run.state ∧
    accepted <+: plan.added ∧ (run.finished = false → accepted = plan.added)
  ready : Ready run.state

include sound

theorem Sound.add (items : List Item) :
    Sound (plan.add items) { state with pendingItems := state.pendingItems ++ items } := by
  cases sound with
  | fresh waits holds pending => exact .fresh waits holds (congrArg (· ++ items) pending)
  | started wrote holds split =>
    exact .started wrote holds ((congrArg (· ++ items) split).trans (append_assoc _ _ _))

/-- A sound state without pending items has all of them in its file. -/
theorem Sound.mem_records (none : state.pendingItems = []) {item : Item}
    (mem : item ∈ plan.added) : item ∈ state.log.file.records.map RolloutLine.item := by
  cases sound with
  | fresh _ _ pending =>
    rw [← pending, none] at mem
    cases mem
  | started _ holds split =>
    rw [split, none, append_nil] at mem
    rw [holds.contents]
    exact mem_cons_of_mem _ mem

omit sound

/-- One command: the items that were added are kept, and those before an `Ok` are written. -/
theorem reached_step {input : WriterInput Item}
    (reached : Reached plan run) (careful : input.2.1.Careful ∧ input.2.2.Careful)
    (room : (plan.add input.1.items).Room) :
    Reached (plan.add input.1.items) (run.step input).2 ∧
      ((run.step input).1 = some true → ∀ item ∈ plan.added, item ∈
        (run.step input).2.state.log.file.records.map RolloutLine.item) := by
  obtain ⟨⟨accepted, sound, within, all⟩, ready⟩ := reached
  obtain ⟨_, finished⟩ := run
  unfold WriterRun.step
  cases finished with
  | true => exact ⟨⟨⟨accepted, sound, within.trans (prefix_append _ _), nofun⟩, ready⟩, nofun⟩
  | false =>
    cases all rfl
    have settled {result : Bool × RolloutWriterState Item} {finished : Bool}
        (leaves : Ready result.2 ∧ Leaves plan (·.pendingItems = []) result) :
        Reached (plan.add []) ⟨result.2, finished⟩ ∧ (some result.1 = some true →
          ∀ item ∈ plan.added, item ∈ result.2.log.file.records.map RolloutLine.item) :=
      ⟨⟨⟨plan.added, leaves.2.1, prefix_append _ _, fun _ => (append_nil _).symm⟩,
        leaves.1⟩, fun ok item => leaves.2.1.mem_records (leaves.2.2 (Option.some.inj ok))⟩
    have before : plan.Room := by
      simp only [Plan.Room, Plan.add, length_append] at room ⊢
      omega
    obtain ⟨command, _, _⟩ := input
    cases command with
    | addItems items =>
      have flushed := sound_flushIfMaterialized (sound.add items) ready careful room
      exact ⟨⟨⟨_, flushed.2, prefix_refl _, fun _ => rfl⟩, flushed.1⟩, nofun⟩
    | persist => exact settled (leaves_writePendingWithRecovery sound ready careful before)
    | flush | shutdown => exact settled (leaves_flush sound ready careful before)

theorem reached_run {inputs : List (WriterInput Item)} (reached : Reached plan run)
    (careful : ∀ input ∈ inputs, input.2.1.Careful ∧ input.2.2.Careful)
    (room : (plan.add (addedItems inputs)).Room) :
    Reached (plan.add (addedItems inputs)) (run.run inputs) := by
  induction inputs generalizing plan run with
  | nil => simpa [addedItems, WriterRun.run, Plan.add] using reached
  | cons input inputs ih =>
    obtain ⟨here, rest⟩ := forall_mem_cons.mp careful
    have split : plan.add (addedItems (input :: inputs)) =
        (plan.add input.1.items).add (addedItems inputs) := by simp [addedItems, Plan.add]
    rw [split] at room ⊢
    refine ih (reached_step reached here ?_).1 rest room
    simp only [Plan.Room, Plan.add, length_append] at room ⊢
    omega

/-! ### The projection -/

/-- Records with consecutive ordinals are projected. The rejected lines cover the ordinals
of the records without a time. -/
theorem projects_lines (tools : ProjectionTools Item) (lines : List (List (Fragment Item)))
    (state : Projection Item) {ordinal count : Nat}
    (numbered : (lines.filterMap parseLine).map RolloutLine.ordinal = (range' ordinal count).map some)
    (room : ordinal + count ≤ u64Max) (low : state.nextOrdinal ≤ ordinal)
    (covered : ordinal - state.nextOrdinal ≤ state.pendingRejectedLineCount) :
    ∃ after, lines.foldlM (readLine tools) state = .ok after := by
  induction lines generalizing state ordinal count with
  | nil => exact ⟨state, rfl⟩
  | cons line _ ih =>
    rw [foldlM_cons, readLine]
    split
    · rename_i blank
      rw [isEmpty_iff.mp blank] at numbered
      exact ih _ numbered room low covered
    · cases parsed : parseLine line with
      | none =>
        rw [filterMap_cons_none parsed] at numbered
        exact ih _ numbered room low (le_succ_of_le covered)
      | some =>
        rw [filterMap_cons_some parsed] at numbered
        cases count with
        | zero => cases numbered
        | succ =>
          obtain ⟨here, rest⟩ := List.cons.inj numbered
          dsimp only
          rw [here]
          dsimp only
          rw [if_neg (not_lt.mpr low), if_neg (not_lt.mpr covered)]
          split
          · refine ih _ rest (by omega) (le_succ_of_le low) ?_
            simp only [reject]
            omega
          · rw [if_neg (by omega)]
            exact ih _ rest (by omega) (le_refl _) (by simp)

/-- In every run of a new writer in which no failed write leaves a whole JSON text, and
which does not run out of ordinals: the records of the file are a beginning of the metadata
and the added items, with consecutive ordinals; the projection reads the file; and the next
command is acknowledged with `Ok` only when all items added before it are in the file. -/
theorem written_in_order (sessionMeta : Option GitInfo → Item) (base : Nat)
    (inputs : List (WriterInput Item))
    (next : WriterInput Item)
    (careful : ∀ input ∈ inputs ++ [next], input.2.1.Careful ∧ input.2.2.Careful)
    (room : base + 1 + (addedItems (inputs ++ [next])).length ≤ u64Max) :
    let run := (WriterRun.create sessionMeta base).run inputs
    let file := run.state.log.file
    (∃ git, file.records.map RolloutLine.item <+: sessionMeta git :: addedItems inputs) ∧
      file.records.map RolloutLine.ordinal = (List.range' base file.records.length).map some ∧
      (∀ tools, ∃ steps, readProjectionSteps tools base file = .ok steps) ∧
      ((run.step next).1 = some true → ∀ item ∈ addedItems inputs,
        item ∈ (run.step next).2.state.log.file.records.map RolloutLine.item) := by
  intro run file
  have created : Reached ⟨base, sessionMeta, []⟩ (WriterRun.create sessionMeta base) :=
    ⟨⟨[], .fresh rfl ⟨rfl, rfl, rfl, rfl⟩ rfl, prefix_refl _, fun _ => rfl⟩, nofun⟩
  obtain ⟨carefulInputs, carefulNext⟩ := forall_mem_append.mp careful
  simp only [addedItems, flatMap_append, length_append, flatMap_singleton] at room
  have reached := reached_run created carefulInputs
    (by simp only [Plan.Room, Plan.add, addedItems, nil_append]; omega)
  obtain ⟨_, sound, within, -⟩ := reached.accepted
  have held : ∃ git items, items <+: sessionMeta git :: addedItems inputs ∧
      Holds base items run.state.log := by
    cases sound with
    | fresh _ holds => exact ⟨none, [], nil_prefix, holds⟩
    | started _ holds split =>
      refine ⟨_, _, (prefix_cons_inj _).mpr (List.IsPrefix.trans ?_ within), holds⟩
      exact ⟨_, split.symm⟩
  obtain ⟨git, items, leads, holds⟩ := held
  have lengths : items.length = file.records.length := by rw [← holds.contents, length_map]
  refine ⟨⟨git, holds.contents ▸ leads⟩, lengths ▸ holds.numbered, fun tools => ?_, ?_⟩
  · have numbered := holds.numbered
    rw [records_of_torn holds.torn] at numbered
    have short := leads.length_le
    simp only [length_cons, addedItems] at short
    obtain ⟨_, read⟩ := projects_lines tools _ { nextOrdinal := base } numbered (by omega)
      (le_refl _) (by simp)
    exact ⟨_, by rw [readProjectionSteps, read]; rfl⟩
  · refine (reached_step reached (carefulNext next mem_cons_self) ?_).2
    simp only [Plan.Room, Plan.add, addedItems, nil_append, length_append]
    omega

def attemptWith (outcome : WriteOutcome) : Attempt :=
  { opening := .ok, git := none, timestamp := fun _ => "", write := fun _ => outcome, flushed := true }

/-- An item is added; the first write of `persist` ends in this way, and the retry succeeds. -/
def persistOnce (outcome : WriteOutcome) : List (WriterInput String) :=
  [(.addItems ["item"], attemptWith .ok, attemptWith .ok),
    (.persist, attemptWith outcome, attemptWith .ok)]

/-- A write breaks off within a record; the torn line does not parse, and the retry writes both
records in order. -/
theorem tornWrite_in_order : ((WriterRun.create (fun _ => "meta") 0).run
      (persistOnce .part)).state.log.file.records.map RolloutLine.ordinal = [some 0, some 1] := by
  refine (written_in_order (fun _ => "meta") 0 (persistOnce .part)
    (.flush, attemptWith .ok, attemptWith .ok) ?_ (by decide)).2.1
  simp [persistOnce, Attempt.Careful, attemptWith]

/-- The text was written without its newline: the record is repeated, and the projection
refuses the file. -/
theorem wholeText_repeated :
    let file := ((WriterRun.create (fun _ => "meta") 0).run (persistOnce .text)).state.log.file
    (file.records.map fun record => (record.ordinal, record.item)) =
        [(some 0, "meta"), (some 0, "meta"), (some 1, "item")] ∧
      readProjectionSteps ⟨fun _ => 1, fun _ => false⟩ 0 file = .error (.expectedOrdinal 1 0) :=
  ⟨rfl, rfl⟩

end WeaveCodex.Rollout
