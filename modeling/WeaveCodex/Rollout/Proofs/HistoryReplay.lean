/-
Purpose: What the replay of a rollout depends on: the items of the history it starts with,
  and nothing at all once it meets a compaction with a replacement history.
-/
import WeaveCodex.Rollout.Reconstruction

namespace WeaveCodex.Rollout

open ContextManager List

universe u

variable {Json : Type u} {tools : HistoryTools Json}

namespace ContextManager

theorem trim_snd (first second : ContextManager Json)
    (snapshot : List (ResponseItemEnvelope Json)) (firstInstructionTurnIdx cutIdx : Nat) :
    (first.trimPreTurnContextUpdates tools snapshot firstInstructionTurnIdx cutIdx).2 =
      (second.trimPreTurnContextUpdates tools snapshot firstInstructionTurnIdx cutIdx).2 := by
  induction cutIdx generalizing first second with
  | zero => rfl
  | succ _ ih =>
    unfold trimPreTurnContextUpdates
    split
    · rfl
    · split
      · split
        · exact ih _ _
        · split
          · exact ih _ _
          · rfl
      · rfl

end ContextManager

/-- The two histories have the same items. -/
def SameItems (first second : Replay Json) : Prop :=
  first.history.items = second.history.items

variable {first second : Replay Json} {replacement : List (ResponseItemEnvelope Json)}
  {compacted : CompactedItem Json}

/-- Equal histories stay equal when an item is replayed. -/
theorem sameItems_replayItem (same : SameItems first second) (item : RolloutItem Json) :
    SameItems (first.replayItem tools item) (second.replayItem tools item) := by
  have recorded : ∀ envelope, (first.history.recordItem tools envelope).items =
      (second.history.recordItem tools envelope).items := by
    intro envelope
    unfold recordItem
    split
    · exact same
    · exact congrArg (· ++ _) same
  cases item with
  | responseItem envelope => exact recorded envelope
  | interAgentCommunication => exact recorded _
  | compacted compacted =>
    simp only [SameItems, Replay.replayItem]
    cases compacted.replacementHistory with
    | some => rfl
    | none =>
      have items : first.history.items = second.history.items := same
      simp only [items, replaceAnnotated]
  | eventMsg event =>
    cases event with
    | threadRolledBack numTurns =>
      show (first.history.dropLastNUserTurns tools numTurns).items =
        (second.history.dropLastNUserTurns tools numTurns).items
      have items : first.history.items = second.history.items := same
      unfold dropLastNUserTurns
      split
      · exact same
      · simp only [items, replaceAnnotated]
        cases userMessagePositions tools 0 second.history.items with
        | nil => rfl
        | cons =>
          simp only
          rw [trim_snd first.history second.history]
    | _ => exact same
  | _ => exact same

theorem sameItems_replayItems (same : SameItems first second) (items : List (RolloutItem Json)) :
    SameItems (first.replayItems tools items) (second.replayItems tools items) := by
  induction items generalizing first second with
  | nil => exact same
  | cons item _ ih =>
    exact ih (sameItems_replayItem same item)

/-- A compaction with a replacement history. -/
def isCheckpoint : RolloutItem Json → Bool
  | .compacted compacted => compacted.replacementHistory.isSome
  | _ => false

theorem isCheckpoint_iff {item : RolloutItem Json} : isCheckpoint item = true ↔
    ∃ compacted replacement, item = .compacted compacted ∧
      compacted.replacementHistory = some replacement := by
  constructor
  · intro marked
    cases item with
    | compacted compacted =>
      obtain ⟨replacement, found⟩ := Option.isSome_iff_exists.mp marked
      exact ⟨compacted, replacement, rfl, found⟩
    | _ => cases marked
  · rintro ⟨_, _, rfl, found⟩
    simp [isCheckpoint, found]

variable (replay : Replay Json)

theorem replayItem_checkpoint (found : compacted.replacementHistory = some replacement) :
    SameItems (replay.replayItem tools (.compacted compacted)) (Replay.start (some replacement)) := by
  simp only [SameItems, Replay.replayItem, found]
  rfl

theorem replayItems_append (front tail : List (RolloutItem Json)) :
    replay.replayItems tools (front ++ tail) =
      (replay.replayItems tools front).replayItems tools tail :=
  foldl_append

/-- From a checkpoint on, what was before does not matter. -/
theorem replayItems_checkpoint (front tail : List (RolloutItem Json))
    (found : compacted.replacementHistory = some replacement) :
    SameItems (replay.replayItems tools (front ++ .compacted compacted :: tail))
      ((Replay.start (some replacement)).replayItems tools tail) := by
  rw [replayItems_append]
  exact sameItems_replayItems (replayItem_checkpoint _ found) tail

theorem replayItems_reset (first second : Replay Json) {items : List (RolloutItem Json)}
    (marked : items.any isCheckpoint = true) :
    SameItems (first.replayItems tools items) (second.replayItems tools items) := by
  obtain ⟨_, mem, checkpoint⟩ := any_eq_true.mp marked
  obtain ⟨_, _, rfl, found⟩ := isCheckpoint_iff.mp checkpoint
  obtain ⟨front, tail, rfl⟩ := append_of_mem mem
  exact (replayItems_checkpoint first front tail found).trans
    (replayItems_checkpoint second front tail found).symm

end WeaveCodex.Rollout
