/-
Purpose: The changes that a batch of rollout items reports: one change set for each item,
  put together in an accumulator, and the store that follows the changes.
Trusted boundary: translation of `ThreadHistoryChangeAccumulator` and the `_with_changes`
  handlers in `app-server-protocol/src/protocol/thread_history.rs`; the store is not code of
  that file, it does what a change set says
-/
import WeaveCodex.Library.SlotTable
import WeaveCodex.ThreadHistory.Builder

namespace WeaveCodex.ThreadHistory

open Library Library.KeyedList

universe u

variable {Json : Type u}

/-! ### The accumulator -/

def ThreadHistoryItemChange.key (change : ThreadHistoryItemChange Json) : String × String :=
  (change.turnId, change.item.id)

/-- The changes of a batch, with the latest snapshot of each item and turn. -/
structure ThreadHistoryChangeAccumulator (Json : Type u) where
  /-- `changed_items` and `changed_item_indexes`. -/
  changedItems : SlotTable (@ThreadHistoryItemChange.key Json)
  /-- `changed_turns` and `changed_turn_indexes`. -/
  changedTurns : SlotTable (@ThreadHistoryTurnChange.turnId Json)
  removedTurnIds : List String
  removedTurnIndexes : AList fun _ : String => Nat
  indexed : ∀ turnId, turnId ∈ removedTurnIndexes ↔ turnId ∈ removedTurnIds

namespace ThreadHistoryChangeAccumulator

def empty : ThreadHistoryChangeAccumulator Json where
  changedItems := SlotTable.empty
  changedTurns := SlotTable.empty
  removedTurnIds := []
  removedTurnIndexes := ∅
  indexed turnId := by simp

variable (accumulator : ThreadHistoryChangeAccumulator Json)

def pushItemChange (change : ThreadHistoryItemChange Json) : ThreadHistoryChangeAccumulator Json :=
  { accumulator with changedItems := accumulator.changedItems.push change }

def pushTurnChange (change : ThreadHistoryTurnChange Json) : ThreadHistoryChangeAccumulator Json :=
  { accumulator with changedTurns := accumulator.changedTurns.push change }

/-- A removed turn is noted once. -/
def noteRemovedTurnId (turnId : String) : ThreadHistoryChangeAccumulator Json :=
  if turnId ∈ accumulator.removedTurnIndexes then accumulator
  else
    { accumulator with
      removedTurnIds := accumulator.removedTurnIds ++ [turnId]
      removedTurnIndexes :=
        accumulator.removedTurnIndexes.insert turnId accumulator.removedTurnIds.length
      indexed := by
        intro other
        rw [AList.mem_insert, accumulator.indexed, List.mem_append, List.mem_singleton, or_comm] }

/-- What the batch said about a removed turn so far is dropped. -/
def pushRemovedTurnId (turnId : String) : ThreadHistoryChangeAccumulator Json :=
  let accumulator := accumulator.noteRemovedTurnId turnId
  { accumulator with
    changedTurns := accumulator.changedTurns.removeKey turnId
    changedItems := accumulator.changedItems.removeKeys fun key => key.1 = turnId }

def push (changes : ThreadHistoryChangeSet Json) : ThreadHistoryChangeAccumulator Json :=
  let accumulator := changes.removedTurnIds.foldl pushRemovedTurnId accumulator
  let accumulator := changes.changedItems.foldl pushItemChange accumulator
  changes.changedTurns.foldl pushTurnChange accumulator

def finish : ThreadHistoryChangeSet Json :=
  { changedItems := accumulator.changedItems.values
    changedTurns := accumulator.changedTurns.values
    removedTurnIds := accumulator.removedTurnIds }

end ThreadHistoryChangeAccumulator

/-! ### Handlers that report changes -/

namespace ThreadHistoryBuilder

variable (tools : BuilderTools) (builder : ThreadHistoryBuilder Json)

def handleRolloutItemWithChanges (item : RolloutItem Json) :
    ThreadHistoryChangeSet Json × ThreadHistoryBuilder Json :=
  let builder := { builder with activeChangeSet := some {} }.handleRolloutItem tools item
  (builder.activeChangeSet.getD {}, { builder with activeChangeSet := none })

/-- The loop over a batch, with the accumulator. -/
def accumulateChanges (accumulator : ThreadHistoryChangeAccumulator Json)
    (items : List (RolloutItem Json)) :
    ThreadHistoryChangeAccumulator Json × ThreadHistoryBuilder Json :=
  items.foldl (fun (accumulator, builder) item =>
      let (changes, builder) := builder.handleRolloutItemWithChanges tools item
      (accumulator.push changes, builder))
    (accumulator, builder)

def handleRolloutItemsWithChanges (items : List (RolloutItem Json)) :
    ThreadHistoryChangeSet Json × ThreadHistoryBuilder Json :=
  let (accumulator, builder) :=
    builder.accumulateChanges tools ThreadHistoryChangeAccumulator.empty items
  (accumulator.finish, builder)

end ThreadHistoryBuilder

/-! ### A store that follows the changes -/

/-- The removed turns go, with their items. -/
def removeTurns (turnIds : List String) (store : List (Turn Json)) : List (Turn Json) :=
  store.filter fun turn => turn.id ∉ turnIds

/-- The metadata of a turn are overwritten. -/
def Turn.setMetadata (change : ThreadHistoryTurnChange Json) (turn : Turn Json) : Turn Json :=
  { turn with
    status := change.status
    error := change.error
    startedAt := change.startedAt
    completedAt := change.completedAt
    durationMs := change.durationMs }

/-- A known turn is overwritten, a new one comes last. -/
def putTurn (store : List (Turn Json)) (change : ThreadHistoryTurnChange Json) : List (Turn Json) :=
  if store.any fun turn => turn.id = change.turnId then
    updateFirst Turn.id change.turnId (Turn.setMetadata change) store
  else store ++ [Turn.setMetadata change { id := change.turnId }]

/-- An item of a known turn is overwritten, or comes last in the turn. -/
def Turn.putItem (item : ThreadItem Json) (turn : Turn Json) : Turn Json :=
  { turn with items := upsertTurnItem turn.items item }

def putItem (store : List (Turn Json)) (change : ThreadHistoryItemChange Json) : List (Turn Json) :=
  updateFirst Turn.id change.turnId (Turn.putItem change.item) store

def applyChanges (store : List (Turn Json)) (changes : ThreadHistoryChangeSet Json) :
    List (Turn Json) :=
  changes.changedItems.foldl putItem
    (changes.changedTurns.foldl putTurn (removeTurns changes.removedTurnIds store))

/-- The store after each batch, applied to it in turn. -/
def applyBatches (tools : BuilderTools) :
    ThreadHistoryBuilder Json → List (Turn Json) → List (List (RolloutItem Json)) → List (Turn Json)
  | _, store, [] => store
  | builder, store, batch :: batches =>
    let (changes, builder) := builder.handleRolloutItemsWithChanges tools batch
    applyBatches tools builder (applyChanges store changes) batches

end WeaveCodex.ThreadHistory
