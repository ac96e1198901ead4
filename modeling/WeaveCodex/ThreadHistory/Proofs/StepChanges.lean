/-
Purpose: The changes that one rollout item reports lead from what the builder showed before
  the item to what it shows after it, if turns and the items of a turn have ids of their
  own.
-/
import WeaveCodex.ThreadHistory.Proofs.BuilderRuns
import WeaveCodex.ThreadHistory.Proofs.Coalescing

namespace WeaveCodex.ThreadHistory

open Library.KeyedList ThreadHistoryTurnChange List Option

universe u

variable {Json : Type u} {store : List (Turn Json)}

/-- A turn id names one turn, and an item id one item of a turn. -/
structure DistinctIds (turns : List (Turn Json)) : Prop where
  turnIds : (turns.map Turn.id).Nodup
  itemIds : ∀ turn ∈ turns, (turn.items.map ThreadItem.id).Nodup

instance (turns : List (Turn Json)) : Decidable (DistinctIds turns) :=
  decidable_of_iff ((turns.map Turn.id).Nodup ∧ ∀ turn ∈ turns, (turn.items.map ThreadItem.id).Nodup)
    ⟨fun distinct => ⟨distinct.1, distinct.2⟩, fun distinct => ⟨distinct.turnIds, distinct.itemIds⟩⟩

variable {turns : List (Turn Json)}

theorem DistinctIds.last_fresh {turn : Turn Json} (distinct : DistinctIds (turns ++ [turn])) :
    turn.id ∉ turns.map Turn.id := by
  have ids := distinct.turnIds
  rw [map_append, map_singleton, nodup_append] at ids
  intro mem
  exact ids.2.2 turn.id mem turn.id (mem_singleton.mpr rfl) rfl

theorem DistinctIds.last_items {turn : Turn Json} (distinct : DistinctIds (turns ++ [turn])) :
    (turn.items.map ThreadItem.id).Nodup :=
  distinct.itemIds turn (mem_append_right _ (mem_singleton.mpr rfl))

/-! ### Changes and what they lead to -/

theorem applyChanges_empty (store : List (Turn Json)) : applyChanges store {} = store := by
  simp [applyChanges, removeTurns]

variable {changed : Turn Json}

theorem setMetadata_fromTurn {turn : Turn Json} (sameId : changed.id = turn.id)
    (sameItems : changed.items = turn.items) :
    turn.setMetadata (fromTurn changed) = changed := by
  rcases changed with ⟨_, _, _, _, _, _, _⟩
  rcases turn with ⟨_, _, _, _, _, _, _⟩
  cases sameId
  cases sameItems
  rfl

/-- The snapshot of a changed turn puts the turn in the place of the one that it changes. -/
theorem putTurn_fromTurn_of_find? {turn : Turn Json}
    (found : (store.find? fun other => other.id = turn.id) = some turn)
    (sameId : changed.id = turn.id) (sameItems : changed.items = turn.items) :
    putTurn store (fromTurn changed) = updateFirst Turn.id turn.id (fun _ => changed) store := by
  have mem : changed.id ∈ store.map Turn.id :=
    sameId.symm ▸ mem_map_of_mem (mem_of_find?_eq_some found)
  rw [putTurn_of_mem mem]
  change updateFirst Turn.id changed.id _ store = _
  rw [sameId]
  apply updateFirst_congr_of_find?
  intro other otherFound
  rw [found] at otherFound
  exact Option.some.inj otherFound ▸ setMetadata_fromTurn sameId sameItems

/-- The recorded changes lead from the store to what the builder shows. -/
structure Follows (store : List (Turn Json)) (changes : ThreadHistoryChangeSet Json)
    (builder : ThreadHistoryBuilder Json) : Prop where
  recorded : builder.activeChangeSet = some changes
  applied : applyChanges store changes = builder.view
  known : ∀ change ∈ changes.changedItems, change.turnId ∈ builder.view.map Turn.id

/-- So far only turns have been recorded: more of them may be. -/
def TurnsReplayed (store : List (Turn Json)) (builder : ThreadHistoryBuilder Json) : Prop :=
  ∃ changedTurns, Follows store { changedTurns } builder

def Replayed (store : List (Turn Json)) (builder : ThreadHistoryBuilder Json) : Prop :=
  ∃ changes, Follows store changes builder

namespace ThreadHistoryBuilder

variable {builder : ThreadHistoryBuilder Json} {tools : BuilderTools}

theorem view_of_current {turn : PendingTurn Json} (current : builder.currentTurn = some turn) :
    builder.view = builder.turns ++ [turn.toTurn] := by
  rw [view, current]
  rfl

theorem view_of_no_turn (none : builder.currentTurn = none) : builder.view = builder.turns := by
  rw [view, none, map_none, toList_none, append_nil]

end ThreadHistoryBuilder

open ThreadHistoryBuilder

variable {builder : ThreadHistoryBuilder Json} {tools : BuilderTools}

theorem TurnsReplayed.replayed (replayed : TurnsReplayed store builder) : Replayed store builder := by
  obtain ⟨_, follows⟩ := replayed
  exact ⟨_, follows⟩

variable {after : ThreadHistoryBuilder Json} (replayed : TurnsReplayed store builder)
include replayed

/-- A step that records nothing and shows the same. -/
theorem TurnsReplayed.of_same (sameChanges : after.activeChangeSet = builder.activeChangeSet)
    (sameView : after.view = builder.view) : TurnsReplayed store after := by
  obtain ⟨changedTurns, recorded, applied, known⟩ := replayed
  exact ⟨changedTurns, sameChanges.trans recorded, applied.trans sameView.symm, sameView ▸ known⟩

omit replayed

/-! ### Steps on turns -/

theorem activeChangeSet_finishCurrentTurn (builder : ThreadHistoryBuilder Json) :
    builder.finishCurrentTurn.activeChangeSet = builder.activeChangeSet := by
  rw [finishCurrentTurn]
  split
  · rfl
  · split <;> rfl

include replayed

theorem TurnsReplayed.finishCurrentTurn (live : builder.Live) :
    TurnsReplayed store builder.finishCurrentTurn :=
  replayed.of_same (activeChangeSet_finishCurrentTurn builder) (view_finishCurrentTurn live)

/-- A recorded turn leads to what the builder shows with it. -/
theorem TurnsReplayed.recordChangedTurn (turn : Turn Json)
    (recorded : after.activeChangeSet = (builder.recordChangedTurn turn).activeChangeSet)
    (put : putTurn builder.view (fromTurn turn) = after.view) :
    TurnsReplayed store after := by
  obtain ⟨changedTurns, recordedBefore, applied, _⟩ := replayed
  refine ⟨changedTurns ++ [fromTurn turn], ?_, ?_, ?_⟩
  · rw [recorded, ThreadHistoryBuilder.recordChangedTurn, recordedBefore]
    rfl
  · rw [← put, ← applied, applyChanges, foldl_append]
    rfl
  · intro change mem
    cases mem

variable {turn : PendingTurn Json}

theorem TurnsReplayed.openTurn (noTurn : builder.currentTurn = none) (empty : turn.items = [])
    (fresh : turn.id ∉ builder.turns.map Turn.id) :
    TurnsReplayed store (builder.openTurn turn) := by
  apply replayed.recordChangedTurn turn.toTurn (by rfl)
  rw [view_of_no_turn noTurn, putTurn_of_not_mem fresh]
  exact congrArg (fun last => builder.turns ++ [last]) (setMetadata_fromTurn rfl empty)

omit replayed

theorem currentTurn_ensureTurn (builder : ThreadHistoryBuilder Json) (tools : BuilderTools) :
    (builder.ensureTurn tools).2.currentTurn = some (builder.ensureTurn tools).1 := by
  rw [ensureTurn]
  split
  · assumption
  · rfl

theorem TurnsReplayed.ensureTurn (replayed : TurnsReplayed store builder)
    (fresh : (builder.ensureTurn tools).1.id ∉ (builder.ensureTurn tools).2.turns.map Turn.id) :
    TurnsReplayed store (builder.ensureTurn tools).2 := by
  rw [ThreadHistoryBuilder.ensureTurn] at fresh ⊢
  split at fresh
  · exact replayed
  · rename_i noTurn
    exact replayed.openTurn noTurn rfl fresh

variable {turnId : String}

theorem find?_id_eq_none (missing : turnId ∉ turns.map Turn.id) :
    (turns.find? fun turn => turn.id = turnId) = none := by
  rw [find?_eq_none]
  intro turn mem same
  exact missing (decide_eq_true_eq.mp same ▸ mem_map_of_mem mem)

include replayed

variable {change : Turn Json → Turn Json}

theorem TurnsReplayed.amendCurrentTurn (current : builder.currentTurn = some turn)
    (fresh : turn.id ∉ builder.turns.map Turn.id) (onlyMetadata : OnlyMetadata change) :
    TurnsReplayed store (builder.amendCurrentTurn turn change) := by
  obtain ⟨sameId, sameItems⟩ := onlyMetadata turn.toTurn
  have found : ((builder.turns ++ [turn.toTurn]).find? fun other => other.id = turn.id) =
      some turn.toTurn := by
    rw [List.find?_append, find?_id_eq_none fresh]
    simp
  apply replayed.recordChangedTurn (change turn.toTurn) (by rfl)
  rw [view_of_current current, putTurn_fromTurn_of_find? found sameId sameItems,
    updateFirst_append_of_not_mem fresh, updateFirst, if_pos rfl]
  rfl

theorem TurnsReplayed.amendFinishedTurn {turn : Turn Json}
    (found : (builder.turns.find? fun other => other.id = turn.id) = some turn)
    (onlyMetadata : OnlyMetadata change) :
    TurnsReplayed store (builder.amendFinishedTurn turn change) := by
  obtain ⟨sameId, sameItems⟩ := onlyMetadata turn
  have foundInView : (builder.view.find? fun other => other.id = turn.id) = some turn := by
    rw [view, find?_append, found, some_or]
  have mem : turn.id ∈ builder.turns.map Turn.id :=
    mem_map_of_mem (mem_of_find?_eq_some found)
  apply replayed.recordChangedTurn (change turn) (by rfl)
  rw [putTurn_fromTurn_of_find? foundInView sameId sameItems, view, updateFirst_append_of_mem mem]
  congr 1
  apply updateFirst_congr_of_find?
  intro other otherFound
  rw [found] at otherFound
  rw [Option.some.inj otherFound]

omit replayed

/-! ### Steps on items -/

/-- A recorded item leads to what the builder shows with it. -/
theorem Replayed.recordChangedItem (replayed : Replayed store builder) (turnId : String)
    (item : ThreadItem Json)
    (recorded : after.activeChangeSet = (builder.recordChangedItem turnId item).activeChangeSet)
    (present : turnId ∈ builder.view.map Turn.id)
    (put : putItem builder.view { turnId, item } = after.view) : Replayed store after := by
  obtain ⟨changes, recordedBefore, applied, known⟩ := replayed
  have sameIds : after.view.map Turn.id = builder.view.map Turn.id :=
    put ▸ ids_putItem builder.view { turnId, item }
  refine ⟨{ changes with changedItems := changes.changedItems ++ [{ turnId, item }] }, ?_, ?_, ?_⟩
  · rw [recorded, ThreadHistoryBuilder.recordChangedItem, recordedBefore]
    rfl
  · rw [← put, ← applied, applyChanges, foldl_append]
    rfl
  · rw [sameIds]
    exact forall_mem_append.mpr ⟨known, forall_mem_singleton.mpr present⟩

variable {item : ThreadItem Json} {items : List (ThreadItem Json)} {source : RolloutItem Json}

theorem Replayed.setCurrentItems (replayed : Replayed store builder)
    (current : builder.currentTurn = some turn) (fresh : turn.id ∉ builder.turns.map Turn.id)
    (put : items = upsertTurnItem turn.items item) :
    Replayed store (builder.setCurrentItems turn items item) := by
  apply replayed.recordChangedItem turn.id item (by rfl)
  · rw [view_of_current current, map_append, mem_append]
    exact .inr (mem_singleton.mpr rfl)
  · rw [view_of_current current, putItem, updateFirst_append_of_not_mem fresh, updateFirst,
      if_pos rfl, view_of_current rfl, put]
    rfl

/-- The turn and the items that an item of the current turn leaves. -/
theorem view_setCurrentItems (builder : ThreadHistoryBuilder Json) (turn : PendingTurn Json)
    (items : List (ThreadItem Json)) (item : ThreadItem Json) :
    (builder.setCurrentItems turn items item).view = builder.turns ++ [{ turn.toTurn with items }] :=
  rfl

theorem append_eq_upsertTurnItem (distinct : ((items ++ [item]).map ThreadItem.id).Nodup) :
    items ++ [item] = upsertTurnItem items item := by
  rw [map_append, nodup_append] at distinct
  rw [upsertTurnItem, upsertBy_of_not_mem]
  intro mem
  exact distinct.2.2 _ mem _ (mem_singleton.mpr rfl) rfl

include replayed

theorem TurnsReplayed.pushItemInCurrentTurn
    (distinct : DistinctIds (builder.pushItemInCurrentTurn tools item).view) :
    Replayed store (builder.pushItemInCurrentTurn tools item) := by
  rw [ThreadHistoryBuilder.pushItemInCurrentTurn, view_setCurrentItems] at distinct
  exact (replayed.ensureTurn distinct.last_fresh).replayed.setCurrentItems
    (currentTurn_ensureTurn builder tools) distinct.last_fresh
    (append_eq_upsertTurnItem distinct.last_items)

theorem TurnsReplayed.upsertItemInCurrentTurn
    (distinct : DistinctIds (builder.upsertItemInCurrentTurn tools item).view) :
    Replayed store (builder.upsertItemInCurrentTurn tools item) := by
  rw [ThreadHistoryBuilder.upsertItemInCurrentTurn, view_setCurrentItems] at distinct
  exact (replayed.ensureTurn distinct.last_fresh).replayed.setCurrentItems
    (currentTurn_ensureTurn builder tools) distinct.last_fresh rfl

omit replayed

theorem any_id_iff : (turns.any fun turn => turn.id = turnId) = true ↔ turnId ∈ turns.map Turn.id := by
  simp

theorem Replayed.upsertItemInFinishedTurn (replayed : Replayed store builder) (turnId : String)
    (item : ThreadItem Json) : Replayed store (builder.upsertItemInFinishedTurn turnId item) := by
  rw [ThreadHistoryBuilder.upsertItemInFinishedTurn]
  split
  · rename_i finished
    rw [any_id_iff] at finished
    apply replayed.recordChangedItem turnId item (by rfl)
    · rw [view, map_append, mem_append]
      exact .inl finished
    · rw [view, putItem, updateFirst_append_of_mem finished]
      rfl
  · exact replayed

theorem Replayed.upsertItemInTurnId (replayed : Replayed store builder)
    (distinct : DistinctIds (builder.upsertItemInTurnId turnId item).view) :
    Replayed store (builder.upsertItemInTurnId turnId item) := by
  rw [ThreadHistoryBuilder.upsertItemInTurnId] at distinct ⊢
  split at distinct
  · rename_i current
    split at distinct
    · rename_i same
      rw [view_setCurrentItems] at distinct
      rw [if_pos same]
      exact replayed.setCurrentItems current distinct.last_fresh rfl
    · rename_i apart
      rw [if_neg apart]
      exact replayed.upsertItemInFinishedTurn turnId item
  · exact replayed.upsertItemInFinishedTurn turnId item

/-! ### Messages -/

theorem replaceLast_eq_upsertTurnItem {last item : ThreadItem Json}
    (isLast : items.getLast? = some last) (sameId : item.id = last.id)
    (distinct : ((items.dropLast ++ [item]).map ThreadItem.id).Nodup) :
    items.dropLast ++ [item] = upsertTurnItem items item := by
  have split : items = items.dropLast ++ [last] := by
    rw [dropLast_append_getLast? last isLast]
  have fresh : item.id ∉ items.dropLast.map ThreadItem.id := by
    rw [map_append, nodup_append] at distinct
    intro mem
    exact distinct.2.2 _ mem _ (mem_singleton.mpr rfl) rfl
  conv_rhs => rw [split, upsertTurnItem, upsertBy_append_of_not_mem fresh, upsertBy, if_pos sameId.symm]

theorem pushItemInCurrentTurn_of_current (current : builder.currentTurn = some turn)
    (item : ThreadItem Json) :
    builder.pushItemInCurrentTurn tools item =
      builder.setCurrentItems turn (turn.items ++ [item]) item := by
  rw [ThreadHistoryBuilder.pushItemInCurrentTurn, ThreadHistoryBuilder.ensureTurn, current]

/-! ### Reviews -/

theorem lacksTurn_iff : builder.lacksTurn turnId = true ↔ turnId ∉ builder.view.map Turn.id := by
  rw [lacksTurn, view]
  cases builder.currentTurn with
  | none => simp
  | some =>
    simp only [any_some, map_some, toList_some, map_append,
      map_singleton, mem_append, mem_singleton, not_or, Bool.and_eq_true,
      Bool.not_eq_true', decide_eq_false_iff_not, ← any_id_iff, Bool.not_eq_true]
    rw [and_comm, eq_comm (a := turnId)]

include replayed

theorem TurnsReplayed.prepared (live : builder.Live) {prepare : Handler Json}
    (prepared : Preparation source prepare) : TurnsReplayed store (prepare builder) := by
  cases prepared with
  | none => exact replayed
  | numbered => exact replayed.of_same rfl rfl
  | closed => exact (replayed.finishCurrentTurn live).of_same rfl rfl

theorem TurnsReplayed.openedForReview (live : builder.Live) (turnId : String) :
    TurnsReplayed store (builder.openedForReview tools turnId) := by
  rw [ThreadHistoryBuilder.openedForReview]
  split
  · rename_i lacks
    apply (replayed.finishCurrentTurn live).openTurn (currentTurn_finishCurrentTurn builder)
    · rfl
    · rw [turns_finishCurrentTurn live]
      exact lacksTurn_iff.mp lacks
  · exact replayed

omit replayed

/-! ### The life of a turn -/

/-- The current turn has an id of its own. -/
theorem DistinctIds.current_fresh (distinct : DistinctIds builder.view)
    (current : builder.currentTurn = some turn) : turn.id ∉ builder.turns.map Turn.id := by
  rw [view_of_current current] at distinct
  exact distinct.last_fresh

/-- The turns that a rollback removes are the last ones. -/
theorem removeTurns_ids_drop (distinct : (turns.map Turn.id).Nodup) (count : Nat) :
    removeTurns ((turns.drop count).map Turn.id) turns = turns.take count := by
  have split := take_append_drop count turns
  rw [← split, map_append, nodup_append] at distinct
  conv_lhs => rw [← split]
  rw [removeTurns, filter_append, take_append_drop, filter_eq_self.mpr,
    filter_eq_nil_iff.mpr, append_nil]
  · intro turn mem kept
    exact decide_eq_true_eq.mp kept (mem_map_of_mem mem)
  · intro turn mem
    rw [decide_eq_true_eq]
    intro removed
    exact distinct.2.2 turn.id (mem_map_of_mem mem) turn.id removed rfl

theorem removedTurnIds_eq (turns : List (Turn Json)) (count : Nat) :
    (if turns.length ≤ count then turns.map Turn.id
      else if count = 0 then []
      else (turns.drop (turns.length - count)).map Turn.id) =
      (turns.drop (turns.length - count)).map Turn.id := by
  split
  · rename_i all
    rw [Nat.sub_eq_zero_of_le all, drop_zero]
  · split
    · rename_i nothing
      rw [nothing, Nat.sub_zero, drop_length, map_nil]
    · rfl

theorem remainingTurns_eq (turns : List (Turn Json)) (count : Nat) :
    (if turns.length ≤ count then [] else turns.take (turns.length - count)) =
      turns.take (turns.length - count) := by
  split
  · rename_i all
    rw [Nat.sub_eq_zero_of_le all, take_zero]
  · rfl

theorem handleThreadRollback_replayed (fresh : Follows store {} builder) (live : builder.Live)
    (distinct : DistinctIds builder.view) (numTurns : UInt32) :
    Replayed store (builder.handleThreadRollback numTurns) := by
  have turnsAre := turns_finishCurrentTurn live
  have noTurn := currentTurn_finishCurrentTurn builder
  have recorded : builder.finishCurrentTurn.activeChangeSet = some {} :=
    (activeChangeSet_finishCurrentTurn builder).trans fresh.recorded
  have storeIs : store = builder.view := (applyChanges_empty store).symm.trans fresh.applied
  refine ⟨{ removedTurnIds :=
    (store.drop (store.length - numTurns.toNat)).map Turn.id }, ?_, ?_, ?_⟩
  · rw [ThreadHistoryBuilder.handleThreadRollback]
    dsimp only [recordRemovedTurnIds]
    rw [recorded, removedTurnIds_eq, turnsAre, ← storeIs]
    rfl
  · have remaining : (builder.handleThreadRollback numTurns).view =
        store.take (store.length - numTurns.toNat) := by
      rw [view_of_no_turn (by exact noTurn), ThreadHistoryBuilder.handleThreadRollback]
      rw [remainingTurns_eq, turnsAre, storeIs]
    rw [remaining, storeIs]
    exact removeTurns_ids_drop distinct.turnIds _
  · exact nofun

/-! ### Rollout items -/

section

variable (fresh : Follows store {} builder) (live : builder.Live) (distinct : DistinctIds builder.view)
include fresh live distinct

/-- What one step records leads to what the builder shows after it. -/
theorem replayed_step {step : Handler Json} (taken : Step tools builder source step)
    (distinctAfter : DistinctIds (step builder).view) : Replayed store (step builder) := by
  have replayed : TurnsReplayed store builder := ⟨[], fresh⟩
  cases taken with
  | kept => exact replayed.replayed
  | pushed prepared => exact (replayed.prepared live prepared).pushItemInCurrentTurn distinctAfter
  | upserted prepared => exact (replayed.prepared live prepared).upsertItemInCurrentTurn distinctAfter
  | upsertedIn => exact replayed.replayed.upsertItemInTurnId distinctAfter
  | reviewed prepared =>
    have before := replayed.prepared live prepared
    exact (before.openedForReview (live_prepared prepared live) _).replayed.upsertItemInTurnId
      distinctAfter
  | extended current isLast extends_ =>
    rw [view_setCurrentItems] at distinctAfter
    exact replayed.replayed.setCurrentItems current distinctAfter.last_fresh
      (replaceLast_eq_upsertTurnItem isLast (id_extendReasoning extends_) distinctAfter.last_items)
  | amended current onlyMetadata =>
    exact (replayed.amendCurrentTurn current (distinct.current_fresh current) onlyMetadata).replayed
  | @completed turn _ _ current onlyMetadata =>
    have amended := replayed.amendCurrentTurn current (distinct.current_fresh current) onlyMetadata
    exact (amended.finishCurrentTurn (live_amendCurrentTurn (live turn current) onlyMetadata)).replayed
  | amendedFinished found onlyMetadata =>
    exact (replayed.amendFinishedTurn found onlyMetadata).replayed
  | started =>
    have finished := replayed.finishCurrentTurn live
    exact (finished.openTurn (currentTurn_finishCurrentTurn builder) rfl
      (distinctAfter.current_fresh rfl)).replayed
  | compacted =>
    have shown : (builder.handleCompacted tools).currentTurn =
        some { (builder.ensureTurn tools).1 with sawCompaction := true } := rfl
    have unused := distinctAfter.current_fresh shown
    apply ((replayed.ensureTurn unused).of_same (by rfl) ?_).replayed
    rw [view_of_current (currentTurn_ensureTurn builder tools)]
    rfl
  | rolledBack _ numTurns => exact handleThreadRollback_replayed fresh live distinct numTurns

/-- The changes that one item reports lead to what the builder shows after it. -/
theorem replayed_handleItem {item : RolloutItem Json}
    (distinctAfter : DistinctIds (builder.handleItem tools item).view) :
    Replayed store (builder.handleItem tools item) := by
  obtain ⟨_, taken, same⟩ := takesStep_handleItem tools builder item
  have here : builder.handleItem tools item = _ := same builder.activeChangeSet
  rw [here] at distinctAfter ⊢
  exact replayed_step fresh live distinct taken distinctAfter

end

end WeaveCodex.ThreadHistory
