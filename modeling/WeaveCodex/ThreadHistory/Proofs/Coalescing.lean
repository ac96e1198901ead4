/-
Purpose: What a store does with removed turns, changed turns and changed items commutes far
  enough for the changes of a batch to be put together: applying what the accumulator
  holds after one more change set is applying that change set last.
-/
import WeaveCodex.ThreadHistory.ChangeSets

namespace WeaveCodex.ThreadHistory

open Library Library.KeyedList SlotTable List Function

universe u

variable {Json : Type u} {store : List (Turn Json)}

/-! ### Turns -/

@[simp]
theorem id_setMetadata (change : ThreadHistoryTurnChange Json) (turn : Turn Json) :
    (turn.setMetadata change).id = turn.id :=
  rfl

variable {change : ThreadHistoryTurnChange Json}

theorem putTurn_of_mem (known : change.turnId ∈ store.map Turn.id) :
    putTurn store change = updateFirst Turn.id change.turnId (Turn.setMetadata change) store := by
  rw [putTurn, if_pos]
  simpa using known

theorem putTurn_of_not_mem (missing : change.turnId ∉ store.map Turn.id) :
    putTurn store change = store ++ [Turn.setMetadata change { id := change.turnId }] := by
  rw [putTurn, if_neg]
  simpa using missing

variable {turnId : String}

theorem mem_ids_putTurn : turnId ∈ (putTurn store change).map Turn.id ↔
    turnId ∈ store.map Turn.id ∨ turnId = change.turnId := by
  by_cases known : change.turnId ∈ store.map Turn.id
  · rw [putTurn_of_mem known, keys_updateFirst (id_setMetadata change)]
    refine (or_iff_left_of_imp ?_).symm
    rintro rfl
    exact known
  · rw [putTurn_of_not_mem known, map_append, mem_append, map_singleton, mem_singleton, id_setMetadata]

/-- Overwriting a turn among the changed ones is changing it after them. -/
theorem foldl_putTurn_upsertBy {changes : List (ThreadHistoryTurnChange Json)}
    (distinct : (changes.map ThreadHistoryTurnChange.turnId).Nodup) :
    (upsertBy ThreadHistoryTurnChange.turnId changes change).foldl putTurn store =
      putTurn (changes.foldl putTurn store) change := by
  apply foldl_upsertBy fun store turnId => turnId ∈ store.map Turn.id
  · intro store change turnId known
    exact mem_ids_putTurn.mpr (.inl known)
  · intro store change other apart known
    rw [putTurn_of_mem (mem_ids_putTurn.mpr (.inl known))]
    by_cases otherKnown : other.turnId ∈ store.map Turn.id
    · rw [putTurn_of_mem otherKnown, putTurn_of_mem (mem_ids_putTurn.mpr (.inl otherKnown)),
        putTurn_of_mem known, updateFirst_comm apart (id_setMetadata _) (id_setMetadata _)]
    · have stillMissing : other.turnId ∉ (putTurn store change).map Turn.id := by
        rw [mem_ids_putTurn, not_or]
        exact ⟨otherKnown, Ne.symm apart⟩
      rw [putTurn_of_not_mem otherKnown, putTurn_of_not_mem stillMissing, putTurn_of_mem known,
        updateFirst_append_of_mem known]
  · intro store change
    exact mem_ids_putTurn.mpr (.inr rfl)
  · intro store change later same
    have nowKnown : later.turnId ∈ (putTurn store change).map Turn.id :=
      mem_ids_putTurn.mpr (.inr same.symm)
    rw [putTurn_of_mem nowKnown]
    by_cases known : later.turnId ∈ store.map Turn.id
    · rw [putTurn_of_mem known, putTurn_of_mem (same ▸ known), same,
        updateFirst_updateFirst_self (id_setMetadata change)]
      rfl
    · rw [putTurn_of_not_mem known, putTurn_of_not_mem (same ▸ known),
        updateFirst_append_of_not_mem known, same, updateFirst, if_pos (id_setMetadata _ _)]
      rfl
  · exact distinct

/-! ### Items -/

@[simp]
theorem id_putItem (item : ThreadItem Json) (turn : Turn Json) : (turn.putItem item).id = turn.id :=
  rfl

theorem ids_putItem (store : List (Turn Json)) (change : ThreadHistoryItemChange Json) :
    (putItem store change).map Turn.id = store.map Turn.id :=
  keys_updateFirst (id_putItem change.item)

theorem ids_foldl_putItem (changes : List (ThreadHistoryItemChange Json)) (store : List (Turn Json)) :
    (changes.foldl putItem store).map Turn.id = store.map Turn.id := by
  induction changes generalizing store with
  | nil => rfl
  | cons _ _ ih =>
    rw [foldl_cons, ih, ids_putItem]

/-- The turn, if there is one, holds the item. -/
def HoldsItem (store : List (Turn Json)) (key : String × String) : Prop :=
  ∀ turn, (store.find? fun turn => turn.id = key.1) = some turn → key.2 ∈ turn.items.map ThreadItem.id

theorem find?_putItem (store : List (Turn Json)) (change : ThreadHistoryItemChange Json)
    (turnId : String) :
    ((putItem store change).find? fun turn => turn.id = turnId) =
      if turnId = change.turnId then
        (store.find? fun turn => turn.id = turnId).map (Turn.putItem change.item)
      else store.find? fun turn => turn.id = turnId :=
  find?_updateFirst (id_putItem change.item)

theorem holdsItem_putItem_self (store : List (Turn Json))
    (change : ThreadHistoryItemChange Json) : HoldsItem (putItem store change) change.key := by
  intro turn found
  rw [ThreadHistoryItemChange.key, find?_putItem, if_pos rfl, Option.map_eq_some_iff] at found
  obtain ⟨_, _, rfl⟩ := found
  exact mem_keys_upsertBy.mpr (.inr rfl)

theorem HoldsItem.putItem {key : String × String} (held : HoldsItem store key)
    (change : ThreadHistoryItemChange Json) : HoldsItem (putItem store change) key := by
  intro turn found
  rw [find?_putItem] at found
  split at found
  · rw [Option.map_eq_some_iff] at found
    obtain ⟨old, oldFound, rfl⟩ := found
    exact mem_keys_upsertBy.mpr (.inl (held old oldFound))
  · exact held turn found

/-- Overwriting an item among the changed ones is changing it after them. -/
theorem foldl_putItem_upsertBy {changes : List (ThreadHistoryItemChange Json)}
    {change : ThreadHistoryItemChange Json}
    (distinct : (changes.map ThreadHistoryItemChange.key).Nodup) :
    (upsertBy ThreadHistoryItemChange.key changes change).foldl putItem store =
      putItem (changes.foldl putItem store) change := by
  apply foldl_upsertBy HoldsItem
  · intro store change key held
    exact held.putItem change
  · intro store change other apart held
    by_cases sameTurn : change.turnId = other.turnId
    · -- Within one turn the later item keeps its place only because it is there already.
      have differentItem : change.item.id ≠ other.item.id := fun same =>
        apart (Prod.ext sameTurn same)
      simp only [putItem, sameTurn, updateFirst_updateFirst_self (id_putItem _)]
      apply updateFirst_congr_of_find?
      intro turn found
      have known := held turn (by rw [ThreadHistoryItemChange.key, sameTurn]; exact found)
      simp only [comp_apply, Turn.putItem, upsertTurnItem, upsertBy_upsertBy_comm differentItem known]
    · exact updateFirst_comm sameTurn (id_putItem _) (id_putItem _)
  · exact holdsItem_putItem_self
  · intro store change later same
    obtain ⟨sameTurn, sameItem⟩ := Prod.mk.inj same
    rw [putItem, putItem, putItem, sameTurn, updateFirst_updateFirst_self (id_putItem _)]
    congr 1
    funext turn
    rw [comp_apply, Turn.putItem, Turn.putItem, Turn.putItem, upsertTurnItem,
      upsertTurnItem, upsertBy_upsertBy_self sameItem]
    rfl
  · exact distinct

/-! ### Turns past items -/

/-- A changed turn does not disturb an item of a turn that is known. -/
theorem putTurn_putItem (change : ThreadHistoryTurnChange Json)
    (item : ThreadHistoryItemChange Json) (known : item.turnId ∈ store.map Turn.id) :
    putTurn (putItem store item) change = putItem (putTurn store change) item := by
  by_cases turnKnown : change.turnId ∈ store.map Turn.id
  · have stillKnown : change.turnId ∈ (putItem store item).map Turn.id :=
      (ids_putItem store item).symm ▸ turnKnown
    rw [putTurn_of_mem stillKnown, putTurn_of_mem turnKnown, putItem, putItem]
    by_cases same : change.turnId = item.turnId
    · rw [same, updateFirst_updateFirst_self (id_putItem _),
        updateFirst_updateFirst_self (id_setMetadata _)]
      rfl
    · exact updateFirst_comm same (id_setMetadata _) (id_putItem _)
  · have stillMissing : change.turnId ∉ (putItem store item).map Turn.id :=
      (ids_putItem store item).symm ▸ turnKnown
    rw [putTurn_of_not_mem stillMissing, putTurn_of_not_mem turnKnown, putItem, putItem,
      updateFirst_append_of_mem known]

theorem putTurn_foldl_putItem (change : ThreadHistoryTurnChange Json)
    {items : List (ThreadHistoryItemChange Json)}
    (known : ∀ item ∈ items, item.turnId ∈ store.map Turn.id) :
    putTurn (items.foldl putItem store) change = items.foldl putItem (putTurn store change) := by
  induction items generalizing store with
  | nil => rfl
  | cons item items ih =>
    obtain ⟨itemKnown, restKnown⟩ := forall_mem_cons.mp known
    have restStillKnown : ∀ other ∈ items, other.turnId ∈ (putItem store item).map Turn.id := by
      rw [ids_putItem]
      exact restKnown
    rw [foldl_cons, foldl_cons, ih restStillKnown, putTurn_putItem change item itemKnown]

/-! ### Removed turns -/

theorem removeTurns_congr {first second : List String}
    (same : ∀ turnId, turnId ∈ first ↔ turnId ∈ second) (store : List (Turn Json)) :
    removeTurns first store = removeTurns second store := by
  apply filter_congr
  intro turn _
  simp [same turn.id]

theorem removeTurns_removeTurns (first second : List String) (store : List (Turn Json)) :
    removeTurns second (removeTurns first store) = removeTurns (first ++ second) store := by
  rw [removeTurns, removeTurns, removeTurns, filter_filter]
  apply filter_congr
  intro turn _
  simp [Bool.and_comm]

theorem mem_ids_removeTurns {turnIds : List String} : turnId ∈ (removeTurns turnIds store).map Turn.id ↔
    turnId ∈ store.map Turn.id ∧ turnId ∉ turnIds := by
  rw [removeTurns, mem_map, mem_map]
  constructor
  · rintro ⟨turn, mem, rfl⟩
    rw [mem_filter, decide_eq_true_eq] at mem
    exact ⟨⟨turn, mem.1, rfl⟩, mem.2⟩
  · rintro ⟨⟨turn, mem, rfl⟩, kept⟩
    exact ⟨turn, mem_filter.mpr ⟨mem, decide_eq_true kept⟩, rfl⟩

variable (turnIds : List String) {change : Turn Json → Turn Json}

theorem removeTurns_updateFirst (keeps : ∀ turn, (change turn).id = turn.id) :
    removeTurns turnIds (updateFirst Turn.id turnId change store) =
      updateFirst Turn.id turnId change (removeTurns turnIds store) :=
  filter_updateFirst (fun turnId => turnId ∉ turnIds) keeps

theorem updateFirst_removeTurns_of_mem {turnIds : List String} (removed : turnId ∈ turnIds) :
    updateFirst Turn.id turnId change (removeTurns turnIds store) = removeTurns turnIds store := by
  apply updateFirst_of_not_mem
  rw [mem_ids_removeTurns]
  exact fun present => present.2 removed

theorem removeTurns_putItem (store : List (Turn Json)) (change : ThreadHistoryItemChange Json) :
    removeTurns turnIds (putItem store change) =
      if change.turnId ∈ turnIds then removeTurns turnIds store
      else putItem (removeTurns turnIds store) change := by
  rw [putItem, removeTurns_updateFirst turnIds (id_putItem _)]
  split
  · rename_i removed
    exact updateFirst_removeTurns_of_mem removed
  · rfl

/-- A change of a turn that is removed anyway leaves no trace. -/
theorem removeTurns_putTurn (store : List (Turn Json)) (change : ThreadHistoryTurnChange Json) :
    removeTurns turnIds (putTurn store change) =
      if change.turnId ∈ turnIds then removeTurns turnIds store
      else putTurn (removeTurns turnIds store) change := by
  by_cases known : change.turnId ∈ store.map Turn.id
  · rw [putTurn_of_mem known, removeTurns_updateFirst turnIds (id_setMetadata _)]
    split
    · rename_i removed
      exact updateFirst_removeTurns_of_mem removed
    · rename_i kept
      rw [putTurn_of_mem (mem_ids_removeTurns.mpr ⟨known, kept⟩)]
  · rw [putTurn_of_not_mem known, removeTurns, filter_append]
    split
    · rename_i removed
      rw [filter_cons_of_neg fun kept => (decide_eq_true_eq.mp kept) removed, filter_nil, append_nil]
      rfl
    · rename_i kept
      rw [putTurn_of_not_mem (fun present => known (mem_ids_removeTurns.mp present).1),
        filter_cons_of_pos (by rw [id_setMetadata]; exact decide_eq_true kept),
        filter_nil]
      rfl

/-- What a fold does with the changes that a removal drops is lost. -/
theorem removeTurns_foldl {change : Type*} {put : List (Turn Json) → change → List (Turn Json)}
    {turnIdOf : change → String} (step : ∀ store one, removeTurns turnIds (put store one) =
      if turnIdOf one ∈ turnIds then removeTurns turnIds store
      else put (removeTurns turnIds store) one)
    (changes : List change) (store : List (Turn Json)) :
    removeTurns turnIds (changes.foldl put store) =
      (changes.filter fun one => turnIdOf one ∉ turnIds).foldl put (removeTurns turnIds store) := by
  induction changes generalizing store with
  | nil => rfl
  | cons _ _ ih =>
    rw [foldl_cons, ih, step]
    split
    · rename_i removed
      rw [filter_cons_of_neg (by simpa using removed)]
    · rename_i kept
      rw [filter_cons_of_pos (by simpa using kept), foldl_cons]

/-! ### The accumulator -/

namespace ThreadHistoryChangeAccumulator

variable (acc : ThreadHistoryChangeAccumulator Json)

theorem mem_removedTurnIds_noteRemovedTurnId {turnId other : String} :
    other ∈ (acc.noteRemovedTurnId turnId).removedTurnIds ↔
      other ∈ acc.removedTurnIds ∨ other = turnId := by
  rw [noteRemovedTurnId]
  split
  · rename_i noted
    rw [acc.indexed] at noted
    refine (or_iff_left_of_imp ?_).symm
    rintro rfl
    exact noted
  · rw [mem_append, mem_singleton]

theorem changedTurns_noteRemovedTurnId (turnId : String) :
    (acc.noteRemovedTurnId turnId).changedTurns = acc.changedTurns := by
  rw [noteRemovedTurnId]
  split <;> rfl

theorem changedItems_noteRemovedTurnId (turnId : String) :
    (acc.noteRemovedTurnId turnId).changedItems = acc.changedItems := by
  rw [noteRemovedTurnId]
  split <;> rfl

/-- A removed turn goes from what the batch leaves. -/
theorem applyChanges_pushRemovedTurnId (turnId : String) :
    applyChanges store (acc.pushRemovedTurnId turnId).finish =
      removeTurns [turnId] (applyChanges store acc.finish) := by
  -- Only the changes to other turns are left.
  rw [applyChanges, applyChanges, removeTurns_foldl [turnId] (removeTurns_putItem [turnId]),
    removeTurns_foldl [turnId] (removeTurns_putTurn [turnId]), removeTurns_removeTurns]
  dsimp only [finish, pushRemovedTurnId]
  rw [changedTurns_noteRemovedTurnId, changedItems_noteRemovedTurnId,
    values_removeKey, values_removeKeys]
  congr 1
  · congr 1
    · apply removeTurns_congr
      intro other
      rw [mem_removedTurnIds_noteRemovedTurnId, mem_append, mem_singleton]
    · simp only [mem_singleton, ne_eq]
  · apply filter_congr
    intro change _
    change (!decide (change.turnId = turnId)) = decide (change.turnId ∉ [turnId])
    simp only [mem_singleton, decide_not]

theorem applyChanges_foldl_pushRemovedTurnId (turnIds : List String) :
    applyChanges store (turnIds.foldl pushRemovedTurnId acc).finish =
      removeTurns turnIds (applyChanges store acc.finish) := by
  induction turnIds generalizing acc with
  | nil => simp [removeTurns]
  | cons _ _ ih =>
    rw [foldl_cons, ih, applyChanges_pushRemovedTurnId, removeTurns_removeTurns, singleton_append]

/-- Every item that the batch changed is in a turn that is there. -/
def Scoped (store : List (Turn Json)) (accumulator : ThreadHistoryChangeAccumulator Json) : Prop :=
  ∀ key ∈ accumulator.changedItems.values.map ThreadHistoryItemChange.key,
    key.1 ∈ (applyChanges store accumulator.finish).map Turn.id

theorem applyChanges_pushTurnChange (change : ThreadHistoryTurnChange Json)
    (inScope : Scoped store acc) :
    applyChanges store (acc.pushTurnChange change).finish =
      putTurn (applyChanges store acc.finish) change := by
  rw [applyChanges, applyChanges, putTurn_foldl_putItem]
  · dsimp only [finish, pushTurnChange]
    rw [values_push, foldl_putTurn_upsertBy acc.changedTurns.nodup_values]
  · intro item mem
    have known := inScope item.key (mem_map_of_mem mem)
    rw [applyChanges, ids_foldl_putItem] at known
    exact known

theorem applyChanges_pushItemChange (change : ThreadHistoryItemChange Json) :
    applyChanges store (acc.pushItemChange change).finish =
      putItem (applyChanges store acc.finish) change := by
  rw [applyChanges, applyChanges]
  dsimp only [finish, pushItemChange]
  rw [values_push, foldl_putItem_upsertBy acc.changedItems.nodup_values]

variable {acc} (inScope : Scoped store acc)
include inScope

theorem Scoped.foldl_pushRemovedTurnId (turnIds : List String) :
    Scoped store (turnIds.foldl pushRemovedTurnId acc) := by
  refine foldlRecOn turnIds _ inScope ?_
  intro acc inScope turnId _ key mem
  rw [applyChanges_pushRemovedTurnId, mem_ids_removeTurns]
  dsimp only [pushRemovedTurnId] at mem
  rw [changedItems_noteRemovedTurnId, values_removeKeys] at mem
  obtain ⟨change, left, rfl⟩ := mem_map.mp mem
  obtain ⟨listed, kept⟩ := mem_filter.mp left
  refine ⟨inScope change.key (mem_map_of_mem listed), ?_⟩
  rw [mem_singleton]
  intro same
  rw [same, decide_eq_true rfl] at kept
  cases kept

theorem Scoped.pushTurnChange (change : ThreadHistoryTurnChange Json) :
    Scoped store (acc.pushTurnChange change) := by
  intro key mem
  rw [applyChanges_pushTurnChange acc change inScope]
  exact mem_ids_putTurn.mpr (.inl (inScope key mem))

theorem Scoped.pushItemChange {change : ThreadHistoryItemChange Json}
    (known : change.turnId ∈ (applyChanges store acc.finish).map Turn.id) :
    Scoped store (acc.pushItemChange change) := by
  intro key mem
  rw [applyChanges_pushItemChange, ids_putItem]
  dsimp only [ThreadHistoryChangeAccumulator.pushItemChange] at mem
  rw [values_push] at mem
  rcases mem_keys_upsertBy.mp mem with listed | rfl
  · exact inScope key listed
  · exact known

theorem applyChanges_foldl_pushTurnChange (changes : List (ThreadHistoryTurnChange Json)) :
    Scoped store (changes.foldl pushTurnChange acc) ∧ applyChanges store
          (changes.foldl pushTurnChange acc).finish =
        changes.foldl putTurn (applyChanges store acc.finish) := by
  induction changes generalizing acc with
  | nil => exact ⟨inScope, rfl⟩
  | cons change _ ih =>
    obtain ⟨nowInScope, applied⟩ := ih (inScope.pushTurnChange change)
    refine ⟨nowInScope, ?_⟩
    rw [foldl_cons, foldl_cons, applied, applyChanges_pushTurnChange acc change inScope]

theorem applyChanges_foldl_pushItemChange {changes : List (ThreadHistoryItemChange Json)}
    (known : ∀ change ∈ changes,
      change.turnId ∈ (applyChanges store acc.finish).map Turn.id) :
    Scoped store (changes.foldl ThreadHistoryChangeAccumulator.pushItemChange acc) ∧
      applyChanges store
          (changes.foldl ThreadHistoryChangeAccumulator.pushItemChange acc).finish =
        changes.foldl putItem (applyChanges store acc.finish) := by
  induction changes generalizing acc with
  | nil => exact ⟨inScope, rfl⟩
  | cons change changes ih =>
    obtain ⟨firstKnown, restKnown⟩ := forall_mem_cons.mp known
    have stillKnown : ∀ other ∈ changes, other.turnId ∈
        (applyChanges store (acc.pushItemChange change).finish).map Turn.id := by
      rw [applyChanges_pushItemChange, ids_putItem]
      exact restKnown
    obtain ⟨nowInScope, applied⟩ :=
      ih (inScope.pushItemChange firstKnown) stillKnown
    refine ⟨nowInScope, ?_⟩
    rw [foldl_cons, foldl_cons, applied, applyChanges_pushItemChange]

omit inScope

theorem foldl_pushItemChange_eq (changes : List (ThreadHistoryItemChange Json))
    (acc : ThreadHistoryChangeAccumulator Json) :
    changes.foldl ThreadHistoryChangeAccumulator.pushItemChange acc =
      { acc with changedItems := changes.foldl SlotTable.push acc.changedItems } :=
  foldl_hom (fun changedItems => { acc with changedItems }) fun _ _ => rfl

theorem foldl_pushTurnChange_eq (changes : List (ThreadHistoryTurnChange Json))
    (acc : ThreadHistoryChangeAccumulator Json) :
    changes.foldl pushTurnChange acc =
      { acc with changedTurns := changes.foldl SlotTable.push acc.changedTurns } :=
  foldl_hom (fun changedTurns => { acc with changedTurns }) fun _ _ => rfl

/-- One more change set in the accumulator is that change set applied last. -/
theorem applyChanges_push (inScope : Scoped store acc) {changes : ThreadHistoryChangeSet Json}
    (known : ∀ change ∈ changes.changedItems, change.turnId ∈
      (applyChanges (applyChanges store acc.finish) changes).map Turn.id) :
    Scoped store (acc.push changes) ∧ applyChanges store (acc.push changes).finish =
        applyChanges (applyChanges store acc.finish) changes := by
  have afterRemoval : applyChanges store
      (changes.removedTurnIds.foldl pushRemovedTurnId acc).finish =
        removeTurns changes.removedTurnIds (applyChanges store acc.finish) :=
    applyChanges_foldl_pushRemovedTurnId acc changes.removedTurnIds
  obtain ⟨turnsInScope, afterTurns⟩ := applyChanges_foldl_pushTurnChange
    (inScope.foldl_pushRemovedTurnId changes.removedTurnIds) changes.changedTurns
  rw [afterRemoval] at afterTurns
  rw [applyChanges, ids_foldl_putItem, ← afterTurns] at known
  obtain ⟨itemsInScope, afterItems⟩ := applyChanges_foldl_pushItemChange turnsInScope known
  -- Items and turns have tables of their own, so that turns may as well come first.
  rw [afterTurns, foldl_pushItemChange_eq, foldl_pushTurnChange_eq] at afterItems
  rw [foldl_pushItemChange_eq, foldl_pushTurnChange_eq] at itemsInScope
  rw [push, foldl_pushTurnChange_eq, foldl_pushItemChange_eq]
  exact ⟨itemsInScope, afterItems⟩

end ThreadHistoryChangeAccumulator

end WeaveCodex.ThreadHistory
