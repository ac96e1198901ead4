/-
Purpose: A list of slots with an index from keys to slots: a value takes the slot of its
  key or a new one, and a removed value leaves an empty slot. The values that are left
  behave as a list in which a key names one value.
-/
import Mathlib.Data.List.AList
import WeaveCodex.Library.KeyedList

namespace WeaveCodex.Library

open KeyedList List

variable {α κ : Type*} [DecidableEq κ]

/-- Slots and the index of the ones that are in use. -/
structure SlotTable (key : α → κ) where
  slots : List (Option α)
  indexes : AList fun _ : κ => Nat
  /-- The index knows the slot of every value that is left, and no other. -/
  consistent : ∀ wanted index, indexes.lookup wanted = some index ↔
    ∃ value, slots[index]? = some (some value) ∧ key value = wanted

namespace SlotTable

variable {key : α → κ}

def empty : SlotTable key where
  slots := []
  indexes := ∅
  consistent wanted index := by simp

/-- The values that are left, in the order of their slots. -/
def values (table : SlotTable key) : List α :=
  table.slots.filterMap id

variable (table : SlotTable key)

/-- Two slots in use have different keys. -/
theorem index_unique {first second : Nat} {one two : α}
    (atFirst : table.slots[first]? = some (some one))
    (atSecond : table.slots[second]? = some (some two)) (same : key one = key two) :
    first = second := by
  have firstFound := (table.consistent (key one) first).mpr ⟨one, atFirst, rfl⟩
  have secondFound := (table.consistent (key one) second).mpr ⟨two, atSecond, same.symm⟩
  rw [firstFound] at secondFound
  exact Option.some.inj secondFound

variable {wanted : κ} {index : Nat} {value : α} {slots : List (Option α)}

theorem lookup_eq_none : table.indexes.lookup wanted = none ↔ wanted ∉ table.values.map key := by
  rw [Option.eq_none_iff_forall_ne_some]
  simp only [ne_eq, table.consistent, values, mem_map, mem_filterMap, id_eq,
    exists_eq_right, not_exists, not_and]
  constructor
  · intro missing value mem same
    obtain ⟨index, at_⟩ := mem_iff_getElem?.mp mem
    exact missing index value at_ same
  · intro missing index value at_ same
    exact missing value (mem_of_getElem? at_) same

/-- A value in its own slot: overwriting the slot of a key. -/
def overwrite (table : SlotTable key) (value : α) (index : Nat)
    (found : table.indexes.lookup (key value) = some index) : SlotTable key where
  slots := table.slots.set index (some value)
  indexes := table.indexes
  consistent wanted other := by
    obtain ⟨old, atIndex, sameKey⟩ := (table.consistent _ _).mp found
    have inRange : index < table.slots.length := (List.getElem?_eq_some_iff.mp atIndex).1
    rw [table.consistent]
    by_cases here : index = other
    · subst here
      rw [getElem?_set_self inRange]
      constructor
      · rintro ⟨_, atOld, oldKey⟩
        rw [atIndex] at atOld
        rw [← Option.some.inj (Option.some.inj atOld), sameKey] at oldKey
        exact ⟨value, rfl, oldKey⟩
      · rintro ⟨_, atNew, newKey⟩
        rw [← Option.some.inj (Option.some.inj atNew), ← sameKey] at newKey
        exact ⟨old, atIndex, newKey⟩
    · rw [getElem?_set_ne here]

omit [DecidableEq κ] in
theorem getElem?_concat_slot {found : α} : (slots ++ [some value])[index]? = some (some found) ↔
    slots[index]? = some (some found) ∨ index = slots.length ∧ found = value := by
  rcases lt_trichotomy index slots.length with inside | rfl | outside
  · rw [getElem?_append_left inside]
    simp [Nat.ne_of_lt inside]
  · simp [eq_comm]
  · rw [getElem?_eq_none (by simp; omega), getElem?_eq_none (by omega)]
    simp [ne_of_gt outside]

/-- A value in a new slot at the end. -/
def append (table : SlotTable key) (value : α)
    (missing : table.indexes.lookup (key value) = none) : SlotTable key where
  slots := table.slots ++ [some value]
  indexes := table.indexes.insert (key value) table.slots.length
  consistent wanted other := by
    simp only [getElem?_concat_slot]
    by_cases here : wanted = key value
    · subst here
      rw [AList.lookup_insert]
      constructor
      · intro same
        exact ⟨value, .inr ⟨(Option.some.inj same).symm, rfl⟩, rfl⟩
      · rintro ⟨found, atOther | ⟨rfl, _⟩, sameKey⟩
        · have known := (table.consistent (key value) other).mpr ⟨found, atOther, sameKey⟩
          rw [missing] at known
          cases known
        · rfl
    · rw [AList.lookup_insert_ne here, table.consistent]
      constructor
      · rintro ⟨found, atOther, sameKey⟩
        exact ⟨found, .inl atOther, sameKey⟩
      · rintro ⟨found, atOther | ⟨_, rfl⟩, sameKey⟩
        · exact ⟨found, atOther, sameKey⟩
        · exact absurd sameKey.symm here

def push (table : SlotTable key) (value : α) : SlotTable key :=
  match found : table.indexes.lookup (key value) with
  | some index => table.overwrite value index found
  | none => table.append value found

/-- The slot of a key is emptied. -/
def vacate (table : SlotTable key) (wanted : κ) (index : Nat)
    (found : table.indexes.lookup wanted = some index) : SlotTable key where
  slots := table.slots.set index none
  indexes := table.indexes.erase wanted
  consistent another other := by
    obtain ⟨_, atIndex, sameKey⟩ := (table.consistent _ _).mp found
    have inRange : index < table.slots.length := (List.getElem?_eq_some_iff.mp atIndex).1
    by_cases here : another = wanted
    · subst here
      rw [AList.lookup_erase]
      constructor
      · exact nofun
      · rintro ⟨_, atOther, valueKey⟩
        by_cases same : index = other
        · subst same
          rw [getElem?_set_self inRange] at atOther
          cases Option.some.inj atOther
        · rw [getElem?_set_ne same] at atOther
          exact absurd (table.index_unique atIndex atOther (sameKey.trans valueKey.symm)) same
    · rw [AList.lookup_erase_ne here, table.consistent]
      by_cases same : index = other
      · subst same
        rw [getElem?_set_self inRange]
        constructor
        · rintro ⟨_, atOther, valueKey⟩
          rw [atIndex] at atOther
          rw [← Option.some.inj (Option.some.inj atOther), sameKey] at valueKey
          exact absurd valueKey.symm here
        · rintro ⟨_, atOther, _⟩
          cases Option.some.inj atOther
      · rw [getElem?_set_ne same]

def removeKey (table : SlotTable key) (wanted : κ) : SlotTable key :=
  match found : table.indexes.lookup wanted with
  | some index => table.vacate wanted index found
  | none => table

/-- The keys of the index that meet a test are removed one by one. -/
def removeKeys (table : SlotTable key) (test : κ → Bool) : SlotTable key :=
  (table.indexes.keys.filter test).foldl removeKey table

/-! ### The values that are left -/

theorem filterMap_id_some (value : α) (slots : List (Option α)) :
    (some value :: slots).filterMap id = value :: slots.filterMap id :=
  rfl

/-- What stands before and after the slot of a key has other keys. -/
theorem split_at (found : table.indexes.lookup wanted = some index) :
    ∃ front old back, table.slots = front ++ some old :: back ∧ front.length = index ∧
      key old = wanted ∧ wanted ∉ (front.filterMap id).map key ∧
      wanted ∉ (back.filterMap id).map key := by
  obtain ⟨old, atIndex, sameKey⟩ := (table.consistent _ _).mp found
  obtain ⟨inRange, here⟩ := List.getElem?_eq_some_iff.mp atIndex
  have split : table.slots = table.slots.take index ++ some old :: table.slots.drop (index + 1) := by
    rw [← here, ← drop_eq_getElem_cons inRange, take_append_drop]
  refine ⟨_, old, _, split, by simp [le_of_lt inRange], sameKey, ?_, ?_⟩
  · simp only [mem_map, mem_filterMap, id_eq, exists_eq_right, not_exists, not_and]
    intro value mem valueKey
    obtain ⟨_, atOther⟩ := mem_iff_getElem?.mp mem
    rw [getElem?_take] at atOther
    split at atOther
    · have same := table.index_unique atIndex atOther (sameKey.trans valueKey.symm)
      omega
    · cases atOther
  · simp only [mem_map, mem_filterMap, id_eq, exists_eq_right, not_exists, not_and]
    intro value mem valueKey
    obtain ⟨_, atOther⟩ := mem_iff_getElem?.mp mem
    rw [getElem?_drop] at atOther
    have same := table.index_unique atIndex atOther (sameKey.trans valueKey.symm)
    omega

theorem values_push (value : α) : (table.push value).values = upsertBy key table.values value := by
  rw [push]
  split
  · rename_i found
    obtain ⟨front, _, _, split, rfl, sameKey, notFront, _⟩ := table.split_at found
    change (table.slots.set front.length (some value)).filterMap id =
      upsertBy key (table.slots.filterMap id) value
    rw [split, set_append_right _ _ (le_refl _), Nat.sub_self,
      set_cons_zero, filterMap_append, filterMap_append,
      filterMap_id_some, filterMap_id_some]
    generalize front.filterMap id = values at notFront ⊢
    induction values with
    | nil => simp [upsertBy, sameKey]
    | cons _ _ ih =>
      rw [map_cons, mem_cons, not_or] at notFront
      rw [cons_append, cons_append, upsertBy, if_neg (Ne.symm notFront.1), ih notFront.2]
  · rename_i missing
    rw [values, append, filterMap_append, upsertBy_of_not_mem (table.lookup_eq_none.mp missing)]
    rfl

theorem filter_key_ne {wanted : κ} {values : List α} (absent : wanted ∉ values.map key) :
    (values.filter fun value => key value ≠ wanted) = values := by
  rw [filter_eq_self]
  intro value mem
  simp only [ne_eq, decide_eq_true_eq]
  rintro rfl
  exact absent (mem_map_of_mem mem)

theorem values_removeKey (wanted : κ) :
    (table.removeKey wanted).values = table.values.filter fun value => key value ≠ wanted := by
  rw [removeKey]
  split
  · rename_i found
    obtain ⟨front, _, _, split, rfl, sameKey, notFront, notBack⟩ := table.split_at found
    change (table.slots.set front.length none).filterMap id =
      (table.slots.filterMap id).filter fun value => key value ≠ wanted
    rw [split, set_append_right _ _ (le_refl _), Nat.sub_self,
      set_cons_zero, filterMap_append, filterMap_append,
      filterMap_cons_none rfl, filterMap_id_some, filter_append,
      filter_cons_of_neg (by simp [sameKey])]
    rw [filter_key_ne notFront, filter_key_ne notBack]
  · rename_i missing
    exact (filter_key_ne (table.lookup_eq_none.mp missing)).symm

theorem values_foldl_removeKey (keys : List κ) (table : SlotTable key) :
    (keys.foldl removeKey table).values = table.values.filter fun value => key value ∉ keys := by
  induction keys generalizing table with
  | nil => simp
  | cons _ _ ih =>
    rw [foldl_cons, ih, values_removeKey, filter_filter]
    apply filter_congr
    intro value _
    simp [Bool.and_comm]

theorem mem_keys_indexes (mem : value ∈ table.values) : key value ∈ table.indexes.keys := by
  by_contra missing
  have none : table.indexes.lookup (key value) = none := AList.lookup_eq_none.mpr missing
  exact table.lookup_eq_none.mp none (mem_map_of_mem mem)

theorem values_removeKeys (test : κ → Bool) :
    (table.removeKeys test).values = table.values.filter fun value => !test (key value) := by
  rw [removeKeys, values_foldl_removeKey]
  apply filter_congr
  intro value mem
  have listed := table.mem_keys_indexes mem
  cases tested : test (key value) <;> simp [tested, listed]

/-- A key names at most one value. -/
theorem nodup_values : (table.values.map key).Nodup := by
  rw [values, Nodup, pairwise_map, pairwise_filterMap, pairwise_iff_getElem]
  intro first second inFirst inSecond before one atFirst two atSecond same
  have unique := table.index_unique (List.getElem?_eq_some_iff.mpr ⟨inFirst, atFirst⟩)
    (List.getElem?_eq_some_iff.mpr ⟨inSecond, atSecond⟩) same
  omega

end SlotTable

end WeaveCodex.Library
