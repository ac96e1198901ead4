/-
Purpose: Lists in which a key names at most one item: an item replaces the first one with
  its key or comes last, and an update changes the first item with a key.
-/
import Mathlib.Data.List.Nodup

namespace WeaveCodex.Library.KeyedList

open List

variable {α κ : Type*} [DecidableEq κ] (key : α → κ)

/-- The item takes the place of the first one with its key, or comes last. -/
def upsertBy : List α → α → List α
  | [], item => [item]
  | first :: items, item =>
    if key first = key item then item :: items else first :: upsertBy items item

/-- The first item with the key is changed. -/
def updateFirst (wanted : κ) (change : α → α) : List α → List α
  | [] => []
  | first :: items =>
    if key first = wanted then change first :: items
    else first :: updateFirst wanted change items

variable {key} {items : List α} {item other : α} {wanted another : κ} {change later : α → α}

/-! ### Putting an item -/

theorem upsertBy_append_of_not_mem {front : List α} (fresh : key item ∉ front.map key) :
    upsertBy key (front ++ items) item = front ++ upsertBy key items item := by
  induction front with
  | nil => rfl
  | cons _ _ ih =>
    rw [map_cons, mem_cons, not_or] at fresh
    rw [cons_append, upsertBy, if_neg (Ne.symm fresh.1), ih fresh.2, cons_append]

theorem upsertBy_of_not_mem (fresh : key item ∉ items.map key) :
    upsertBy key items item = items ++ [item] := by
  have atEnd : upsertBy key (items ++ []) item = items ++ upsertBy key [] item :=
    upsertBy_append_of_not_mem fresh
  rw [append_nil] at atEnd
  exact atEnd

theorem keys_upsertBy_of_mem (known : key item ∈ items.map key) :
    (upsertBy key items item).map key = items.map key := by
  induction items with
  | nil => cases known
  | cons _ _ ih =>
    rw [upsertBy]
    split
    · rename_i same
      rw [map_cons, map_cons, same]
    · rename_i apart
      rw [map_cons, map_cons, ih]
      exact (mem_cons.mp known).resolve_left (Ne.symm apart)

theorem mem_keys_upsertBy : wanted ∈ (upsertBy key items item).map key ↔
    wanted ∈ items.map key ∨ wanted = key item := by
  by_cases known : key item ∈ items.map key
  · rw [keys_upsertBy_of_mem known]
    refine (or_iff_left_of_imp ?_).symm
    rintro rfl
    exact known
  · rw [upsertBy_of_not_mem known, map_append, mem_append, map_singleton, mem_singleton]

/-- The later of two items with one key stays. -/
theorem upsertBy_upsertBy_self (same : key item = key other) :
    upsertBy key (upsertBy key items item) other = upsertBy key items other := by
  induction items with
  | nil => simp [upsertBy, same]
  | cons _ _ ih =>
    rw [upsertBy, upsertBy]
    split
    · rename_i here
      rw [upsertBy, if_pos same, if_pos (here.trans same)]
    · rename_i notHere
      rw [upsertBy, if_neg (same ▸ notHere), if_neg (same ▸ notHere), ih]

/-- An item whose key is known already does not disturb another one. -/
theorem upsertBy_upsertBy_comm (apart : key item ≠ key other) (known : key item ∈ items.map key) :
    upsertBy key (upsertBy key items other) item = upsertBy key (upsertBy key items item) other := by
  induction items with
  | nil => cases known
  | cons first _ ih =>
    rw [map_cons, mem_cons] at known
    by_cases here : key first = key item
    · have notOther : key first ≠ key other := fun same => apart (here.symm.trans same)
      simp only [upsertBy, if_neg notOther, if_pos here, if_neg apart]
    · have inside := known.resolve_left (Ne.symm here)
      by_cases there : key first = key other
      · simp only [upsertBy, if_pos there, if_neg (Ne.symm apart), if_neg here]
      · simp only [upsertBy, if_neg there, if_neg here, ih inside]

/-! ### Folds over distinct items -/

section Fold

variable {σ : Type*} {operation : σ → α → σ} (Knows : σ → κ → Prop)
  (keeps : ∀ state item wanted, Knows state wanted → Knows (operation state item) wanted)
  (commutes : ∀ state item other, key item ≠ key other → Knows state (key item) →
    operation (operation state other) item = operation (operation state item) other)

include keeps commutes

omit [DecidableEq κ] in
/-- An operation whose key is known already moves before operations with other keys. -/
theorem foldl_comm_of_known (fresh : key item ∉ items.map key) {state : σ}
    (known : Knows state (key item)) :
    operation (items.foldl operation state) item = items.foldl operation (operation state item) := by
  induction items generalizing state with
  | nil => rfl
  | cons first _ ih =>
    rw [map_cons, mem_cons, not_or] at fresh
    rw [foldl_cons, foldl_cons, ih fresh.2 (keeps state first _ known),
      commutes state item first fresh.1 known]

/-- Putting an item among distinct ones before a fold is applying it after the fold, if a
later operation with the same key absorbs an earlier one. -/
theorem foldl_upsertBy (learns : ∀ state item, Knows (operation state item) (key item))
    (absorbs : ∀ state item other, key item = key other →
      operation (operation state item) other = operation state other)
    (distinct : (items.map key).Nodup) (state : σ) :
    (upsertBy key items item).foldl operation state = operation (items.foldl operation state) item := by
  induction items generalizing state with
  | nil => rfl
  | cons first _ ih =>
    rw [map_cons, nodup_cons] at distinct
    rw [upsertBy]
    split
    · rename_i same
      rw [foldl_cons, foldl_cons, foldl_comm_of_known Knows keeps commutes
        (same ▸ distinct.1) (same ▸ learns state first), absorbs state first item same]
    · rw [foldl_cons, foldl_cons, ih distinct.2]

end Fold

/-! ### Changing an item -/

theorem map_updateFirst {β : Type*} {read : α → β}
    (keeps : ∀ item ∈ items, read (change item) = read item) :
    (updateFirst key wanted change items).map read = items.map read := by
  induction items with
  | nil => rfl
  | cons _ _ ih =>
    obtain ⟨keepsFirst, keepsRest⟩ := forall_mem_cons.mp keeps
    rw [updateFirst]
    split
    · rw [map_cons, map_cons, keepsFirst]
    · rw [map_cons, map_cons, ih keepsRest]

theorem keys_updateFirst (keeps : ∀ item, key (change item) = key item) :
    (updateFirst key wanted change items).map key = items.map key :=
  map_updateFirst fun item _ => keeps item

theorem updateFirst_of_not_mem (missing : wanted ∉ items.map key) :
    updateFirst key wanted change items = items := by
  induction items with
  | nil => rfl
  | cons _ _ ih =>
    rw [map_cons, mem_cons, not_or] at missing
    rw [updateFirst, if_neg (Ne.symm missing.1), ih missing.2]

theorem updateFirst_append_of_not_mem {front : List α} (missing : wanted ∉ front.map key) :
    updateFirst key wanted change (front ++ items) = front ++ updateFirst key wanted change items := by
  induction front with
  | nil => rfl
  | cons _ _ ih =>
    rw [map_cons, mem_cons, not_or] at missing
    rw [cons_append, updateFirst, if_neg (Ne.symm missing.1), ih missing.2, cons_append]

theorem updateFirst_append_of_mem {front : List α} (known : wanted ∈ front.map key) :
    updateFirst key wanted change (front ++ items) = updateFirst key wanted change front ++ items := by
  induction front with
  | nil => cases known
  | cons _ _ ih =>
    rw [cons_append, updateFirst, updateFirst]
    split
    · rfl
    · rename_i apart
      rw [map_cons, mem_cons] at known
      rw [ih (known.resolve_left (Ne.symm apart)), cons_append]

theorem find?_updateFirst (keeps : ∀ item, key (change item) = key item) :
    (updateFirst key wanted change items).find? (fun item => key item = another) =
      if another = wanted then (items.find? fun item => key item = another).map change
      else items.find? fun item => key item = another := by
  induction items with
  | nil => simp [updateFirst]
  | cons first _ ih =>
    by_cases here : key first = wanted
    · by_cases same : another = wanted
      · simp [updateFirst, here, keeps, same]
      · simp [updateFirst, here, keeps, same, Ne.symm same]
    · by_cases there : key first = another
      · have apart : another ≠ wanted := there ▸ here
        simp [updateFirst, there, apart]
      · simp only [updateFirst, if_neg here, find?_cons, there, decide_false, ih]

/-- Only what happens to the first item with the key matters. -/
theorem updateFirst_congr_of_find?
    (same : ∀ item, (items.find? fun item => key item = wanted) = some item →
      change item = later item) :
    updateFirst key wanted change items = updateFirst key wanted later items := by
  induction items with
  | nil => rfl
  | cons first _ ih =>
    by_cases here : key first = wanted
    · simp only [updateFirst, if_pos here, same first (by simp [here])]
    · simp only [updateFirst, if_neg here]
      rw [ih]
      intro item found
      exact same item (by simpa [here] using found)

theorem updateFirst_updateFirst_self (keeps : ∀ item, key (change item) = key item) :
    updateFirst key wanted later (updateFirst key wanted change items) =
      updateFirst key wanted (later ∘ change) items := by
  induction items with
  | nil => rfl
  | cons first _ ih =>
    by_cases here : key first = wanted
    · simp only [updateFirst, if_pos here, if_pos ((keeps first).trans here), Function.comp_apply]
    · simp only [updateFirst, if_neg here, ih]

theorem updateFirst_comm (apart : wanted ≠ another) (keeps : ∀ item, key (change item) = key item)
    (laterKeeps : ∀ item, key (later item) = key item) :
    updateFirst key wanted change (updateFirst key another later items) =
      updateFirst key another later (updateFirst key wanted change items) := by
  induction items with
  | nil => rfl
  | cons first _ ih =>
    by_cases here : key first = wanted
    · have notThere : key first ≠ another := fun same => apart (here.symm.trans same)
      simp only [updateFirst, if_neg notThere, if_pos here, if_neg ((keeps first).symm ▸ notThere)]
    · by_cases there : key first = another
      · simp only [updateFirst, if_pos there, if_neg ((laterKeeps first).symm ▸ here), if_neg here]
      · simp only [updateFirst, if_neg there, if_neg here, ih]

/-! ### Taking items out -/

theorem filter_updateFirst (keep : κ → Bool) (keeps : ∀ item, key (change item) = key item) :
    (updateFirst key wanted change items).filter (fun item => keep (key item)) =
      updateFirst key wanted change (items.filter fun item => keep (key item)) := by
  induction items with
  | nil => rfl
  | cons first items ih =>
    by_cases here : key first = wanted
    · cases keptFirst : keep (key first) with
      | true => simp [updateFirst, here ▸ keptFirst, here, keeps]
      | false =>
        have gone : wanted ∉ (items.filter fun item => keep (key item)).map key := by
          rw [mem_map]
          rintro ⟨_, mem, same⟩
          have kept := (mem_filter.mp mem).2
          rw [same, ← here, keptFirst] at kept
          cases kept
        rw [updateFirst, if_pos here, filter_cons_of_neg (by simp [keeps, keptFirst]),
          filter_cons_of_neg (by simp [keptFirst]), updateFirst_of_not_mem gone]
    · rw [updateFirst, if_neg here, filter_cons, filter_cons, ih]
      cases keptFirst : keep (key first) <;> simp [updateFirst, here]

end WeaveCodex.Library.KeyedList
