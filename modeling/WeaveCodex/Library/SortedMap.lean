/-
Purpose: Finite maps as lists of entries in strictly increasing order of the keys: lookup,
  insertion and removal, and that two such lists with the same answers are equal.
-/
import Mathlib.Data.List.Sort

namespace WeaveCodex.Library.SortedMap

open List

variable {κ ν : Type*} [LinearOrder κ]

/-- The value of the first entry for the key. -/
def get : List (κ × ν) → κ → Option ν
  | [], _ => none
  | entry :: entries, key => if entry.1 = key then some entry.2 else get entries key

/-- The entry is put in its place, or in the place of the one with its key. -/
def insert (key : κ) (value : ν) : List (κ × ν) → List (κ × ν)
  | [] => [(key, value)]
  | entry :: entries =>
    if key < entry.1 then (key, value) :: entry :: entries
    else if key = entry.1 then (key, value) :: entries
    else entry :: insert key value entries

def erase (key : κ) (entries : List (κ × ν)) : List (κ × ν) :=
  entries.filter fun entry => entry.1 ≠ key

/-- The keys increase strictly. -/
def Sorted (entries : List (κ × ν)) : Prop :=
  entries.Pairwise fun first second => first.1 < second.1

variable {entries others : List (κ × ν)} {entry : κ × ν} {key other : κ} {value : ν}

/-! ### Lookup -/

@[simp] theorem get_nil (key : κ) : get ([] : List (κ × ν)) key = none := rfl

theorem get_cons_self (entries : List (κ × ν)) (key : κ) (value : ν) :
    get ((key, value) :: entries) key = some value := by
  simp [get]

theorem get_cons_of_ne (apart : entry.1 ≠ key) : get (entry :: entries) key = get entries key := by
  simp [get, apart]

theorem get_eq_find? (entries : List (κ × ν)) (key : κ) :
    get entries key = (entries.find? fun entry => entry.1 = key).map Prod.snd := by
  induction entries with
  | nil => rfl
  | cons entry _ ih =>
    rw [get, find?_cons, ih]
    by_cases same : entry.1 = key <;> simp [same]

theorem mem_of_get (found : get entries key = some value) : (key, value) ∈ entries := by
  rw [get_eq_find?] at found
  obtain ⟨entry, here, rfl⟩ := Option.map_eq_some_iff.mp found
  have same := find?_some here
  rw [decide_eq_true_eq] at same
  exact same ▸ mem_of_find?_eq_some here

theorem get_eq_none : get entries key = none ↔ ∀ entry ∈ entries, entry.1 ≠ key := by
  simp [get_eq_find?]

theorem Sorted.get_tail (sorted : Sorted ((key, value) :: entries)) : get entries key = none :=
  get_eq_none.mpr fun _ mem => (rel_of_pairwise_cons sorted mem).ne'

/-! ### Insertion and removal -/

theorem get_insert (key other : κ) (value : ν) (entries : List (κ × ν)) :
    get (insert other value entries) key = if other = key then some value else get entries key := by
  induction entries with
  | nil => rfl
  | cons entry _ ih =>
    rw [insert]
    split
    · rfl
    · split
      · rename_i same
        by_cases here : entry.1 = key <;> simp [get, same, here]
      · rename_i apart
        by_cases here : entry.1 = key
        · have notOther : other ≠ key := fun same => apart (same.trans here.symm)
          simp [get, here, notOther]
        · simp [get, here, ih]

@[simp] theorem get_insert_self (key : κ) (value : ν) (entries : List (κ × ν)) :
    get (insert key value entries) key = some value := by
  rw [get_insert, if_pos rfl]

theorem get_insert_of_ne (apart : other ≠ key) (value : ν) (entries : List (κ × ν)) :
    get (insert other value entries) key = get entries key := by
  rw [get_insert, if_neg apart]

theorem get_erase (key other : κ) (entries : List (κ × ν)) :
    get (erase other entries) key = if other = key then none else get entries key := by
  split
  · rename_i same
    rw [get_eq_none, erase, same]
    simp
  · rename_i apart
    rw [get_eq_find?, get_eq_find?, erase, find?_filter]
    congr 2
    funext entry
    by_cases here : entry.1 = key <;> simp [here, Ne.symm apart]

theorem mem_of_mem_insert (mem : entry ∈ insert key value entries) :
    entry = (key, value) ∨ entry ∈ entries := by
  induction entries with
  | nil => exact .inl (mem_singleton.mp mem)
  | cons first _ ih =>
    rw [insert] at mem
    split at mem
    · exact mem_cons.mp mem
    · split at mem
      · exact (mem_cons.mp mem).imp_right (mem_cons_of_mem first)
      · rcases mem_cons.mp mem with here | later
        · exact .inr (here ▸ mem_cons_self)
        · exact (ih later).imp_right (mem_cons_of_mem first)

theorem sorted_insert (sorted : Sorted entries) (key : κ) (value : ν) :
    Sorted (insert key value entries) := by
  induction entries with
  | nil => exact pairwise_singleton _ _
  | cons _ _ ih =>
    obtain ⟨before, rest⟩ := pairwise_cons.mp sorted
    rw [insert]
    split
    · rename_i smaller
      apply pairwise_cons.mpr ⟨?_, sorted⟩
      exact forall_mem_cons.mpr ⟨smaller, fun later mem => smaller.trans (before later mem)⟩
    · rename_i notSmaller
      split
      · rename_i same
        apply pairwise_cons.mpr ⟨?_, rest⟩
        intro later mem
        exact same ▸ before later mem
      · rename_i apart
        apply pairwise_cons.mpr ⟨?_, ih rest⟩
        intro later mem
        rcases mem_of_mem_insert mem with here | inside
        · rw [here]
          exact lt_of_le_of_ne (le_of_not_gt notSmaller) (Ne.symm apart)
        · exact before later inside

theorem sorted_erase (sorted : Sorted entries) (key : κ) : Sorted (erase key entries) :=
  List.Pairwise.filter _ sorted

/-- A new key adds one entry. -/
theorem perm_insert (missing : get entries key = none) (value : ν) :
    (insert key value entries).Perm ((key, value) :: entries) := by
  induction entries with
  | nil => exact List.Perm.refl _
  | cons entry _ ih =>
    have apart : entry.1 ≠ key := get_eq_none.mp missing entry mem_cons_self
    rw [get_cons_of_ne apart] at missing
    rw [insert]
    split
    · exact List.Perm.refl _
    · rw [if_neg (Ne.symm apart)]
      exact ((ih missing).cons entry).trans (.swap _ _ _)

theorem Sorted.mem_iff (sorted : Sorted entries) :
    (key, value) ∈ entries ↔ get entries key = some value := by
  refine ⟨fun mem => ?_, mem_of_get⟩
  induction entries with
  | nil => cases mem
  | cons _ _ ih =>
    rcases mem_cons.mp mem with rfl | later
    · exact get_cons_self _ key value
    · rw [get_cons_of_ne (rel_of_pairwise_cons sorted later).ne]
      exact ih sorted.of_cons later

/-- The entry of a key is removed and no other. -/
theorem perm_erase (sorted : Sorted entries) (found : get entries key = some value) :
    entries.Perm ((key, value) :: erase key entries) := by
  have distinct : entries.Nodup :=
    List.Pairwise.imp (fun before same => before.ne (congrArg Prod.fst same)) sorted
  have fresh : (key, value) ∉ erase key entries := by simp [erase]
  rw [perm_ext_iff_of_nodup distinct (nodup_cons.mpr ⟨fresh, distinct.filter _⟩)]
  rintro ⟨other, _⟩
  rw [mem_cons, erase, mem_filter]
  by_cases same : other = key
  · simp [same, sorted.mem_iff, found, eq_comm]
  · simp [same]

/-! ### Extensionality -/

theorem Sorted.ext (sorted : Sorted entries) (otherSorted : Sorted others)
    (same : ∀ key, get entries key = get others key) : entries = others := by
  have antisymm : Std.Antisymm fun first second : κ × ν => first.1 < second.1 :=
    ⟨fun _ _ first second => absurd second first.asymm⟩
  have irrefl : Std.Irrefl fun first second : κ × ν => first.1 < second.1 :=
    ⟨fun entry => lt_irrefl entry.1⟩
  apply List.Pairwise.eq_of_mem_iff sorted otherSorted
  rintro ⟨key, value⟩
  rw [sorted.mem_iff, otherSorted.mem_iff, same]

end WeaveCodex.Library.SortedMap
