/-
Purpose: Key/value tables built from an entry list in which a later entry for a
  key replaces an earlier one, as Python dict displays and JavaScript `Map`
  constructors do.
-/
import Mathlib.Data.List.Basic

namespace WeaveCodex.Library.Dict

open List Function

variable {κ ν : Type*} [DecidableEq κ]

/-- The value stored for `key`: the last entry wins. -/
def ofEntries : List (κ × ν) → κ → Option ν
  | [], _ => none
  | entry :: entries, key =>
    match ofEntries entries key with
    | some value => some value
    | none => if entry.1 = key then some entry.2 else none

variable {entries : List (κ × ν)} {key : κ}

theorem ofEntries_eq_none : ofEntries entries key = none ↔ key ∉ entries.map Prod.fst := by
  induction entries with
  | nil => simp [ofEntries]
  | cons _ entries ih =>
    rw [map_cons, mem_cons, not_or, ← ih, ofEntries]
    cases ofEntries entries key with
    | some => simp
    | none => simp [eq_comm]

theorem mem_of_ofEntries {value : ν} (found : ofEntries entries key = some value) :
    (key, value) ∈ entries := by
  induction entries with
  | nil => cases found
  | cons _ _ ih =>
    rw [ofEntries] at found
    split at found
    · rename_i later
      exact mem_cons_of_mem _ (ih (later.trans found))
    · split at found
      · rename_i same
        rw [← same, ← Option.some.inj found]
        exact mem_cons_self
      · cases found

/-- With distinct keys every entry is found under its own key. -/
theorem ofEntries_of_mem (distinct : (entries.map Prod.fst).Nodup) {value : ν}
    (mem : (key, value) ∈ entries) : ofEntries entries key = some value := by
  induction entries with
  | nil => simp at mem
  | cons _ entries ih =>
    rw [map_cons, nodup_cons] at distinct
    rcases mem_cons.mp mem with here | later
    · have absent : ofEntries entries key = none :=
        ofEntries_eq_none.mpr (by simpa [← here] using distinct.1)
      simp [ofEntries, absent, ← here]
    · simp [ofEntries, ih distinct.2 later]

/-- A later entry under another key does not matter. -/
theorem ofEntries_concat_of_ne (entries : List (κ × ν)) {entry : κ × ν} (other : entry.1 ≠ key) :
    ofEntries (entries ++ [entry]) key = ofEntries entries key := by
  induction entries with
  | nil => simp [ofEntries, other]
  | cons _ _ ih => simp [ofEntries, ih]

/-- The last entry is found under its key. -/
theorem ofEntries_concat_self (entries : List (κ × ν)) (key : κ) (value : ν) :
    ofEntries (entries ++ [(key, value)]) key = some value := by
  induction entries with
  | nil => simp [ofEntries]
  | cons _ _ ih => simp [ofEntries, ih]

/-- The index table of a duplicate-free list is `idxOf`. -/
theorem ofEntries_zipIdx {keys : List κ} (distinct : keys.Nodup) (mem : key ∈ keys) :
    ofEntries keys.zipIdx key = some (keys.idxOf key) := by
  refine ofEntries_of_mem (by simpa using distinct) ?_
  rw [mem_zipIdx_iff_getElem?]
  exact getElem?_idxOf mem

/-- A table of records indexed by a key of theirs returns the record. -/
theorem ofEntries_map_self {records : List ν} {keyOf : ν → κ}
    (distinct : (records.map keyOf).Nodup) {record : ν} (mem : record ∈ records) :
    ofEntries (records.map fun r => (keyOf r, r)) (keyOf record) = some record := by
  refine ofEntries_of_mem (by simpa [comp_def] using distinct) ?_
  exact mem_map.mpr ⟨record, mem, rfl⟩

/-- A counter table: every listed key adds one to its entry. -/
def tally (keys : List κ) : κ → Int :=
  keys.foldl (fun counts key => update counts key (counts key + 1)) fun _ => 0

theorem tally_eq_count (keys : List κ) (key : κ) : tally keys key = keys.count key := by
  have general : ∀ (keys : List κ) (counts : κ → Int),
      (keys.foldl (fun counts key => update counts key (counts key + 1)) counts) key =
        counts key + keys.count key := by
    intro keys
    induction keys with
    | nil => simp
    | cons head _ ih =>
      intro counts
      rw [foldl_cons, ih, count_cons]
      by_cases same : key = head
      · subst same
        simp
        omega
      · simp [same, Ne.symm same]
  simpa [tally] using general keys fun _ => 0

theorem tally_eq_zero_iff {keys : List κ} : tally keys key = 0 ↔ key ∉ keys := by
  rw [tally_eq_count]
  norm_cast
  exact count_eq_zero

/-- `table[key] = value`: an existing entry keeps its place. -/
def set {ν : Type*} (table : List (κ × ν)) (key : κ) (value : ν) : List (κ × ν) :=
  if table.any (fun entry => entry.1 == key) then
    table.map fun entry => if entry.1 = key then (key, value) else entry
  else
    table ++ [(key, value)]

end WeaveCodex.Library.Dict
