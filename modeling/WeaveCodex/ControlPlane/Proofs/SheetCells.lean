/-
Purpose: The preview of a worksheet places its cells by their references.  Its flag tells whether a
  cell lies in the last row or column that is shown, not whether a cell was left out.
-/
import Mathlib.Data.List.Induction
import Mathlib.Data.Nat.Digits.Defs
import WeaveCodex.ControlPlane.SheetPreview

namespace WeaveCodex.ControlPlane.SheetPreview

open List Nat

/-- The cell lies in the first rows and columns. -/
def Within (tools : Tools) (rows columns : Nat) (cell : Cell) : Prop :=
  ∃ row, rowIndex tools cell = some row ∧ row < rows ∧ columnIndex tools cell < columns

variable {tools : Tools} {shared : List String} {cell : Cell} {entry : Entry}

/-- The letters denote the column in bijective base 26. -/
theorem columnIndex_eq (tools : Tools) (cell : Cell) : columnIndex tools cell =
    ofDigits 26 ((columnLetters tools cell).reverse.map (·.toNat - 64)) - 1 := by
  rw [columnIndex, foldl_eq_foldr_reverse, ofDigits_eq_foldr, foldr_map]
  simp only [cast_id, mul_comm, add_comm]

/-- The entry of a cell has its row and its column; a cell without one lies outside of the first 61
rows and 30 columns. -/
theorem entryOf_eq {outcome : Option Entry} (made : entryOf tools shared cell = some outcome) :
    ∃ row, rowIndex tools cell = some row ∧
      ((61 ≤ row ∨ 30 ≤ columnIndex tools cell) ∧ outcome = none ∨
        row < 61 ∧ columnIndex tools cell < 30 ∧
          ∃ value, outcome = some ((row, columnIndex tools cell), value)) := by
  simp only [entryOf, Option.bind_eq_bind, Option.bind_eq_some_iff] at made
  obtain ⟨row, is, made⟩ := made
  refine ⟨row, is, ?_⟩
  split at made
  · rename_i outside
    cases made
    exact .inl ⟨outside, rfl⟩
  · obtain ⟨value, _, made⟩ := Option.bind_eq_some_iff.mp made
    cases made
    exact .inr ⟨by omega, by omega, value, rfl⟩

theorem within_iff {row : Nat} (is : rowIndex tools cell = some row) (rows columns : Nat) :
    Within tools rows columns cell ↔ row < rows ∧ columnIndex tools cell < columns := by
  simp [Within, is]

/-- What the loop has gathered. -/
theorem put_entries (entries : List Entry) :
    (entries.foldl Sheet.put {}).values = entries.reverse ∧ ∀ bound,
      ((entries.foldl Sheet.put {}).maxRow ≤ bound ↔ ∀ entry ∈ entries, entry.1.1 ≤ bound) ∧
      ((entries.foldl Sheet.put {}).maxCol ≤ bound ↔ ∀ entry ∈ entries, entry.1.2 ≤ bound) := by
  induction entries using reverseRecOn with
  | nil => simp
  | append_singleton entries entry ih => simp [Sheet.put, ih, or_imp, forall_and]

variable {cells : List Cell} {found : List (Option Entry)}

/-- If no cell raises an exception, each has its outcome. -/
theorem map_entryOf (all : cells.mapM (entryOf tools shared) = some found) :
    cells.map (entryOf tools shared) = found.map some := by
  induction cells generalizing found with
  | nil =>
    cases all
    rfl
  | cons _ _ ih =>
    rw [mapM_cons] at all
    obtain ⟨_, here, rest⟩ := Option.bind_eq_some_iff.mp all
    obtain ⟨_, there, is⟩ := Option.bind_eq_some_iff.mp rest
    cases is
    rw [map_cons, map_cons, here, ih there]

section Outcomes

variable (same : cells.map (entryOf tools shared) = found.map some)
include same

theorem mem_found :
    entry ∈ found.filterMap id ↔ ∃ cell ∈ cells, entryOf tools shared cell = some (some entry) := by
  rw [← mem_map, same]
  simp

/-- Every cell was kept or left out. -/
theorem exists_outcome (mem : cell ∈ cells) :
    ∃ outcome ∈ found, entryOf tools shared cell = some outcome := by
  have made : entryOf tools shared cell ∈ found.map some := same ▸ mem_map_of_mem mem
  obtain ⟨outcome, listed, is⟩ := mem_map.mp made
  exact ⟨outcome, listed, is.symm⟩

/-- The cells that are left out are those outside of the first 61 rows and 30 columns. -/
theorem skipped_iff (mem : cell ∈ cells) :
    entryOf tools shared cell = some none ↔ ¬ Within tools 61 30 cell := by
  obtain ⟨outcome, -, made⟩ := exists_outcome same mem
  obtain ⟨row, is, ⟨outside, rfl⟩ | ⟨few, narrow, value, rfl⟩⟩ := entryOf_eq made
  · simp only [made, within_iff is, true_iff]
    omega
  · simp [made, within_iff is, few, narrow]

/-- The flag tells of a cell in row 61 or column 30, which is shown. -/
theorem flagged_iff (sheet : Sheet) (gathered : sheet = (found.filterMap id).foldl Sheet.put {}) :
    (60 ≤ sheet.maxRow || 29 ≤ sheet.maxCol) = true ↔
      ∃ cell ∈ cells, Within tools 61 30 cell ∧ ¬ Within tools 60 29 cell := by
  obtain ⟨-, bounds⟩ := put_entries (found.filterMap id)
  have rows := not_congr (bounds 59).1
  have columns := not_congr (bounds 28).2
  rw [← gathered] at rows columns
  simp only [not_le, not_forall, exists_prop] at rows columns
  rw [Bool.or_eq_true, decide_eq_true_eq, decide_eq_true_eq, succ_le_iff, succ_le_iff, rows, columns,
    ← exists_or]
  constructor
  · rintro ⟨entry, last⟩
    obtain ⟨cell, listed, made⟩ := (mem_found same).mp (last.elim And.left And.left)
    obtain ⟨row, is, ⟨-, none⟩ | ⟨few, narrow, value, some⟩⟩ := entryOf_eq made
    · cases none
    · cases some
      refine ⟨cell, listed, (within_iff is 61 30).mpr ⟨few, narrow⟩, ?_⟩
      rw [within_iff is]
      simp only at last
      omega
  · rintro ⟨cell, mem, inside, last⟩
    obtain ⟨outcome, listed, made⟩ := exists_outcome same mem
    obtain ⟨row, is, ⟨outside, -⟩ | ⟨-, -, value, rfl⟩⟩ := entryOf_eq made
    · rw [within_iff is] at inside
      omega
    · have kept := (mem_found same).mpr ⟨cell, mem, made⟩
      rw [within_iff is] at last
      have high : 59 < row ∨ 28 < columnIndex tools cell := by omega
      exact ⟨_, high.imp (⟨kept, ·⟩) (⟨kept, ·⟩)⟩

end Outcomes

theorem grid_get (sheet : Sheet) {position : Nat × Nat} (row : position.1 ≤ sheet.maxRow)
    (column : position.2 ≤ sheet.maxCol) :
    (sheet.grid.headD [] :: sheet.grid.tail)[position.1]?.bind (·[position.2]?) =
      some ((sheet.values.lookup position).getD "") := by
  have whole : sheet.grid.headD [] :: sheet.grid.tail = sheet.grid := by
    simp [Sheet.grid, range_succ_eq_map]
  rw [whole]
  simp [Sheet.grid, lt_succ_of_le row, lt_succ_of_le column]

/-- The last of the values for a position is the one that is shown. -/
theorem lookup_last {earlier later : List Cell} {position : Nat × Nat} {value : String}
    (same : (earlier ++ cell :: later).map (entryOf tools shared) = found.map some)
    (kept : entryOf tools shared cell = some (some (position, value)))
    (last : ∀ other ∈ later, ∀ text, entryOf tools shared other ≠ some (some (position, text))) :
    (found.filterMap id).reverse.lookup position = some value := by
  rw [map_append, map_cons, kept] at same
  obtain ⟨before, _, rfl, _, rest⟩ := map_eq_append_iff.mp same.symm
  obtain ⟨_, after, rfl, first, laterFound⟩ := map_eq_cons_iff.mp rest
  cases first
  have free : (after.filterMap id).reverse.lookup position = none := by
    rw [lookup_eq_none_iff]
    intro other mem
    obtain ⟨cell, isLater, is⟩ := (mem_found laterFound.symm).mp (mem_reverse.mp mem)
    rw [bne_iff_ne]
    rintro rfl
    exact last cell isLater other.2 is
  have split : (before ++ some (position, value) :: after).filterMap id =
      before.filterMap id ++ (position, value) :: after.filterMap id := filterMap_append
  rw [split, reverse_append, reverse_cons, append_assoc, lookup_append, free, Option.none_or,
    singleton_append, lookup_cons_self]

def asciiTools : Tools :=
  { upper := (·.map Char.toUpper)
    isDigit := Char.isDigit
    int := fun digits => some (ofDigitChars 10 digits 0) }

/-- An empty cell in row 61, one in column 31 and a value at B2. -/
def tallSheet : List Cell :=
  [{ reference := some "A61" }, { reference := some "AE1" },
    { reference := some "b2", valueNode := some (some "x") }]

end WeaveCodex.ControlPlane.SheetPreview
