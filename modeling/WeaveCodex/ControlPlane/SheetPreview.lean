/-
Purpose: The preview of a worksheet: its cells in a grid, and a flag for cells that were left out.
Trusted boundary: translation of `_column_index`, `_clip` and the part of `_xlsx_preview` in
  `artifact_preview.py` that reads the cells of a sheet; the elements of the XML are given, and
  `str.upper`, the digits of `\d` and `int` are parameters
-/
import Mathlib.Data.Nat.Notation

namespace WeaveCodex.ControlPlane.SheetPreview

open List

/-- An element `c`: its attributes, the text of its first element `v` and those of its elements
`t`, which may be missing. -/
structure Cell where
  reference : Option String := none
  cellType : Option String := none
  valueNode : Option (Option String) := none
  texts : List (Option String) := []

structure Tools where
  upper : List Char → List Char
  isDigit : Char → Bool
  /-- No number is read from some texts. -/
  int : List Char → Option Int

variable (tools : Tools) (shared : List String) (cell : Cell)

/-- `cell.attrib.get("r", "A1")`. -/
def Cell.place : List Char :=
  (cell.reference.getD "A1").toList

/-- The letters that `[A-Z]+` matches. -/
def columnLetters : List Char :=
  (tools.upper cell.place).takeWhile fun char => 'A' ≤ char && char ≤ 'Z'

def columnIndex : Nat :=
  (columnLetters tools cell).foldl (fun value letter => value * 26 + (letter.toNat - 64)) 0 - 1

def rowIndex : Option Nat :=
  let digits := (cell.place.dropWhile (!tools.isDigit ·)).takeWhile tools.isDigit
  if digits = [] then some 0 else (tools.int digits).map fun number => (number - 1).toNat

def clip (text : String) : String :=
  if text.length ≤ 500 then text else String.ofList (text.toList.take 499) ++ "…"

/-- `shared[index]`, where a negative index counts from the end. -/
def sharedText (index : Int) : Option String :=
  if index + shared.length < 0 then none
  else shared[(if index < 0 then index + shared.length else index).toNat]?

/-- What the cell shows; none for an exception. -/
def cellValue : Option String :=
  let value := (cell.valueNode.getD (some "")).getD ""
  if cell.cellType = some "inlineStr" then some (clip (String.join (cell.texts.map (·.getD ""))))
  else if cell.cellType = some "s" ∧ value ≠ "" then do
    let index ← tools.int value.toList
    clip <$> (if index < shared.length then sharedText shared index else some value)
  else if cell.cellType = some "b" then some (clip (if value = "1" then "TRUE" else "FALSE"))
  else some (clip value)

/-- An entry of `values`. -/
abbrev Entry : Type :=
  (Nat × Nat) × String

/-- The entry for a cell; the inner none is a cell that is skipped. -/
def entryOf : Option (Option Entry) := do
  let row ← rowIndex tools cell
  let column := columnIndex tools cell
  if 61 ≤ row ∨ 30 ≤ column then return none
  let value ← cellValue tools shared cell
  return some ((row, column), value)

/-- The variables of the loop; a later value comes first. -/
structure Sheet where
  values : List Entry := []
  maxRow : Nat := 0
  maxCol : Nat := 0

def Sheet.put (sheet : Sheet) (entry : Entry) : Sheet :=
  { values := entry :: sheet.values
    maxRow := max sheet.maxRow entry.1.1
    maxCol := max sheet.maxCol entry.1.2 }

def Sheet.grid (sheet : Sheet) : List (List String) :=
  (range (sheet.maxRow + 1)).map fun row => (range (sheet.maxCol + 1)).map fun column =>
    (sheet.values.lookup (row, column)).getD ""

structure Preview where
  columns : List String
  rows : List (List String)
  rowCount : Nat
  columnCount : Nat
  truncated : Bool
deriving DecidableEq

def xlsxPreview (cells : List Cell) : Option Preview := do
  let entries ← cells.mapM (entryOf tools shared)
  let sheet := (entries.filterMap id).foldl Sheet.put {}
  return {
    columns := sheet.grid.headD []
    rows := sheet.grid.tail
    rowCount := sheet.maxRow
    columnCount := sheet.maxCol + 1
    truncated := 60 ≤ sheet.maxRow || 29 ≤ sheet.maxCol }

end WeaveCodex.ControlPlane.SheetPreview
