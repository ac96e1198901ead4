/-
Purpose: How the chunks of an update hunk are located in a file and turned into its new
  contents, in both update modes.
Trusted boundary: line indices are natural numbers, where the source has `usize`
-/
import WeaveCodex.ApplyPatch.TextFile

namespace WeaveCodex.ApplyPatch

/-- `ApplyPatchFileUpdateMode`. -/
inductive UpdateMode where
  | normalizeToLf | preserveLineEndings
deriving DecidableEq, Repr

structure UpdateFileChunk where
  changeContext : Option String := none
  oldLines : List String
  newLines : List String
  contextLineIndices : List (Nat × Nat) := []
  isEndOfFile : Bool := false
deriving DecidableEq, Repr

/-! ### Searching -/

/-- `normalise`: common typographic characters become plain ones. -/
def normaliseChar (char : Char) : Char :=
  let code := char.toNat
  if (0x2010 ≤ code ∧ code ≤ 0x2015) ∨ code = 0x2212 then '-'
  else if 0x2018 ≤ code ∧ code ≤ 0x201B then Char.ofNat 39
  else if 0x201C ≤ code ∧ code ≤ 0x201F then Char.ofNat 34
  else if code = 0xA0 ∨ (0x2002 ≤ code ∧ code ≤ 0x200A) ∨ code = 0x202F ∨ code = 0x205F ∨
      code = 0x3000 then ' '
  else char

def normalise (text : String) : String :=
  String.ofList ((trim text).toList.map normaliseChar)

/-- The lines at `index` match the pattern when both are seen through `key`. -/
def matchesAt (key : String → String) (lines pattern : List String) (index : Nat) : Bool :=
  ((lines.drop index).take pattern.length).map key = pattern.map key

/-- The passes, from strict to lenient. -/
def seekKeys : List (String → String) :=
  [id, trimEnd, trim, normalise]

def searchStart (lines pattern : List String) (start : Nat) (eof : Bool) (mode : UpdateMode) :
    Nat :=
  if eof then
    let eofStart := lines.length - pattern.length
    match mode with
    | .normalizeToLf => eofStart
    | .preserveLineEndings => max eofStart start
  else start

def seekSequence (lines pattern : List String) (start : Nat) (eof : Bool) (mode : UpdateMode) :
    Option Nat :=
  if pattern = [] then some start
  else if lines.length < pattern.length then none
  else
    let first := searchStart lines pattern start eof mode
    let indices := List.range' first (lines.length - pattern.length + 1 - first)
    seekKeys.findSome? fun key => indices.find? (matchesAt key lines pattern)

/-! ### Replacements -/

/-- The piece after the last context line of a located chunk, from `oldStart` and
`newStart` on. -/
def lastPiece (startIndex : Nat) (pattern newSlice : List String) (oldStart newStart : Nat) :
    List Replacement :=
  if oldStart ≠ pattern.length ∨ newStart ≠ newSlice.length then
    [⟨startIndex + oldStart, pattern.length - oldStart, newSlice.drop newStart⟩]
  else []

/-- The pieces between the context lines of a located chunk.  `oldStart` and `newStart`
are where the current piece begins. -/
def piecesFrom (startIndex : Nat) (pattern newSlice : List String) (oldStart newStart : Nat) :
    List (Nat × Nat) → List Replacement
  | [] => lastPiece startIndex pattern newSlice oldStart newStart
  | (oldContext, newContext) :: later =>
    -- A context line that was dropped with the final empty line ends the loop.
    if pattern.length ≤ oldContext ∨ newSlice.length ≤ newContext then
      lastPiece startIndex pattern newSlice oldStart newStart
    else
      let piece : List Replacement :=
        if oldStart ≠ oldContext ∨ newStart ≠ newContext then
          [⟨startIndex + oldStart, oldContext - oldStart, (newSlice.take newContext).drop newStart⟩]
        else []
      piece ++ piecesFrom startIndex pattern newSlice (oldContext + 1) (newContext + 1) later

variable (mode : UpdateMode) (lines : List String) (path : String)

/-- Where a chunk without old lines inserts its new ones. -/
def insertionIndex : Nat :=
  match mode with
  | .normalizeToLf => if endsEmpty lines then lines.length - 1 else lines.length
  | .preserveLineEndings => lines.length

variable (lineIndex : Nat) (chunk : UpdateFileChunk)

/-- The old lines of a chunk where they were found, and the new lines to go there.  A
search that fails is repeated without a final empty line. -/
def locate : Option (Nat × List String × List String) :=
  match seekSequence lines chunk.oldLines lineIndex chunk.isEndOfFile mode with
  | some index => some (index, chunk.oldLines, chunk.newLines)
  | none =>
    if endsEmpty chunk.oldLines then
      let pattern := chunk.oldLines.dropLast
      let newSlice := if endsEmpty chunk.newLines then chunk.newLines.dropLast else chunk.newLines
      (seekSequence lines pattern lineIndex chunk.isEndOfFile mode).map fun index =>
        (index, pattern, newSlice)
    else none

/-- The line after the chunk's context line, if it has one. -/
def seekContext : Except String Nat :=
  match chunk.changeContext with
  | none => .ok lineIndex
  | some context =>
    match seekSequence lines [context] lineIndex false mode with
    | some index => .ok (index + 1)
    | none => .error ("Failed to find context '" ++ context ++ "' in " ++ path)

/-- The replacements of one chunk, and the line at which the search goes on. -/
def chunkReplacements : Except String (List Replacement × Nat) := do
  let lineIndex ← seekContext mode lines path lineIndex chunk
  if chunk.oldLines = [] then
    return ([⟨insertionIndex mode lines, 0, chunk.newLines⟩], lineIndex)
  else
    match locate mode lines lineIndex chunk with
    | none =>
      .error ("Failed to find expected lines in " ++ path ++ ":\n" ++ joinLines chunk.oldLines)
    | some (index, pattern, newSlice) =>
      let found : List Replacement :=
        match mode with
        | .normalizeToLf => [⟨index, pattern.length, newSlice⟩]
        | .preserveLineEndings => piecesFrom index pattern newSlice 0 0 chunk.contextLineIndices
      return (found, index + pattern.length)

def replacementsFrom (mode : UpdateMode) (lines : List String) (path : String)
    (lineIndex : Nat) : List UpdateFileChunk → Except String (List Replacement)
  | [] => .ok []
  | chunk :: chunks => do
      let (found, lineIndex) ← chunkReplacements mode lines path lineIndex chunk
      let later ← replacementsFrom mode lines path lineIndex chunks
      return found ++ later

/-- `compute_replacements`, with the message of a `ComputeReplacements` error. -/
def computeReplacements (chunks : List UpdateFileChunk)
    (mode : UpdateMode) : Except String (List Replacement) := do
  let replacements ← replacementsFrom mode lines path 0 chunks
  return replacements.insertionSort fun first second => first.start ≤ second.start

/-- `apply_replacements`, from the last one to the first. -/
def applyReplacements (replacements : List Replacement) : List String :=
  replacements.foldr (fun replacement lines =>
      lines.take replacement.start ++ replacement.newLines ++
        lines.drop (replacement.start + replacement.oldLength))
    lines

/-! ### New contents -/

/-- The part of `derive_new_contents_from_chunks` after the file has been read. -/
def deriveNewContents (chunks : List UpdateFileChunk)
    (originalContents : String) : Except String String :=
  match mode with
  | .normalizeToLf => do
      let split := splitLines originalContents
      let originalLines := if endsEmpty split then split.dropLast else split
      let replacements ← computeReplacements originalLines path chunks mode
      let newLines := applyReplacements originalLines replacements
      return joinLines (if endsEmpty newLines then newLines else newLines ++ [""])
  | .preserveLineEndings => do
      let sourceFile := SourceFile.parse originalContents
      let replacements ← computeReplacements sourceFile.lineTexts path chunks mode
      return (sourceFile.applyReplacements replacements).intoContents

end WeaveCodex.ApplyPatch
