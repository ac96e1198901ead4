/-
Purpose: Patches written out in the documented grammar, and the hunks that it can express.
Trusted boundary: our own statement of the grammar in the header of
  `apply-patch/src/parser.rs`; the source has no printer
-/
import WeaveCodex.ApplyPatch.StreamingParser

namespace WeaveCodex.ApplyPatch

/-! ### What the grammar can express -/

/-- A line: it contains no newline and does not end with a carriage return. -/
structure IsLine (line : String) : Prop where
  single : '\n' ∉ line.toList
  unreturned : line.toList.getLast? ≠ some '\r'

/-- A file name: not empty, on one line, without white space at its ends. -/
structure IsPath (path : String) : Prop where
  nonempty : path ≠ ""
  single : '\n' ∉ path.toList
  trimmed : trim path = path

/-- A change context: not empty, on one line, without white space at its end. -/
structure IsContext (context : String) : Prop where
  nonempty : context ≠ ""
  single : '\n' ∉ context.toList
  trimmed : trimEnd context = context

structure UpdateFileChunk.Renderable (chunk : UpdateFileChunk) : Prop where
  context : ∀ context ∈ chunk.changeContext, IsContext context
  nonempty : chunk.hasNoLines = false
  old : ∀ line ∈ chunk.oldLines, IsLine line
  new : ∀ line ∈ chunk.newLines, IsLine line
  /-- The context lines are in the same order on both sides. -/
  increasing : chunk.contextLineIndices.Pairwise fun first second =>
    first.1 < second.1 ∧ first.2 < second.2
  /-- A context line is the same on both sides. -/
  shared : ∀ indices ∈ chunk.contextLineIndices, ∃ line,
    chunk.oldLines[indices.1]? = some line ∧ chunk.newLines[indices.2]? = some line

def Hunk.Renderable : Hunk → Prop
  | .addFile path contents =>
    IsPath path ∧ endsEmpty (splitLines contents) = true ∧
      ∀ line ∈ (splitLines contents).dropLast, IsLine line
  | .deleteFile path => IsPath path
  | .updateFile path movePath chunks =>
    IsPath path ∧ (∀ destination ∈ movePath, IsPath destination) ∧ chunks ≠ [] ∧
      ∀ chunk ∈ chunks, chunk.Renderable

/-! ### Rendering -/

def renderContext : Option String → String
  | none => emptyChangeContextMarker
  | some context => changeContextMarker ++ context

/-- The lines of a chunk from the given indices on: removed lines and then added lines up
to the next context line. -/
def renderLines (old new : List String) (oldIndex newIndex : Nat) : List (Nat × Nat) → List String
  | [] => (old.drop oldIndex).map ("-" ++ ·) ++ (new.drop newIndex).map ("+" ++ ·)
  | (oldNext, newNext) :: later =>
    ((old.take oldNext).drop oldIndex).map ("-" ++ ·) ++
      ((new.take newNext).drop newIndex).map ("+" ++ ·) ++
      (" " ++ (old[oldNext]?).getD "") :: renderLines old new (oldNext + 1) (newNext + 1) later

def renderChunk (chunk : UpdateFileChunk) : List String :=
  renderContext chunk.changeContext ::
    (renderLines chunk.oldLines chunk.newLines 0 0 chunk.contextLineIndices ++
      if chunk.isEndOfFile then [eofMarker] else [])

def renderHunk : Hunk → List String
  | .addFile path contents =>
    (addFileMarker ++ path) :: (splitLines contents).dropLast.map ("+" ++ ·)
  | .deleteFile path => [deleteFileMarker ++ path]
  | .updateFile path movePath chunks =>
    (updateFileMarker ++ path) ::
      (movePath.toList.map (moveToMarker ++ ·) ++ chunks.flatMap renderChunk)

/-- The lines of a patch before the end marker. -/
def renderBody (hunks : List Hunk) : List String :=
  beginPatchMarker :: hunks.flatMap renderHunk

def renderPatch (hunks : List Hunk) : String :=
  joinLines (renderBody hunks ++ [endPatchMarker])

end WeaveCodex.ApplyPatch
