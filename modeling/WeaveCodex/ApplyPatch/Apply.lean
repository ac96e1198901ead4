/-
Purpose: `apply_hunks_to_files`: the hunks are written to the file system one after the
  other, and a delta records what was committed and whether the record is exact.
Trusted boundary: an error is the text that `to_string` shows
-/
import WeaveCodex.ApplyPatch.Patch
import WeaveCodex.Library.EarlyExit

namespace WeaveCodex.ApplyPatch

open Library.EarlyExit

universe u

/-- A committed change. -/
inductive AppliedPatchFileChange (Path : Type u) where
  | add (content : String) (overwrittenContent : Option String)
  | delete (content : String)
  | update (movePath : Option Path) (oldContent : String)
      (overwrittenMoveContent : Option String) (newContent : String)
deriving DecidableEq, Repr

structure AppliedPatchChange (Path : Type u) where
  path : Path
  change : AppliedPatchFileChange Path
deriving DecidableEq, Repr

structure AppliedPatchDelta (Path : Type u) where
  changes : List (AppliedPatchChange Path) := []
  exact : Bool := true
deriving DecidableEq, Repr

/-- The state of the loop over the hunks. -/
structure Application (Path : Type u) where
  world : World Path
  delta : AppliedPatchDelta Path := {}
  added : List String := []
  modified : List String := []
  deleted : List String := []

namespace Application

variable {Path : Type u} (application : Application Path) (path : String)

def setWorld (world : World Path) : Application Path :=
  { application with world }

/-- `delta.exact &= flag`. -/
def keepExact (flag : Bool) : Application Path :=
  { application with
    delta := { application.delta with exact := application.delta.exact && flag } }

/-- `delta.changes.push(..)`. -/
def record (path : Path) (change : AppliedPatchFileChange Path) : Application Path :=
  { application with
    delta := { application.delta with
      changes := application.delta.changes ++ [{ path, change }] } }

/-- `delta.changes[index] = ..`. -/
def amend (index : Nat) (path : Path) (change : AppliedPatchFileChange Path) : Application Path :=
  { application with
    delta := { application.delta with
      changes := application.delta.changes.set index { path, change } } }

def noteAdded : Application Path :=
  { application with added := application.added ++ [path] }

def noteModified : Application Path :=
  { application with modified := application.modified ++ [path] }

def noteDeleted : Application Path :=
  { application with deleted := application.deleted ++ [path] }

end Application

section

variable {Path : Type u} [DecidableEq Path] (tools : Tools Path) (faults : Faults) (mode : UpdateMode)

/-! ### The helpers -/

variable (world : World Path) (cwd : Path) (application : Application Path) (path : Path)
  (affected : String)

def ensureNotDirectory : Except IoError Unit × World Path :=
  match world.getMetadata faults path with
  | (.error error, world) => (.error error, world)
  | (.ok metadata, world) =>
    if metadata.isDirectory then
      (.error { kind := .invalidInput, message := "path is a directory" }, world)
    else (.ok (), world)

def removeFailureWasSideEffectFree (expectedContent : Option String) : Bool × World Path :=
  match expectedContent with
  | none => (false, world)
  | some expected =>
    match world.readFileText faults path with
    | (.error _, world) => (false, world)
    | (.ok content, world) => (content = expected, world)

/-- The path is a regular file, or there is nothing. -/
def supportsDelta : Except IoError Metadata → Bool
  | .ok metadata => metadata.isFile && !metadata.isSymlink
  | .error error => error.kind = .notFound

def noteExistingPathDeltaSupport : Application Path :=
  let (result, world) := application.world.getMetadata faults path
  (application.setWorld world).keepExact (supportsDelta result)

/-- The text that was read, or `None`, and whether the delta stays exact. -/
def optionalText : Except IoError String → Option String × Bool
  | .ok content => (some content, true)
  | .error error => (none, error.kind = .notFound)

def readOptionalFileTextForDelta : Option String × Application Path :=
  let application := noteExistingPathDeltaSupport faults application path
  let (result, world) := application.world.readFileText faults path
  let (text, flag) := optionalText result
  (text, (application.setWorld world).keepExact flag)

/-- The second write, after the parent directories have been created. -/
def retryWrite (contents : String) : Except String Unit × World Path :=
  match world.writeFile faults path contents with
  | (.ok (), world) => (.ok (), world)
  | (.error _, world) => (.error ("Failed to write file " ++ tools.display path), world)

def writeFileWithMissingParentRetry (contents : String) : Except String Unit × World Path :=
  match world.writeFile faults path contents with
  | (.ok (), world) => (.ok (), world)
  | (.error error, world) =>
    if error.kind = .notFound then
      match tools.parent path with
      | none => retryWrite tools faults world path contents
      | some _ =>
        match world.createDirectory faults with
        | (.error _, world) =>
          (.error ("Failed to create parent directories for " ++ tools.display path), world)
        | (.ok (), world) => retryWrite tools faults world path contents
    else (.error ("Failed to write file " ++ tools.display path), world)

/-! ### The hunks -/

def applyAdd (affected contents : String) : Flow (Application Path) :=
  let (overwrittenContent, application) := readOptionalFileTextForDelta faults application path
  match writeFileWithMissingParentRetry tools faults application.world path contents with
  | (.error message, world) => .raised message ((application.setWorld world).keepExact false)
  | (.ok (), world) =>
    .next (((application.setWorld world).record path (.add contents overwrittenContent)).noteAdded
      affected)

/-- The part of a deletion after the content has been read. -/
def removeDeleted (deletedContent : Option String) : Flow (Application Path) :=
  let failure := "Failed to delete file " ++ tools.display path
  match ensureNotDirectory faults application.world path with
  | (.error _, world) => .raised failure (application.setWorld world)
  | (.ok (), world) =>
    match world.remove faults path with
    | (.error _, world) =>
      let (free, world) := removeFailureWasSideEffectFree faults world path deletedContent
      .raised failure ((application.setWorld world).keepExact free)
    | (.ok (), world) =>
      let removed := application.setWorld world
      match deletedContent with
      | none => .next (removed.noteDeleted affected)
      | some content => .next ((removed.record path (.delete content)).noteDeleted affected)

def applyDelete : Flow (Application Path) :=
  let noted := noteExistingPathDeltaSupport faults application path
  let (result, world) := noted.world.readFileText faults path
  let deletedContent := result.toOption
  removeDeleted tools faults ((noted.setWorld world).keepExact deletedContent.isSome) path affected
    deletedContent

def writeUpdate (applied : AppliedPatch) : Flow (Application Path) :=
  match application.world.writeFile faults path applied.newContents with
  | (.error _, world) =>
    .raised ("Failed to write file " ++ tools.display path)
      ((application.setWorld world).keepExact false)
  | (.ok (), world) =>
    .next (((application.setWorld world).record path
      (.update none applied.originalContents none applied.newContents)).noteModified affected)

/-- The part of a move after the destination has been written. -/
def removeOriginal (path destination : Path)
    (affected : String) (applied : AppliedPatch) (overwrittenMoveContent : Option String)
    (index : Nat) : Flow (Application Path) :=
  let failure := "Failed to remove original " ++ tools.display path
  match ensureNotDirectory faults application.world path with
  | (.error _, world) => .raised failure (application.setWorld world)
  | (.ok (), world) =>
    match world.remove faults path with
    | (.error _, world) =>
      let (free, world) :=
        removeFailureWasSideEffectFree faults world path (some applied.originalContents)
      .raised failure ((application.setWorld world).keepExact free)
    | (.ok (), world) =>
      .next (((application.setWorld world).amend index path
        (.update (some destination) applied.originalContents overwrittenMoveContent
          applied.newContents)).noteModified affected)

def moveUpdate (path destination : Path) (affected : String)
    (applied : AppliedPatch) : Flow (Application Path) :=
  let (overwrittenMoveContent, application) :=
    readOptionalFileTextForDelta faults application destination
  match writeFileWithMissingParentRetry tools faults application.world destination
      applied.newContents with
  | (.error message, world) => .raised message ((application.setWorld world).keepExact false)
  | (.ok (), world) =>
    removeOriginal tools faults ((application.setWorld world).record destination
        (.add applied.newContents overwrittenMoveContent))
      path destination affected applied overwrittenMoveContent application.delta.changes.length

def applyUpdate (movePath : Option String) (chunks : List UpdateFileChunk) : Flow (Application Path) :=
  let noted := noteExistingPathDeltaSupport faults application path
  match deriveNewContentsFromChunks tools faults mode noted.world path chunks with
  | (.error error, world) => .raised error.display (noted.setWorld world)
  | (.ok applied, world) =>
    match movePath with
    | none => writeUpdate tools faults (noted.setWorld world) path affected applied
    | some destination =>
      match tools.join cwd destination with
      | .error message => .raised message (noted.setWorld world)
      | .ok destination =>
        moveUpdate tools faults (noted.setWorld world) path destination affected applied

/-- One pass of the loop of `apply_hunks_to_files`. -/
def applyHunk (hunk : Hunk) : Flow (Application Path) :=
  match hunk.resolvePath tools cwd with
  | .error message => .raised message application
  | .ok path =>
    match hunk with
    | .addFile _ contents => applyAdd tools faults application path hunk.path contents
    | .deleteFile _ => applyDelete tools faults application path hunk.path
    | .updateFile _ movePath chunks =>
      applyUpdate tools faults mode cwd application path hunk.path movePath chunks

def applyHunksToFiles (hunks : List Hunk) (cwd : Path) (world : World Path) :
    Ending (Application Path) :=
  if hunks = [] then .raised "No files were modified." { world }
  else loop (applyHunk tools faults mode cwd) hunks { world }

end

end WeaveCodex.ApplyPatch
