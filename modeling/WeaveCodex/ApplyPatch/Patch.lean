/-
Purpose: Hunks and their paths, and the verification of a patch: the changes that are
  shown for approval before anything is written.
Trusted boundary: path URIs and the rendering of diffs are parameters
-/
import WeaveCodex.ApplyPatch.FileSystem
import WeaveCodex.ApplyPatch.FileUpdate

namespace WeaveCodex.ApplyPatch

universe u

/-- One operation of a patch; paths are spelled as in the patch. -/
inductive Hunk where
  | addFile (path contents : String)
  | deleteFile (path : String)
  | updateFile (path : String) (movePath : Option String) (chunks : List UpdateFileChunk)
deriving DecidableEq, Repr

/-- Path URIs and diff texts. -/
structure Tools (Path : Type u) where
  /-- `cwd.join(path)`, with the message of a `PathUriParseError`. -/
  join : Path → String → Except String Path
  parent : Path → Option Path
  /-- `inferred_native_path_string`. -/
  display : Path → String
  unifiedDiff : String → String → String

/-- Absolute paths as texts, and the diff of files that have one line. -/
def Tools.plain : Tools String where
  join cwd path := .ok (cwd ++ "/" ++ path)
  parent _ := some "/"
  display path := path
  unifiedDiff original new := "@@ -1 +1 @@\n-" ++ original ++ "+" ++ new

/-- `Hunk::path`: the affected path, which is the destination of a move. -/
def Hunk.path : Hunk → String
  | .addFile path _ | .deleteFile path | .updateFile _ (some path) _
  | .updateFile path none _ => path

/-- The path that `Hunk::resolve_path` resolves, which is the source of a move. -/
def Hunk.sourcePath : Hunk → String
  | .updateFile path _ _ | .addFile path _ | .deleteFile path => path

variable {Path : Type u}

def Hunk.resolvePath (tools : Tools Path) (cwd : Path) (hunk : Hunk) : Except String Path :=
  tools.join cwd hunk.sourcePath

/-- The errors of verification. -/
inductive ApplyPatchError where
  | invalidPatch (message : String)
  | ioError (context : String) (source : IoError)
  | computeReplacements (message : String)
  | pathUri (message : String)
deriving DecidableEq, Repr

def ApplyPatchError.display : ApplyPatchError → String
  | .invalidPatch message => "invalid patch: " ++ message
  | .ioError context source => context ++ ": " ++ source.message
  | .computeReplacements message | .pathUri message => message

/-- `AppliedPatch`. -/
structure AppliedPatch where
  originalContents : String
  newContents : String
deriving DecidableEq, Repr

/-- `ApplyPatchFileChange`: what an approval shows for a path. -/
inductive ApplyPatchFileChange (Path : Type u) where
  | add (content : String)
  | delete (content : String)
  | update (unifiedDiff : String) (movePath : Option Path) (newContent : String)
deriving DecidableEq, Repr

/-- The fields of `ApplyPatchArgs` that verification reads. -/
structure ApplyPatchArgs where
  patch : String
  hunks : List Hunk
  workdir : Option String := none

/-- The `changes` are a map in the order in which its keys were inserted. -/
structure ApplyPatchAction (Path : Type u) where
  changes : List (Path × ApplyPatchFileChange Path)
  updateFileMode : UpdateMode
  patch : String
  cwd : Path

section

variable [DecidableEq Path] (tools : Tools Path) (faults : Faults) (mode : UpdateMode)

/-- `derive_new_contents_from_chunks`. -/
def deriveNewContentsFromChunks (world : World Path) (path : Path)
    (chunks : List UpdateFileChunk) : Except ApplyPatchError AppliedPatch × World Path :=
  match world.readFileText faults path with
  | (.error source, world) =>
    (.error (.ioError ("Failed to read file to update " ++ tools.display path) source), world)
  | (.ok originalContents, world) =>
    match deriveNewContents mode (tools.display path) chunks originalContents with
    | .error message => (.error (.computeReplacements message), world)
    | .ok newContents => (.ok { originalContents, newContents }, world)

/-- The destination of a move, if there is one. -/
def resolveMovePath (cwd : Path) : Option String → Except ApplyPatchError (Option Path)
  | none => .ok none
  | some destination =>
    match tools.join cwd destination with
    | .error message => .error (.pathUri message)
    | .ok path => .ok (some path)

/-- The change that verification promises for a hunk. -/
def verifyHunk (cwd : Path) (world : World Path) (path : Path) :
    Hunk → Except ApplyPatchError (ApplyPatchFileChange Path) × World Path
  | .addFile _ contents => (.ok (.add contents), world)
  | .deleteFile _ =>
    match world.readFileText faults path with
    | (.error source, world) =>
      (.error (.ioError ("Failed to read " ++ tools.display path) source), world)
    | (.ok content, world) => (.ok (.delete content), world)
  | .updateFile _ movePath chunks =>
    match deriveNewContentsFromChunks tools faults mode world path chunks with
    | (.error error, world) => (.error error, world)
    | (.ok applied, world) =>
      match resolveMovePath tools cwd movePath with
      | .error error => (.error error, world)
      | .ok destination =>
        (.ok (.update (tools.unifiedDiff applied.originalContents applied.newContents)
          destination applied.newContents), world)

/-- The loop of `try_verify_apply_patch_args`. -/
def verifyHunks (cwd : Path) (changes : List (Path × ApplyPatchFileChange Path)) (world : World Path) :
    List Hunk → Except ApplyPatchError (List (Path × ApplyPatchFileChange Path))
  | [] => .ok changes
  | hunk :: hunks =>
    match hunk.resolvePath tools cwd with
    | .error message => .error (.pathUri message)
    | .ok path =>
      if path ∈ changes.map Prod.fst then
        .error (.invalidPatch ("multiple operations target " ++ tools.display path))
      else
        match verifyHunk tools faults mode cwd world path hunk with
        | (.error error, _) => .error error
        | (.ok change, world) => verifyHunks cwd (changes ++ [(path, change)]) world hunks

/-- The working directory of a patch. -/
def effectiveCwd (cwd : Path) : Option String → Except ApplyPatchError Path
  | none => .ok cwd
  | some workdir =>
    match tools.join cwd workdir with
    | .error message => .error (.pathUri message)
    | .ok path => .ok path

def tryVerifyApplyPatchArgs (args : ApplyPatchArgs) (cwd : Path) (world : World Path) :
    Except ApplyPatchError (ApplyPatchAction Path) :=
  match effectiveCwd tools cwd args.workdir with
  | .error error => .error error
  | .ok cwd =>
    match verifyHunks tools faults mode cwd [] world args.hunks with
    | .error error => .error error
    | .ok changes => .ok { changes, updateFileMode := mode, patch := args.patch, cwd }

end

end WeaveCodex.ApplyPatch
