/-
Purpose: File-system sandbox policies: how entries are resolved to paths, which entry
  decides about a path, and the exception for the metadata of a workspace.
Trusted boundary: translation of `protocol/src/permissions.rs` on Unix; the home directory, the
  current directory, `TMPDIR` and the file system do not change while a policy is read
-/
import Mathlib.Data.Prod.Lex
import WeaveCodex.Library.KeySort
import WeaveCodex.Paths.FileSystem

namespace WeaveCodex.Permissions

open Library.KeySort
open Paths

/-! ### Policies -/

inductive FileSystemAccessMode where
  | read | write | deny
deriving DecidableEq, Repr

namespace FileSystemAccessMode

/-- The order of the constructors. -/
def precedence : FileSystemAccessMode → Nat
  | .read => 0
  | .write => 1
  | .deny => 2

theorem precedence_injective : Function.Injective precedence := by
  intro first second same
  cases first <;> cases second <;> simp_all [precedence]

instance : LinearOrder FileSystemAccessMode :=
  LinearOrder.lift' precedence precedence_injective

def canRead (access : FileSystemAccessMode) : Bool :=
  access ≠ .deny

def canWrite (access : FileSystemAccessMode) : Bool :=
  access = .write

end FileSystemAccessMode

inductive FileSystemSpecialPath where
  | root | minimal
  | projectRoots (subpath : Option String)
  | tmpdir | slashTmp
  | unknown (path : String) (subpath : Option String)
deriving DecidableEq, Repr

inductive FileSystemPath where
  | path (path : AbsolutePathBuf)
  | globPattern (pattern : String)
  | special (value : FileSystemSpecialPath)
deriving DecidableEq

structure FileSystemSandboxEntry where
  path : FileSystemPath
  access : FileSystemAccessMode
deriving DecidableEq

inductive FileSystemSandboxKind where
  | restricted | unrestricted | externalSandbox
deriving DecidableEq, Repr

structure FileSystemSandboxPolicy where
  kind : FileSystemSandboxKind
  entries : List FileSystemSandboxEntry
deriving DecidableEq

/-- `FileSystemSandboxPolicy::restricted`. -/
def FileSystemSandboxPolicy.restricted (entries : List FileSystemSandboxEntry) :
    FileSystemSandboxPolicy :=
  { kind := .restricted, entries }

/-! ### Metadata names -/

/-- The names of `PROTECTED_METADATA_PATH_NAMES`. -/
inductive MetadataName where
  | git | agents | codex
deriving DecidableEq, Repr

namespace MetadataName

def text : MetadataName → String
  | .git => ".git"
  | .agents => ".agents"
  | .codex => ".codex"

theorem isNormal_text (name : MetadataName) : IsNormal name.text := by
  cases name <;> decide

end MetadataName

def protectedMetadataPathNames : List MetadataName :=
  [.git, .agents, .codex]

theorem mem_protectedMetadataPathNames (name : MetadataName) : name ∈ protectedMetadataPathNames := by
  cases name <;> decide

/-- `metadata_path_name`. -/
def metadataPathName (component : String) : Option MetadataName :=
  protectedMetadataPathNames.find? fun name => component = name.text

theorem metadataPathName_eq_some {component : String} {name : MetadataName} :
    metadataPathName component = some name ↔ component = name.text := by
  constructor
  · intro found
    simpa using List.find?_some found
  · rintro rfl
    cases name <;> decide

/-- `path.join(metadata_name)`. -/
def metadataPath (path : AbsolutePathBuf) (name : MetadataName) : AbsolutePathBuf :=
  path.child name.text name.isNormal_text

/-! ### Full access -/

def specialPathsShareTarget : FileSystemSpecialPath → FileSystemSpecialPath → Bool
  | .root, .root | .minimal, .minimal | .tmpdir, .tmpdir | .slashTmp, .slashTmp => true
  | .projectRoots left, .projectRoots right => left = right
  | .unknown left leftSubpath, .unknown right rightSubpath =>
    left = right && leftSubpath = rightSubpath
  | _, _ => false

/-- `/tmp`. -/
def slashTmpPath : AbsolutePathBuf :=
  AbsolutePathBuf.root.child "tmp" (by decide)

def specialPathMatchesAbsolutePath (value : FileSystemSpecialPath) (path : AbsolutePathBuf) :
    Bool :=
  match value with
  | .root => path.parent.isNone
  | .slashTmp => path = slashTmpPath
  | _ => false

def fileSystemPathsShareTarget : FileSystemPath → FileSystemPath → Bool
  | .path left, .path right => left = right
  | .special left, .special right => specialPathsShareTarget left right
  | .path path, .special value
  | .special value, .path path => specialPathMatchesAbsolutePath value path
  | .globPattern left, .globPattern right => left = right
  | _, _ => false

namespace FileSystemSandboxPolicy

variable (policy : FileSystemSandboxPolicy)

def hasRootAccess (predicate : FileSystemAccessMode → Bool) : Bool :=
  policy.kind = .restricted && policy.entries.any fun entry =>
    entry.path = .special .root && predicate entry.access

def hasDeniedReadRestrictions : Bool :=
  policy.kind = .restricted && policy.entries.any fun entry => entry.access = .deny

def hasSameTargetWriteOverride (entry : FileSystemSandboxEntry) : Bool :=
  policy.entries.any fun candidate =>
    candidate.access.canWrite && decide (entry.access < candidate.access) &&
      fileSystemPathsShareTarget candidate.path entry.path

/-- Whether an entry reduces a grant for the whole disk. -/
def narrowsWrite (entry : FileSystemSandboxEntry) : Bool :=
  if entry.access.canWrite then false
  else
    match entry.path with
    | .path _ => !policy.hasSameTargetWriteOverride entry
    | .globPattern _ => true
    | .special .root => entry.access = .deny
    | .special .minimal | .special (.unknown _ _) => false
    | .special _ => !policy.hasSameTargetWriteOverride entry

def hasWriteNarrowingEntries : Bool :=
  policy.kind = .restricted && policy.entries.any policy.narrowsWrite

def hasFullDiskReadAccess : Bool :=
  match policy.kind with
  | .unrestricted | .externalSandbox => true
  | .restricted =>
    policy.hasRootAccess FileSystemAccessMode.canRead && !policy.hasDeniedReadRestrictions

def hasFullDiskWriteAccess : Bool :=
  match policy.kind with
  | .unrestricted | .externalSandbox => true
  | .restricted =>
    policy.hasRootAccess FileSystemAccessMode.canWrite && !policy.hasWriteNarrowingEntries

def includePlatformDefaults : Bool :=
  !policy.hasFullDiskReadAccess && policy.kind = .restricted && policy.entries.any fun entry =>
    entry.path = .special .minimal && entry.access.canRead

end FileSystemSandboxPolicy

/-! ### Resolved entries -/

/-- What the functions read of the machine. -/
structure Host where
  env : ProcessEnv := {}
  tmpdir : Option String := none
  fileSystem : FileSystem

structure ResolvedFileSystemEntry where
  path : AbsolutePathBuf
  access : FileSystemAccessMode
deriving DecidableEq

variable (host : Host) (cwd : Option AbsolutePathBuf) (entries : List ResolvedFileSystemEntry)
  (target : AbsolutePathBuf)

def resolveFileSystemSpecialPath : FileSystemSpecialPath → Option AbsolutePathBuf
  | .root | .minimal | .unknown _ _ => none
  | .projectRoots none => cwd
  | .projectRoots (some subpath) =>
    cwd.map fun base => resolvePathAgainstBase host.env (Path.new subpath) base
  | .tmpdir =>
    match host.tmpdir with
    | none => none
    | some tmpdir => if tmpdir = "" then none else fromAbsolutePath host.env (Path.new tmpdir)
  | .slashTmp => if host.fileSystem.isDir slashTmpPath then some slashTmpPath else none

def resolveFileSystemPath : FileSystemPath → Option AbsolutePathBuf
  | .path path => some path
  | .globPattern _ => none
  | .special value => resolveFileSystemSpecialPath host cwd value

/-- The root of the current directory is `/` on Unix. -/
def absoluteRootPathForCwd (_cwd : AbsolutePathBuf) : AbsolutePathBuf :=
  .root

def resolveEntryPath (path : FileSystemPath) : Option AbsolutePathBuf :=
  match path with
  | .special .root => cwd.map absoluteRootPathForCwd
  | _ => resolveFileSystemPath host cwd path

def resolveEntry (entry : FileSystemSandboxEntry) : Option ResolvedFileSystemEntry :=
  (resolveEntryPath host cwd entry.path).map fun path => { path, access := entry.access }

def resolveCandidatePath (path cwd : Path) : Option AbsolutePathBuf :=
  if path.isAbsolute then fromAbsolutePath host.env path
  else (fromAbsolutePath host.env cwd).map (resolvePathAgainstBase host.env path)

@[simp] theorem resolveCandidatePath_asPath (path : AbsolutePathBuf) (cwd : Path) :
    resolveCandidatePath host path.asPath cwd = some path := by
  rw [resolveCandidatePath, if_pos (by rfl), fromAbsolutePath_asPath]

/-- `resolved_entry_precedence`: the deeper path first, then the access. -/
def resolvedEntryPrecedence (entry : ResolvedFileSystemEntry) : Nat ×ₗ FileSystemAccessMode :=
  toLex (entry.path.depth, entry.access)

/-- The access of the entry that decides about a resolved path. -/
def decidingAccess (path : AbsolutePathBuf) :
    FileSystemAccessMode :=
  match maxByKey resolvedEntryPrecedence (entries.filter fun entry => path.startsWith entry.path) with
  | some entry => entry.access
  | none => .deny

/-! ### Metadata below a writable entry -/

/-- What a writable entry protects of a path below it. -/
def metadataChildOf (entry : ResolvedFileSystemEntry) (target : AbsolutePathBuf) :
    Option (AbsolutePathBuf × MetadataName) := do
  let relativePath ← target.strip entry.path
  let firstComponent ← relativePath.head?
  let metadataName ← metadataPathName firstComponent
  return (metadataPath entry.path metadataName, metadataName)

/-- The first writable entry with such a child answers. -/
def metadataChildOfWritableRoot : Option (AbsolutePathBuf × MetadataName) :=
  (entries.filter fun entry => entry.access.canWrite).findSome? fun entry =>
    metadataChildOf entry target

def hasExplicitWriteEntryForMetadataPath (protectedMetadataPath target : AbsolutePathBuf) : Bool :=
  entries.any fun entry =>
    entry.access.canWrite && target.startsWith entry.path && entry.path.startsWith protectedMetadataPath

/-- `is_metadata_write_denied` of a resolved path in a restricted policy. -/
def metadataDenied : Bool :=
  match metadataChildOfWritableRoot entries target with
  | none => false
  | some (protectedMetadataPath, _) =>
    !hasExplicitWriteEntryForMetadataPath entries protectedMetadataPath target

/-! ### What a policy allows -/

namespace FileSystemSandboxPolicy

variable (host : Host) (policy : FileSystemSandboxPolicy)

def resolvedEntriesWithCwd (cwd : Path) : List ResolvedFileSystemEntry :=
  policy.entries.filterMap (resolveEntry host (fromAbsolutePath host.env cwd))

variable (path cwd : Path)

def resolveAccessWithCwd : FileSystemAccessMode :=
  match policy.kind with
  | .unrestricted | .externalSandbox => .write
  | .restricted =>
    match resolveCandidatePath host path cwd with
    | none => .deny
    | some path => decidingAccess (policy.resolvedEntriesWithCwd host cwd) path

def canReadPathWithCwd : Bool :=
  (policy.resolveAccessWithCwd host path cwd).canRead

def isMetadataWriteDenied : Bool :=
  match policy.kind with
  | .restricted =>
    match resolveCandidatePath host path cwd with
    | none => true
    | some target => metadataDenied (policy.resolvedEntriesWithCwd host cwd) target
  | _ => false

def canWritePathWithCwd : Bool :=
  if !(policy.resolveAccessWithCwd host path cwd).canWrite then false
  else if policy.hasFullDiskWriteAccess then true
  else !policy.isMetadataWriteDenied host path cwd

end FileSystemSandboxPolicy

end WeaveCodex.Permissions
