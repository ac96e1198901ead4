/-
Purpose: What a sandbox is told of a policy: the readable and the writable roots with the
  read-only paths below them, the unreadable roots and patterns, and the signature by
  which two policies are compared; the rules of Seatbelt, and the matcher that refuses
  reads to the tools.
Trusted boundary: translation of `protocol/src/permissions.rs`, of `WritableRoot` in
  `protocol/src/protocol.rs` and of the file rules in `sandboxing/src/seatbelt.rs` on Unix
-/
import Mathlib.Data.List.Destutter
import WeaveCodex.ApplyPatch.TextFile
import WeaveCodex.Permissions.Policy

namespace WeaveCodex.Permissions

open Library.KeySort String
open Paths

/-! ### Effective paths -/

/-- The nearest ancestor that exists is replaced by its canonical form. -/
def normalizeEffectiveAbsolutePath (fileSystem : FileSystem) (path : AbsolutePathBuf) :
    AbsolutePathBuf :=
  match path.ancestors.find? fun ancestor => (fileSystem.symlinkMetadata ancestor).isSome with
  | some ancestor => path.rebase ancestor (canonicalizePreservingSymlinks fileSystem ancestor)
  | none => path

/-- `dedup_absolute_paths` without normalisation. -/
def dedupAbsolutePaths (paths : List AbsolutePathBuf) : List AbsolutePathBuf :=
  unseen [] paths

/-- `dedup_absolute_paths` with normalisation. -/
def dedupEffectivePaths (fileSystem : FileSystem) (paths : List AbsolutePathBuf) :
    List AbsolutePathBuf :=
  dedupAbsolutePaths (paths.map (normalizeEffectiveAbsolutePath fileSystem))

/-! ### Writable roots -/

structure WritableRoot where
  root : AbsolutePathBuf
  readOnlySubpaths : List AbsolutePathBuf
  protectedMetadataNames : List MetadataName
deriving DecidableEq

namespace WritableRoot

def pathContainsProtectedMetadataName (writableRoot : WritableRoot) (path : AbsolutePathBuf) :
    Bool :=
  match (path.strip writableRoot.root).bind List.head? with
  | none => false
  | some firstComponent =>
    writableRoot.protectedMetadataNames.any fun name => firstComponent = name.text

def isPathWritable (writableRoot : WritableRoot) (path : AbsolutePathBuf) : Bool :=
  if !path.startsWith writableRoot.root then false
  else if writableRoot.readOnlySubpaths.any fun subpath => path.startsWith subpath then false
  else !writableRoot.pathContainsProtectedMetadataName path

end WritableRoot

/-- The directory that a pointer file names, if it exists. -/
def resolveGitdirFromFile (host : Host) (dotGit : AbsolutePathBuf) : Option AbsolutePathBuf := do
  let contents ← host.fileSystem.readToString dotGit
  let (key, gitdir) ← ApplyPatch.splitOnce ":" (ApplyPatch.trim contents)
  if ApplyPatch.trim key ≠ "gitdir" then none
  else
    let gitdirRaw := ApplyPatch.trim gitdir
    if gitdirRaw = "" then none
    else
      let base ← dotGit.parent
      let gitdirPath := resolvePathAgainstBase host.env (Path.new gitdirRaw) base
      if host.fileSystem.exists gitdirPath then some gitdirPath else none

/-- The metadata that is protected because it exists, and `.codex` in the workspace. -/
def defaultReadOnlySubpathsForWritableRoot (host : Host) (writableRoot : AbsolutePathBuf)
    (protectMissingDotCodex : Bool) : List AbsolutePathBuf :=
  let topLevelGit := metadataPath writableRoot .git
  let topLevelAgents := metadataPath writableRoot .agents
  let topLevelCodex := metadataPath writableRoot .codex
  let isFile := host.fileSystem.isFile topLevelGit
  let gitdir := if isFile then (resolveGitdirFromFile host topLevelGit).toList else []
  let git :=
    if host.fileSystem.isDir topLevelGit || isFile then gitdir ++ [topLevelGit] else []
  let agents := if host.fileSystem.isDir topLevelAgents then [topLevelAgents] else []
  let codex :=
    if protectMissingDotCodex || host.fileSystem.isDir topLevelCodex then [topLevelCodex] else []
  dedupAbsolutePaths (git ++ agents ++ codex)

def hasExplicitResolvedPathEntry (entries : List ResolvedFileSystemEntry)
    (path : AbsolutePathBuf) : Bool :=
  entries.any fun entry => entry.path = path

/-- The place below the root of a path that lies below a raw root. -/
def carveoutBelow (host : Host) (root entryPath rawRoot : AbsolutePathBuf) : Option AbsolutePathBuf :=
  match entryPath.strip rawRoot with
  | none | some [] => none
  | some suffix =>
    some (resolvePathAgainstBase host.env { isAbsolute := false, components := suffix } root)

/-- The path below a root by which a sandbox masks a narrower entry, if it lies there. -/
def carveoutPath (host : Host) (root : AbsolutePathBuf) (rawWritableRoots : List AbsolutePathBuf)
    (entryPath : AbsolutePathBuf) : Option AbsolutePathBuf :=
  let rawCarveoutPath :=
    if root.parent.isSome then
      if entryPath = root then none
      else if entryPath.startsWith root then some entryPath
      else rawWritableRoots.findSome? (carveoutBelow host root entryPath)
    else none
  match rawCarveoutPath with
  | some path => some path
  | none =>
    let effectivePath := normalizeEffectiveAbsolutePath host.fileSystem entryPath
    if effectivePath = root || !effectivePath.startsWith root then none else some effectivePath

/-! ### Roots of a policy -/

namespace FileSystemSandboxPolicy

variable (host : Host) (policy : FileSystemSandboxPolicy) (cwd : Path)

def getReadableRootsWithCwd : List AbsolutePathBuf :=
  if policy.hasFullDiskReadAccess then []
  else
    dedupEffectivePaths host.fileSystem <|
      (((policy.resolvedEntriesWithCwd host cwd).filter fun entry => entry.access.canRead).filter
        fun entry => policy.canReadPathWithCwd host entry.path.asPath cwd).map (·.path)

/-- The paths of the writable entries that are writable. -/
def writableEntries : List AbsolutePathBuf :=
  (((policy.resolvedEntriesWithCwd host cwd).filter fun entry => entry.access.canWrite).filter
    fun entry => policy.canWritePathWithCwd host entry.path.asPath cwd).map (·.path)

def protectedMetadataNamesForWritableRoot (root : AbsolutePathBuf)
    (rawWritableRoots : List AbsolutePathBuf) : List MetadataName :=
  protectedMetadataPathNames.filter fun name =>
    (root :: rawWritableRoots).all fun path =>
      !policy.canWritePathWithCwd host (metadataPath path name).asPath cwd

def writableRootFor (root : AbsolutePathBuf) : WritableRoot :=
  let resolvedEntries := policy.resolvedEntriesWithCwd host cwd
  let rawWritableRoots := (policy.writableEntries host cwd).filter fun path =>
    normalizeEffectiveAbsolutePath host.fileSystem path = root
  let protectMissingDotCodex := ((fromAbsolutePath host.env cwd).map fun cwd =>
    normalizeEffectiveAbsolutePath host.fileSystem cwd) = some root
  let defaults :=
    (defaultReadOnlySubpathsForWritableRoot host root protectMissingDotCodex).filter fun path =>
      !hasExplicitResolvedPathEntry resolvedEntries path
  let carveouts :=
    ((resolvedEntries.filter fun entry => !entry.access.canWrite).filter fun entry =>
      !policy.canWritePathWithCwd host entry.path.asPath cwd).filterMap fun entry =>
        carveoutPath host root rawWritableRoots entry.path
  { root
    readOnlySubpaths := dedupAbsolutePaths (defaults ++ carveouts)
    protectedMetadataNames :=
      policy.protectedMetadataNamesForWritableRoot host cwd root rawWritableRoots }

def getWritableRootsWithCwd : List WritableRoot :=
  if policy.hasFullDiskWriteAccess then []
  else
    (dedupEffectivePaths host.fileSystem (policy.writableEntries host cwd)).map
      (policy.writableRootFor host cwd)

def getUnreadableRootsWithCwd : List AbsolutePathBuf :=
  match policy.kind with
  | .restricted =>
    let root := (fromAbsolutePath host.env cwd).map absoluteRootPathForCwd
    dedupEffectivePaths host.fileSystem <|
      ((((policy.resolvedEntriesWithCwd host cwd).filter fun entry => entry.access = .deny).filter
        fun entry => !policy.canReadPathWithCwd host entry.path.asPath cwd).filter
          fun entry => root ≠ some entry.path).map (·.path)
  | _ => []

end FileSystemSandboxPolicy

/-- The text of a path that was resolved against a base that may be relative. -/
def resolvedText (env : ProcessEnv) (path base : Path) : String :=
  let expanded := maybeExpandHomeDirectory env path
  let isAbsolute := expanded.isAbsolute || base.isAbsolute
  let components :=
    (if expanded.isAbsolute then expanded.components
      else base.components ++ expanded.components).foldl pushComponent []
  if isAbsolute then "/" ++ intercalate "/" components
  else if components = [] then "."
  else intercalate "/" components

namespace FileSystemSandboxPolicy

variable (host : Host) (policy : FileSystemSandboxPolicy) (cwd : Path)

def getUnreadableGlobsWithCwd : List String :=
  match policy.kind with
  | .restricted =>
    let patterns := (policy.entries.filter fun entry => entry.access = .deny).filterMap fun entry =>
        match entry.path with
        | .globPattern pattern => some (resolvedText host.env (Path.new pattern) cwd)
        | _ => none
    (sortByKey id patterns).destutter (· ≠ ·)
  | _ => []

end FileSystemSandboxPolicy

/-! ### Comparing policies -/

def sortedAbsolutePaths (paths : List AbsolutePathBuf) : List AbsolutePathBuf :=
  sortByKey AbsolutePathBuf.components paths

/-- One turn of the loop of `sorted_writable_roots`. -/
def WritableRoot.withSortedParts (writableRoot : WritableRoot) : WritableRoot :=
  { writableRoot with
    readOnlySubpaths := sortedAbsolutePaths writableRoot.readOnlySubpaths
    protectedMetadataNames :=
      (sortByKey MetadataName.text writableRoot.protectedMetadataNames).destutter (· ≠ ·) }

def sortedWritableRoots (roots : List WritableRoot) : List WritableRoot :=
  sortByKey (fun writableRoot => writableRoot.root.components) (roots.map WritableRoot.withSortedParts)

structure FileSystemSemanticSignature where
  hasFullDiskReadAccess : Bool
  hasFullDiskWriteAccess : Bool
  includePlatformDefaults : Bool
  readableRoots : List AbsolutePathBuf
  writableRoots : List WritableRoot
  unreadableRoots : List AbsolutePathBuf
  unreadableGlobs : List String
deriving DecidableEq

namespace FileSystemSandboxPolicy

variable (host : Host) (policy : FileSystemSandboxPolicy) (cwd : Path)

def semanticSignature : FileSystemSemanticSignature :=
  { hasFullDiskReadAccess := policy.hasFullDiskReadAccess
    hasFullDiskWriteAccess := policy.hasFullDiskWriteAccess
    includePlatformDefaults := policy.includePlatformDefaults
    readableRoots := sortedAbsolutePaths (policy.getReadableRootsWithCwd host cwd)
    writableRoots := sortedWritableRoots (policy.getWritableRootsWithCwd host cwd)
    unreadableRoots := sortedAbsolutePaths (policy.getUnreadableRootsWithCwd host cwd)
    unreadableGlobs := policy.getUnreadableGlobsWithCwd host cwd }

def isSemanticallyEquivalentTo (other : FileSystemSandboxPolicy) : Bool :=
  policy.semanticSignature host cwd = other.semanticSignature host cwd

end FileSystemSandboxPolicy

/-! ### Seatbelt and tools -/

/-- A root that Seatbelt opens, without the subpaths and the metadata that it excludes. -/
structure SeatbeltAccessRoot where
  root : AbsolutePathBuf
  excludedSubpaths : List AbsolutePathBuf
  protectedMetadataNames : List MetadataName := []

variable (fileSystem : FileSystem)

def normalizePathForSandbox (path : AbsolutePathBuf) :
    AbsolutePathBuf :=
  (fileSystem.canonicalize path).getD path

/-- What the rule says that `build_seatbelt_access_policy` writes for a root; the pattern for a
metadata name matches its path below the root and what lies below that. -/
def SeatbeltAccessRoot.allows (accessRoot : SeatbeltAccessRoot) (path : AbsolutePathBuf) : Bool :=
  let root := normalizePathForSandbox fileSystem accessRoot.root
  path.startsWith root &&
    (accessRoot.excludedSubpaths.all fun excludedSubpath =>
      !path.startsWith (normalizePathForSandbox fileSystem excludedSubpath)) &&
    accessRoot.protectedMetadataNames.all fun name => !path.startsWith (metadataPath root name)

/-- The lexical form of a path, and the canonical one if it exists. -/
def normalizedAndCanonicalCandidates (path : AbsolutePathBuf) : List AbsolutePathBuf :=
  dedupAbsolutePaths (path :: (fileSystem.canonicalize path).toList)

structure ReadDenyMatcher where
  deniedCandidates : List (List AbsolutePathBuf)
  denyReadMatchers : List (AbsolutePathBuf → Bool)
  invalidPattern : Bool

namespace ReadDenyMatcher

/-- `buildGlobMatcher` fails on a malformed pattern. -/
def new (host : Host) (buildGlobMatcher : String → Option (AbsolutePathBuf → Bool))
    (policy : FileSystemSandboxPolicy) (cwd : Path) : Option ReadDenyMatcher :=
  if !policy.hasDeniedReadRestrictions then none
  else
    let matchers := (policy.getUnreadableGlobsWithCwd host cwd).map buildGlobMatcher
    some
      { deniedCandidates := (policy.getUnreadableRootsWithCwd host cwd).map
          (normalizedAndCanonicalCandidates host.fileSystem)
        denyReadMatchers := matchers.filterMap id
        invalidPattern := matchers.any Option.isNone }

def isReadDenied (fileSystem : FileSystem) (matcher : ReadDenyMatcher) (path : AbsolutePathBuf) :
    Bool :=
  if matcher.invalidPattern then true
  else
    let pathCandidates := normalizedAndCanonicalCandidates fileSystem path
    if matcher.deniedCandidates.any fun deniedCandidates =>
        pathCandidates.any fun candidate =>
          deniedCandidates.any fun deniedCandidate =>
            candidate = deniedCandidate || candidate.startsWith deniedCandidate then true
    else matcher.denyReadMatchers.any fun isMatch => pathCandidates.any isMatch

end ReadDenyMatcher

namespace FileSystemSandboxPolicy

variable (host : Host) (policy : FileSystemSandboxPolicy) (cwd : Path)

/-- `file_read_policy` of `create_seatbelt_command_args`; a rule without a condition opens `/`. -/
def seatbeltReadRoots : List SeatbeltAccessRoot :=
  let unreadableRoots := policy.getUnreadableRootsWithCwd host cwd
  if policy.hasFullDiskReadAccess then [{ root := .root, excludedSubpaths := unreadableRoots }]
  else (policy.getReadableRootsWithCwd host cwd).map fun root =>
    { root, excludedSubpaths := unreadableRoots.filter fun path => path.startsWith root }

/-- `protected_metadata_names_for_writable_root` of Seatbelt. -/
def seatbeltMetadataNames (writableRoot : WritableRoot) : List MetadataName :=
  protectedMetadataPathNames.foldl (fun names name =>
    if name ∈ names then names
    else if policy.canWritePathWithCwd host (metadataPath writableRoot.root name).asPath cwd then names
    else names ++ [name]) writableRoot.protectedMetadataNames

/-- `file_write_policy`, likewise. -/
def seatbeltWriteRoots : List SeatbeltAccessRoot :=
  if policy.hasFullDiskWriteAccess then
    [{ root := .root, excludedSubpaths := policy.getUnreadableRootsWithCwd host cwd }]
  else (policy.getWritableRootsWithCwd host cwd).map fun writableRoot =>
    { root := writableRoot.root
      excludedSubpaths := writableRoot.readOnlySubpaths
      protectedMetadataNames := policy.seatbeltMetadataNames host cwd writableRoot }

end FileSystemSandboxPolicy

end WeaveCodex.Permissions
