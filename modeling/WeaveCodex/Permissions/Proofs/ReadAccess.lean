/-
Purpose: What a policy lets be read: the roots that a sandbox is told and the rules of
  Seatbelt let exactly that through, and the matcher of the tools refuses whole
  directories.
-/
import WeaveCodex.Permissions.Proofs.DecidingEntry
import WeaveCodex.Permissions.Proofs.EffectivePaths

namespace WeaveCodex.Permissions

open Library.KeySort
open Paths AbsolutePathBuf FileSystemSandboxPolicy FileSystemAccessMode List

variable {host : Host} {policy : FileSystemSandboxPolicy} {path root : AbsolutePathBuf}

/-! ### Roots -/

section Roots

variable {cwd : Path} {entry : ResolvedFileSystemEntry}

theorem mem_resolvedEntriesWithCwd : entry ∈ policy.resolvedEntriesWithCwd host cwd ↔
    ∃ raw ∈ policy.entries, raw.access = entry.access ∧
      resolveEntryPath host (fromAbsolutePath host.env cwd) raw.path = some entry.path := by
  simp only [resolvedEntriesWithCwd, mem_filterMap, resolveEntry, Option.map_eq_some_iff]
  constructor
  · rintro ⟨raw, mem, _, resolved, rfl⟩
    exact ⟨raw, mem, rfl, resolved⟩
  · rintro ⟨raw, mem, same, resolved⟩
    exact ⟨raw, mem, entry.path, resolved, by rw [same]⟩

variable (restricted : policy.kind = .restricted)

include restricted in
theorem canReadPathWithCwd_asPath_iff (path : AbsolutePathBuf) :
    policy.canReadPathWithCwd host path.asPath cwd = true ↔
      decidingAccess (policy.resolvedEntriesWithCwd host cwd) path ≠ .deny := by
  simp [canReadPathWithCwd, resolveAccessWithCwd, restricted, canRead]

variable (lawful : host.fileSystem.Lawful) (noLinks : ∀ other, host.fileSystem.isSymlink other = false)

include lawful noLinks in
theorem mem_dedupEffectivePaths {paths : List AbsolutePathBuf} :
    path ∈ dedupEffectivePaths host.fileSystem paths ↔ path ∈ paths := by
  rw [dedupEffectivePaths, dedupAbsolutePaths, mem_unseen,
    map_id'' (normalizeEffective_of_noSymlinks lawful noLinks)]
  simp

include lawful noLinks in
theorem mem_normalizedAndCanonicalCandidates :
    path ∈ normalizedAndCanonicalCandidates host.fileSystem root ↔ path = root := by
  rw [normalizedAndCanonicalCandidates, dedupAbsolutePaths, mem_unseen]
  cases found : host.fileSystem.canonicalize root with
  | none => simp
  | some =>
    simp [lawful.canonicalize_of_noSymlinks (fun other _ => noLinks other) found]

include restricted lawful noLinks

theorem mem_getReadableRootsWithCwd (notFull : policy.hasFullDiskReadAccess = false) :
    root ∈ policy.getReadableRootsWithCwd host cwd ↔
      Listed (policy.resolvedEntriesWithCwd host cwd) root ∧
        decidingAccess (policy.resolvedEntriesWithCwd host cwd) root ≠ .deny := by
  rw [getReadableRootsWithCwd, notFull, if_neg Bool.false_ne_true,
    mem_dedupEffectivePaths lawful noLinks]
  simp only [mem_map, mem_filter, canReadPathWithCwd_asPath_iff restricted]
  constructor
  · rintro ⟨entry, ⟨⟨mem, _⟩, readable⟩, rfl⟩
    exact ⟨⟨entry, mem, rfl⟩, readable⟩
  · rintro ⟨listed, readable⟩
    exact ⟨_, ⟨⟨listed.settled.1, decide_eq_true readable⟩, readable⟩, rfl⟩

theorem mem_getUnreadableRootsWithCwd : root ∈ policy.getUnreadableRootsWithCwd host cwd ↔
    Listed (policy.resolvedEntriesWithCwd host cwd) root ∧
      decidingAccess (policy.resolvedEntriesWithCwd host cwd) root = .deny ∧
        (fromAbsolutePath host.env cwd).map absoluteRootPathForCwd ≠ some root := by
  rw [getUnreadableRootsWithCwd, restricted]
  simp only [mem_dedupEffectivePaths lawful noLinks, mem_map, mem_filter,
    Bool.not_eq_true', ← Bool.not_eq_true, canReadPathWithCwd_asPath_iff restricted, not_not,
    decide_eq_true_eq]
  constructor
  · rintro ⟨entry, ⟨⟨⟨mem, _⟩, denied⟩, other⟩, rfl⟩
    exact ⟨⟨entry, mem, rfl⟩, denied, other⟩
  · rintro ⟨listed, denied, other⟩
    have settled := listed.settled
    rw [denied] at settled
    exact ⟨_, ⟨⟨⟨settled.1, rfl⟩, denied⟩, other⟩, rfl⟩

/-- Below a listed path that can be read, the nearest listed path above a path that cannot
is an unreadable root. -/
theorem exists_unreadableRoot (listed : Listed (policy.resolvedEntriesWithCwd host cwd) root)
    (readable : decidingAccess (policy.resolvedEntriesWithCwd host cwd) root ≠ .deny)
    (below : root ≤ path)
    (denied : decidingAccess (policy.resolvedEntriesWithCwd host cwd) path = .deny) :
    ∃ unreadable ∈ policy.getUnreadableRootsWithCwd host cwd, root ≤ unreadable ∧
      unreadable ≤ path := by
  rcases decidingAccess_cases (policy.resolvedEntriesWithCwd host cwd) path with
    ⟨base, nearest, settled⟩ | ⟨_, none⟩
  · have baseDenied := decidingAccess_of_nearest nearest.1.nearest settled
    have above : root ≤ base := nearest.2.2 root listed below
    refine ⟨base, (mem_getUnreadableRootsWithCwd restricted lawful noLinks).mpr
      ⟨nearest.1, baseDenied.trans denied, ?_⟩, above, nearest.2.1⟩
    -- A denied `/` is left out, but then `root` is `/` too.
    intro isRoot
    obtain ⟨_, _, rfl⟩ := Option.map_eq_some_iff.mp isRoot
    rw [le_antisymm above (root_le root)] at readable
    exact readable (baseDenied.trans denied)
  · exact absurd below (none root listed)

variable (cwd)

section

variable (notFull : policy.hasFullDiskReadAccess = false) (path : AbsolutePathBuf)
include notFull

/-- Without links the roots and what is left out of them are exactly the readable paths. -/
theorem exists_readableRoot_iff : (∃ root ∈ policy.getReadableRootsWithCwd host cwd, root ≤ path ∧
      ∀ unreadable ∈ policy.getUnreadableRootsWithCwd host cwd,
        root ≤ unreadable → ¬ unreadable ≤ path) ↔
    policy.canReadPathWithCwd host path.asPath cwd = true := by
  simp only [mem_getReadableRootsWithCwd restricted lawful noLinks notFull,
    canReadPathWithCwd_asPath_iff restricted]
  constructor
  · rintro ⟨_, ⟨listed, readable⟩, below, outside⟩ denied
    obtain ⟨unreadable, mem, inside, above⟩ :=
      exists_unreadableRoot restricted lawful noLinks listed readable below denied
    exact outside unreadable mem inside above
  · intro readable
    rcases decidingAccess_cases (policy.resolvedEntriesWithCwd host cwd) path with
      ⟨base, nearest, settled⟩ | ⟨denied, _⟩
    · have same := decidingAccess_of_nearest nearest.1.nearest settled
      refine ⟨base, ⟨nearest.1, same ▸ readable⟩, nearest.2.1, ?_⟩
      intro unreadable mem inside above
      obtain ⟨listed, denied, _⟩ :=
        (mem_getUnreadableRootsWithCwd restricted lawful noLinks).mp mem
      rw [le_antisymm (nearest.2.2 unreadable listed above) inside, same] at denied
      exact readable denied
    · contradiction

/-- The roots and what is left out of them are exactly the readable paths, and so are the
rules for Seatbelt. -/
theorem readRoots_exact :
    ((∃ root ∈ policy.getReadableRootsWithCwd host cwd, path.startsWith root = true ∧
        ∀ unreadable ∈ policy.getUnreadableRootsWithCwd host cwd,
          unreadable.startsWith root = true → path.startsWith unreadable = false) ↔
      policy.canReadPathWithCwd host path.asPath cwd = true) ∧
    (policy.seatbeltReadRoots host cwd).any (·.allows host.fileSystem path) =
      policy.canReadPathWithCwd host path.asPath cwd := by
  have exact := exists_readableRoot_iff cwd restricted lawful noLinks notFull path
  refine ⟨by simpa [← Bool.not_eq_true] using exact, Bool.eq_iff_iff.mpr (Iff.trans ?_ exact)⟩
  simp [seatbeltReadRoots, notFull, SeatbeltAccessRoot.allows,
    normalizePathForSandbox_eq lawful noLinks, ← Bool.not_eq_true, imp_iff_not_or]

end

section Matcher

variable (buildGlobMatcher : String → Option (AbsolutePathBuf → Bool))
  (noGlobs : ∀ entry ∈ policy.entries, ∀ pattern, entry.path ≠ .globPattern pattern)
include noGlobs

/-- The matcher refuses what lies below an unreadable root. -/
theorem any_isReadDenied_iff : (ReadDenyMatcher.new host buildGlobMatcher policy cwd).any
      (·.isReadDenied host.fileSystem path) = true ↔
    ∃ unreadable ∈ policy.getUnreadableRootsWithCwd host cwd, unreadable ≤ path := by
  have noPatterns : policy.getUnreadableGlobsWithCwd host cwd = [] := by
    rw [getUnreadableGlobsWithCwd, restricted]
    dsimp only
    rw [filterMap_eq_nil_iff.mpr]
    · rfl
    intro entry mem
    split
    · rename_i pattern is
      exact absurd is (noGlobs entry (mem_of_mem_filter mem) pattern)
    · rfl
  rw [ReadDenyMatcher.new, noPatterns]
  split
  · rename_i unrestricted
    refine iff_of_false (by simp) ?_
    rintro ⟨_, mem, _⟩
    obtain ⟨listed, denied, _⟩ :=
      (mem_getUnreadableRootsWithCwd restricted lawful noLinks).mp mem
    have settled := listed.settled.1
    rw [denied] at settled
    obtain ⟨raw, rawMem, access, _⟩ := mem_resolvedEntriesWithCwd.mp settled
    simp [hasDeniedReadRestrictions, restricted] at unrestricted
    exact unrestricted raw rawMem access
  · have below (other : AbsolutePathBuf) : path = other ∨ other ≤ path ↔ other ≤ path :=
      or_iff_right_of_imp Eq.ge
    simp [ReadDenyMatcher.isReadDenied, mem_normalizedAndCanonicalCandidates lawful noLinks, below]

/-- A path is refused to the tools if it or a path above it cannot be read. -/
theorem readDenied_iff
    (rootReadable : policy.canReadPathWithCwd host AbsolutePathBuf.root.asPath cwd = true)
    (path : AbsolutePathBuf) :
    (ReadDenyMatcher.new host buildGlobMatcher policy cwd).any
        (·.isReadDenied host.fileSystem path) = true ↔
      ∃ base, path.startsWith base = true ∧ policy.canReadPathWithCwd host base.asPath cwd = false := by
  simp only [any_isReadDenied_iff cwd restricted lawful noLinks buildGlobMatcher noGlobs,
    ← Bool.not_eq_true, canReadPathWithCwd_asPath_iff restricted, not_not, startsWith_iff]
    at rootReadable ⊢
  constructor
  · rintro ⟨unreadable, member, above⟩
    have found := (mem_getUnreadableRootsWithCwd restricted lawful noLinks).mp member
    exact ⟨unreadable, above, found.2.1⟩
  · rintro ⟨base, above, denied⟩
    obtain ⟨top, nearest, _⟩ := (decidingAccess_eq_iff rootReadable).mp rfl
    have isRoot : top = .root := le_antisymm nearest.2.1 (root_le top)
    rw [isRoot] at nearest
    obtain ⟨unreadable, member, _, between⟩ :=
      exists_unreadableRoot restricted lawful noLinks nearest.1 rootReadable (root_le base) denied
    exact ⟨unreadable, member, between.trans above⟩

end Matcher

end Roots

/-- A host without files. -/
def bareHost : Host := { fileSystem := .ofDirectories [] }

/-- Everything can be read but a directory, and in it a directory again. -/
def reallowedChild : FileSystemSandboxPolicy :=
  .restricted [⟨.special .root, .read⟩, ⟨.path ⟨["a"], by decide⟩, .deny⟩,
    ⟨.path ⟨["a", "b"], by decide⟩, .read⟩]

/-- The rules for reads and the policy agree about the inner directory. -/
theorem reallowedChild_exact :
    (reallowedChild.seatbeltReadRoots bareHost AbsolutePathBuf.root.asPath).any
        (·.allows bareHost.fileSystem ⟨["a", "b"], by decide⟩) =
      reallowedChild.canReadPathWithCwd bareHost { isAbsolute := true, components := ["a", "b"] }
        AbsolutePathBuf.root.asPath :=
  (readRoots_exact AbsolutePathBuf.root.asPath rfl (FileSystem.lawful_ofDirectories [])
    (FileSystem.isSymlink_ofDirectories []) rfl ⟨["a", "b"], by decide⟩).2

/-- The directory that can be read is refused to the tools. -/
theorem reallowedChild_denied :
    (ReadDenyMatcher.new bareHost (fun _ => none) reallowedChild AbsolutePathBuf.root.asPath).any
      (·.isReadDenied bareHost.fileSystem ⟨["a", "b"], by decide⟩) = true := by
  apply (readDenied_iff AbsolutePathBuf.root.asPath rfl (FileSystem.lawful_ofDirectories [])
    (FileSystem.isSymlink_ofDirectories []) (fun _ => none) ?_ ?_ _).mpr
  · exact ⟨⟨["a"], by decide⟩, by decide, by decide +kernel⟩
  · simp [reallowedChild, FileSystemSandboxPolicy.restricted]
  · decide +kernel

/-- The policy lets the inner directory be read, and the matcher refuses it. -/
theorem reallowedChild_readable_and_denied :
    reallowedChild.canReadPathWithCwd bareHost AbsolutePathBuf.root.asPath
        AbsolutePathBuf.root.asPath = true ∧
      reallowedChild.canReadPathWithCwd bareHost { isAbsolute := true, components := ["a", "b"] }
        AbsolutePathBuf.root.asPath = true ∧
      (ReadDenyMatcher.new bareHost (fun _ => none) reallowedChild AbsolutePathBuf.root.asPath).any
        (·.isReadDenied bareHost.fileSystem ⟨["a", "b"], by decide⟩) = true := by
  decide +kernel

end WeaveCodex.Permissions
