/-
Purpose: The shortcuts for a policy with access to the whole disk: an entry that narrows the
  grant may be overridden by a writable entry with its target, which must then decide.
-/
import WeaveCodex.Permissions.Proofs.ReadAccess

namespace WeaveCodex.Permissions

open Paths AbsolutePathBuf FileSystemSandboxPolicy FileSystemAccessMode List Bool

variable {host : Host} {policy : FileSystemSandboxPolicy} {path cwd : AbsolutePathBuf}

section

variable {first second : FileSystemPath} (share : fileSystemPathsShareTarget first second = true)
include share

/-- Paths share a target if they are equal, or if one is the literal form of the other. -/
theorem shareTarget_cases :
    first = second ∨ (∃ value path, specialPathMatchesAbsolutePath value path = true ∧
        (first = .special value ∧ second = .path path ∨
          first = .path path ∧ second = .special value)) := by
  cases first with
  | path left =>
    cases second with
    | path => exact .inl (congrArg _ (of_decide_eq_true share))
    | globPattern => cases share
    | special value => exact .inr ⟨value, left, share, .inr ⟨rfl, rfl⟩⟩
  | globPattern =>
    cases second with
    | globPattern => exact .inl (congrArg _ (of_decide_eq_true share))
    | path | special => cases share
  | special value =>
    cases second with
    | path right => exact .inr ⟨value, right, share, .inl ⟨rfl, rfl⟩⟩
    | globPattern => cases share
    | special other =>
      left
      rw [fileSystemPathsShareTarget] at share
      cases value <;> cases other <;> simp_all [specialPathsShareTarget]

/-- Paths with one target resolve alike, but for `/tmp` where it is not a directory. -/
theorem resolveEntryPath_of_shareTarget
    (resolved : resolveEntryPath host (some cwd) second = some path) :
    resolveEntryPath host (some cwd) first = some path ∨
      second = .path slashTmpPath ∧ host.fileSystem.isDir slashTmpPath = false := by
  rcases shareTarget_cases share with rfl | ⟨value, literal, is, either⟩
  · exact .inl resolved
  cases value with
  | root =>
    have empty : literal.components = [] := by
      simpa [specialPathMatchesAbsolutePath, parent] using is
    have isRoot : literal = .root := ext empty
    left
    rcases either with ⟨rfl, rfl⟩ | ⟨rfl, rfl⟩ <;>
      simpa [resolveEntryPath, resolveFileSystemPath, absoluteRootPathForCwd, isRoot] using resolved
  | slashTmp =>
    have isTmp : literal = slashTmpPath := of_decide_eq_true is
    rcases either with ⟨rfl, rfl⟩ | ⟨rfl, rfl⟩
    · cases directory : host.fileSystem.isDir slashTmpPath with
      | false => exact .inr ⟨by rw [isTmp], rfl⟩
      | true =>
        left
        rw [isTmp] at resolved
        simpa [resolveEntryPath, resolveFileSystemPath, resolveFileSystemSpecialPath, directory]
          using resolved
    · left
      simp only [resolveEntryPath, resolveFileSystemPath, resolveFileSystemSpecialPath,
        Option.ite_none_right_eq_some] at resolved
      rw [isTmp]
      exact resolved.2
  | _ => cases is

end

/-- An entry that resolves and does not narrow a grant for the whole disk is writable, or
overridden by a writable entry with its target. -/
theorem exists_override {raw : FileSystemSandboxEntry}
    (granted : policy.hasRootAccess canWrite = true) (wide : policy.narrowsWrite raw = false)
    (resolved : resolveEntryPath host (some cwd) raw.path = some path) (narrow : raw.access ≠ .write) :
    raw.access = .read ∧ ∃ candidate ∈ policy.entries, candidate.access = .write ∧
      fileSystemPathsShareTarget candidate.path raw.path = true := by
  have readOnly : raw.access = .deny ∨ raw.access = .read := by
    cases access : raw.access <;> simp_all
  have has : policy.hasSameTargetWriteOverride raw = true := by
    rw [narrowsWrite, if_neg (by simp [canWrite, narrow])] at wide
    obtain ⟨rawPath, _⟩ := raw
    cases rawPath with
    | globPattern => cases wide
    | path => simpa using wide
    | special value =>
      cases value with
      | root =>
        simp only [hasRootAccess, and_eq_true, any_eq_true, decide_eq_true_eq, canWrite] at granted
        obtain ⟨_, candidate, mem, isRoot, writes⟩ := granted
        obtain rfl := readOnly.resolve_left (of_decide_eq_false wide)
        refine any_eq_true.mpr ⟨candidate, mem, ?_⟩
        rw [isRoot, writes]
        decide
      | minimal | unknown => cases resolved
      | _ => simpa using wide
  simp only [hasSameTargetWriteOverride, any_eq_true, and_eq_true, canWrite,
    decide_eq_true_eq] at has
  obtain ⟨candidate, mem, ⟨writes, less⟩, share⟩ := has
  rw [writes] at less
  refine ⟨readOnly.resolve_left ?_, candidate, mem, writes, share⟩
  intro denied
  rw [denied] at less
  exact absurd less (by decide)

section FullAccess

variable (restricted : policy.kind = .restricted)
include restricted

theorem resolveAccessWithCwd_asPath (cwd : Path) (path : AbsolutePathBuf) :
    policy.resolveAccessWithCwd host path.asPath cwd =
      decidingAccess (policy.resolvedEntriesWithCwd host cwd) path := by
  simp [resolveAccessWithCwd, restricted]

/-- With an entry for `/` the access of a path is that of some entry. -/
theorem exists_settled {predicate : FileSystemAccessMode → Bool}
    (granted : policy.hasRootAccess predicate = true) (host : Host) (cwd path : AbsolutePathBuf) :
    ∃ base, Settled (policy.resolvedEntriesWithCwd host cwd.asPath) base
      (policy.resolveAccessWithCwd host path.asPath cwd.asPath) := by
  simp only [hasRootAccess, and_eq_true, any_eq_true, decide_eq_true_eq] at granted
  obtain ⟨_, raw, mem, isRoot, _⟩ := granted
  have listed : Listed (policy.resolvedEntriesWithCwd host cwd.asPath) .root :=
    ⟨⟨.root, raw.access⟩, mem_resolvedEntriesWithCwd.mpr ⟨raw, mem, rfl, by
      rw [isRoot, fromAbsolutePath_asPath]
      rfl⟩, rfl⟩
  rw [resolveAccessWithCwd_asPath restricted]
  rcases decidingAccess_cases (policy.resolvedEntriesWithCwd host cwd.asPath) path with
    ⟨base, _, settled⟩ | ⟨_, none⟩
  · exact ⟨base, settled⟩
  · exact absurd (root_le path) (none .root listed)

/-- Full access for reads lets every path be read. Full access for writes lets every path be
written unless `/tmp` is not a directory, a literal entry makes it read-only, and no writable
entry resolves to it. -/
theorem fullDisk_access_iff (cwd : AbsolutePathBuf) :
    (policy.hasFullDiskReadAccess = true → ∀ path : AbsolutePathBuf,
      policy.resolveAccessWithCwd host path.asPath cwd.asPath ≠ .deny) ∧
    (policy.hasFullDiskWriteAccess = true → ((∀ path : AbsolutePathBuf,
          policy.resolveAccessWithCwd host path.asPath cwd.asPath = .write) ↔
        (host.fileSystem.isDir slashTmpPath = true ∨ ⟨.path slashTmpPath, .read⟩ ∉ policy.entries ∨
          ⟨slashTmpPath, .write⟩ ∈ policy.resolvedEntriesWithCwd host cwd.asPath))) := by
  constructor
  · intro full path denied
    simp only [hasFullDiskReadAccess, restricted, and_eq_true, not_eq_true',
      hasDeniedReadRestrictions, decide_true, Bool.true_and, any_eq_false] at full
    obtain ⟨_, settled⟩ := exists_settled restricted full.1 host cwd path
    obtain ⟨raw, member, access, _⟩ := mem_resolvedEntriesWithCwd.mp settled.1
    exact full.2 raw member (decide_eq_true (access.trans denied))
  intro full
  simp only [hasFullDiskWriteAccess, restricted, and_eq_true, not_eq_true',
    hasWriteNarrowingEntries, decide_true, Bool.true_and, any_eq_false,
    not_eq_true] at full
  constructor
  · intro writable
    by_cases readOnly : ⟨.path slashTmpPath, .read⟩ ∈ policy.entries
    · have listed : Listed (policy.resolvedEntriesWithCwd host cwd.asPath) slashTmpPath :=
        ⟨⟨_, .read⟩, mem_resolvedEntriesWithCwd.mpr ⟨_, readOnly, rfl, rfl⟩, rfl⟩
      have settled := listed.settled
      rw [← resolveAccessWithCwd_asPath restricted, writable] at settled
      exact .inr (.inr settled.1)
    · exact .inr (.inl readOnly)
  · intro tmp path
    obtain ⟨base, settled⟩ := exists_settled restricted full.1 host cwd path
    obtain ⟨raw, member, access, resolved⟩ := mem_resolvedEntriesWithCwd.mp settled.1
    rw [fromAbsolutePath_asPath] at resolved
    by_contra narrow
    obtain ⟨isRead, candidate, candidateMember, writes, share⟩ :=
      exists_override full.1 (full.2 raw member) resolved (access ▸ narrow)
    -- The entry at the path reads only, so no writable entry stands there.
    have alone : ⟨base, .write⟩ ∉ policy.resolvedEntriesWithCwd host cwd.asPath := by
      intro other
      have most := settled.2 _ other rfl
      have isRead := access.symm.trans isRead
      dsimp only at isRead most
      rw [isRead] at most
      exact absurd most (by decide)
    rcases resolveEntryPath_of_shareTarget share resolved with alike | ⟨literal, missing⟩
    · refine alone (mem_resolvedEntriesWithCwd.mpr ⟨candidate, candidateMember, writes, ?_⟩)
      rw [fromAbsolutePath_asPath]
      exact alike
    · obtain ⟨_, _⟩ := raw
      dsimp only at literal isRead resolved
      subst literal isRead
      obtain rfl : slashTmpPath = base := Option.some.inj resolved
      rw [missing] at tmp
      rcases tmp with present | absent | written
      · cases present
      · exact absent member
      · exact alone written

end FullAccess

/-- Everything can be written, and `/tmp` only be read by its name as a path. -/
def overriddenTmp : FileSystemSandboxPolicy :=
  .restricted [⟨.special .root, .write⟩, ⟨.path slashTmpPath, .read⟩, ⟨.special .slashTmp, .write⟩]

/-- On a host that has `/tmp` the entry is overridden. -/
theorem overriddenTmp_writable :
    overriddenTmp.resolveAccessWithCwd { fileSystem := .ofDirectories [slashTmpPath] }
      slashTmpPath.asPath AbsolutePathBuf.root.asPath = .write :=
  ((fullDisk_access_iff rfl .root).2 (by decide +kernel)).mpr (.inl (by decide +kernel)) _

/-- On a host without `/tmp` it is not, and the policy with full access to the disk cannot write it. -/
theorem overriddenTmp_narrowed : overriddenTmp.hasFullDiskWriteAccess = true ∧
    overriddenTmp.resolveAccessWithCwd bareHost slashTmpPath.asPath
      AbsolutePathBuf.root.asPath = .read := by
  decide +kernel

end WeaveCodex.Permissions
