/-
Purpose: Whether the order of the entries of a policy matters: it does for the metadata of
  a writable path that lies in the metadata of another writable path, and nowhere else.
-/
import WeaveCodex.Permissions.Proofs.DecidingEntry
import WeaveCodex.Permissions.Proofs.EffectivePaths

namespace WeaveCodex.Permissions

open Library.KeySort
open Paths FileSystemSandboxPolicy AbsolutePathBuf WritableRoot List

/-! ### The metadata exception -/

section Metadata

variable {entries : List ResolvedFileSystemEntry} {path base : AbsolutePathBuf}

/-- A writable path lies in the metadata of another writable path, and some of its own
metadata is not listed. -/
def NestedMetadata (entries : List ResolvedFileSystemEntry) : Prop :=
  ∃ outer inner, WriteAt entries outer ∧ Settled entries inner .write ∧ InMetadata outer inner ∧
    ∃ name, ¬ Listed entries (metadataPath inner name)

/-- In a writable path it is the nearest listed path that denies its metadata. -/
theorem Denies.nearest (denies : Denies entries base path) (writes : WriteAt entries base)
    (granted : decidingAccess entries path = .write) :
    Nearest entries base path ∧ Settled entries base .write := by
  obtain ⟨_, nearest, settled⟩ := decidingAccess_write_iff.mp granted
  have below := nearest.2.2 base writes.listed denies.inMetadata.lt.le
  rcases below.eq_or_lt with rfl | deeper
  · exact ⟨nearest, settled⟩
  · exact absurd settled.1 (denies.not_writeAt deeper nearest.2.1)

/-- Unless metadata is nested, any writable entry that denies a path is the first one with
the path in its metadata. -/
theorem metadataDenied_iff_denies (flat : ¬ NestedMetadata entries)
    (granted : decidingAccess entries path = .write) :
    metadataDenied entries path = true ↔ ∃ base, WriteAt entries base ∧ Denies entries base path := by
  rw [metadataDenied_iff]
  constructor
  · rintro ⟨base, guard, denies⟩
    exact ⟨base, guard.writeAt, denies⟩
  · rintro ⟨base, writes, denies⟩
    obtain ⟨nearest, settled⟩ := denies.nearest writes granted
    obtain ⟨first, guard, inside⟩ := exists_firstGuard writes denies.inMetadata
    rcases le_or_lt nearest.2.1 inside.lt.le with above | shallower
    · have below := nearest.2.2 first guard.writeAt.listed inside.lt.le
      obtain rfl := le_antisymm below above
      exact ⟨first, guard, denies⟩
    · exfalso
      apply flat
      refine ⟨first, base, guard.writeAt, settled, inside.of_lt shallower nearest.2.1, ?_⟩
      obtain ⟨name, metadataBelow, _⟩ := denies
      refine ⟨name, fun listed => ?_⟩
      have deeper := nearest.2.2 _ listed metadataBelow
      exact absurd (lt_metadataPath base name) deeper.not_gt

/-- The listed path that comes first decides, if it has the path in its metadata. -/
theorem firstGuard_cons (rest : List ResolvedFileSystemEntry) (base path : AbsolutePathBuf) :
    FirstGuard (⟨base, .write⟩ :: rest) base path := by
  refine ⟨[], writers rest, ?_, ?_⟩
  · exact filter_cons_of_pos (by rfl)
  · intro entry mem
    contradiction

theorem FirstGuard.unique {other : AbsolutePathBuf} (first : FirstGuard entries base path)
    (second : FirstGuard entries other path) (firstInside : InMetadata base path)
    (secondInside : InMetadata other path) : base = other := by
  obtain ⟨_, below⟩ := firstInside
  obtain ⟨_, otherBelow⟩ := secondInside
  have one := metadataChildOfWritableRoot_eq_some.mpr ⟨base, first, rfl, below⟩
  rw [metadataChildOfWritableRoot_eq_some.mpr ⟨other, second, rfl, otherBelow⟩] at one
  obtain ⟨samePath, sameName⟩ := Prod.mk.inj (Option.some.inj one)
  subst sameName
  have components := congrArg AbsolutePathBuf.components samePath
  exact (ext (append_cancel_right components)).symm

end Metadata

/-! ### Policies that agree -/

/-- Two policies with the same entries that allow the same writes. -/
structure Agree (host : Host) (cwd : Path) (first second : FileSystemSandboxPolicy) : Prop where
  kind : first.kind = second.kind
  entries : first.entries.Perm second.entries
  canWrite : ∀ path,
    first.canWritePathWithCwd host path cwd = second.canWritePathWithCwd host path cwd

section Reordered

variable {host : Host} {cwd : Path} {first second : FileSystemSandboxPolicy}
  (kind : first.kind = second.kind) (permuted : first.entries.Perm second.entries)

include kind permuted in
theorem hasFullDiskReadAccess_perm :
    first.hasFullDiskReadAccess = second.hasFullDiskReadAccess := by
  simp only [hasFullDiskReadAccess, hasRootAccess, hasDeniedReadRestrictions, kind, permuted.any_eq]

include kind permuted in
theorem hasFullDiskWriteAccess_perm :
    first.hasFullDiskWriteAccess = second.hasFullDiskWriteAccess := by
  have narrows : first.narrowsWrite = second.narrowsWrite := by
    funext entry
    simp only [narrowsWrite, hasSameTargetWriteOverride, permuted.any_eq]
  simp only [hasFullDiskWriteAccess, hasRootAccess, hasWriteNarrowingEntries, kind, permuted.any_eq,
    narrows]

theorem resolvedEntries_perm (permuted : first.entries.Perm second.entries) (host : Host) (cwd : Path) :
    (first.resolvedEntriesWithCwd host cwd).Perm (second.resolvedEntriesWithCwd host cwd) :=
  permuted.filterMap _

include kind permuted in
theorem resolveAccess_perm (path : Path) :
    first.resolveAccessWithCwd host path cwd = second.resolveAccessWithCwd host path cwd := by
  have same := decidingAccess_congr fun entry =>
    (resolvedEntries_perm permuted host cwd).mem_iff (a := entry)
  simp only [resolveAccessWithCwd, kind, same]

theorem sortedAbsolutePaths_dedup_perm {first second : List AbsolutePathBuf}
    (permuted : first.Perm second) :
    sortedAbsolutePaths (dedupAbsolutePaths first) =
      sortedAbsolutePaths (dedupAbsolutePaths second) := by
  apply sortByKey_perm
  · intro one _ two _ equal
    exact ext equal
  · apply (perm_ext_iff_of_nodup nodup_unseen nodup_unseen).mpr
    intro path
    simp only [mem_unseen, permuted.mem_iff]

variable (agree : Agree host cwd first second)
include agree

theorem Agree.canRead (path : Path) :
    first.canReadPathWithCwd host path cwd = second.canReadPathWithCwd host path cwd :=
  congrArg FileSystemAccessMode.canRead (resolveAccess_perm agree.kind agree.entries path)

theorem Agree.writableEntries :
    (first.writableEntries host cwd).Perm (second.writableEntries host cwd) := by
  simp only [FileSystemSandboxPolicy.writableEntries, agree.canWrite]
  exact (((resolvedEntries_perm agree.entries host cwd).filter _).filter _).map _

theorem Agree.readableRoots : sortedAbsolutePaths (first.getReadableRootsWithCwd host cwd) =
    sortedAbsolutePaths (second.getReadableRootsWithCwd host cwd) := by
  rw [getReadableRootsWithCwd, getReadableRootsWithCwd,
    hasFullDiskReadAccess_perm agree.kind agree.entries]
  split
  · rfl
  · simp only [agree.canRead]
    apply sortedAbsolutePaths_dedup_perm
    exact ((((resolvedEntries_perm agree.entries host cwd).filter _).filter _).map _).map _

theorem Agree.unreadableRoots : sortedAbsolutePaths (first.getUnreadableRootsWithCwd host cwd) =
    sortedAbsolutePaths (second.getUnreadableRootsWithCwd host cwd) := by
  rw [getUnreadableRootsWithCwd, getUnreadableRootsWithCwd, agree.kind]
  split
  · simp only [agree.canRead]
    apply sortedAbsolutePaths_dedup_perm
    exact (((((resolvedEntries_perm agree.entries host cwd).filter _).filter _).filter _).map _).map _
  · rfl

theorem Agree.unreadableGlobs :
    first.getUnreadableGlobsWithCwd host cwd = second.getUnreadableGlobsWithCwd host cwd := by
  rw [getUnreadableGlobsWithCwd, getUnreadableGlobsWithCwd, agree.kind]
  split
  · dsimp only
    congr 1
    apply sortByKey_perm
    · intro one _ two _ equal
      exact equal
    · exact (agree.entries.filter _).filterMap _
  · rfl

section

variable (lawful : host.fileSystem.Lawful)
include lawful

/-- A root is given the same read-only paths and names, up to their order. -/
theorem Agree.withSortedParts_writableRootFor (root : AbsolutePathBuf) :
    (first.writableRootFor host cwd root).withSortedParts =
      (second.writableRootFor host cwd root).withSortedParts := by
  have resolved := resolvedEntries_perm agree.entries host cwd
  have raws := agree.writableEntries.filter fun path =>
    decide (normalizeEffectiveAbsolutePath host.fileSystem path = root)
  have carveouts := carveoutPath_congr lawful (fun path => raws.mem_iff) fun path mem =>
    of_decide_eq_true (mem_filter.mp mem).2
  rw [withSortedParts, withSortedParts]
  simp only [writableRootFor, protectedMetadataNamesForWritableRoot, hasExplicitResolvedPathEntry,
    agree.canWrite, (raws.cons root).all_eq, resolved.any_eq, carveouts, WritableRoot.mk.injEq,
    true_and, and_true]
  apply sortedAbsolutePaths_dedup_perm
  exact (((resolved.filter _).filter _).filterMap _).append_left _

/-- Policies that agree have the same writable roots, up to order. -/
theorem Agree.writableRoots : sortedWritableRoots (first.getWritableRootsWithCwd host cwd) =
    sortedWritableRoots (second.getWritableRootsWithCwd host cwd) := by
  rw [getWritableRootsWithCwd, getWritableRootsWithCwd,
    hasFullDiskWriteAccess_perm agree.kind agree.entries]
  split
  · rfl
  rw [sortedWritableRoots, sortedWritableRoots, map_map, map_map]
  have parts : withSortedParts ∘ first.writableRootFor host cwd =
      withSortedParts ∘ second.writableRootFor host cwd :=
    funext (agree.withSortedParts_writableRootFor lawful)
  rw [parts]
  apply sortByKey_perm
  · -- The sorted parts of a root are determined by its path.
    intro one oneMem two twoMem equal
    obtain ⟨oneRoot, _, rfl⟩ := mem_map.mp oneMem
    obtain ⟨twoRoot, _, rfl⟩ := mem_map.mp twoMem
    have sameRoot : oneRoot = twoRoot := ext equal
    rw [sameRoot]
  · apply List.Perm.map
    apply (perm_ext_iff_of_nodup nodup_unseen nodup_unseen).mpr
    intro path
    simp only [mem_unseen, mem_map, agree.writableEntries.mem_iff]

theorem Agree.semanticSignature_eq :
    first.semanticSignature host cwd = second.semanticSignature host cwd := by
  rw [semanticSignature, semanticSignature,
    agree.readableRoots, agree.writableRoots lawful, agree.unreadableRoots, agree.unreadableGlobs,
    hasFullDiskReadAccess_perm agree.kind agree.entries,
    hasFullDiskWriteAccess_perm agree.kind agree.entries]
  simp only [includePlatformDefaults, agree.kind, agree.entries.any_eq,
    hasFullDiskReadAccess_perm agree.kind agree.entries]

end

end Reordered

/-! ### Whether the order matters -/

section EntryOrder

variable {host : Host} {cwd : Path}

theorem nestedMetadata_congr {first second : List ResolvedFileSystemEntry}
    (same : ∀ entry, entry ∈ first ↔ entry ∈ second) :
    NestedMetadata first ↔ NestedMetadata second := by
  simp only [NestedMetadata, WriteAt, Settled, Listed, same]

/-- The order of the entries changes no write unless metadata is nested. -/
theorem canWrite_perm {first second : FileSystemSandboxPolicy}
    (firstRestricted : first.kind = .restricted) (secondRestricted : second.kind = .restricted)
    (permuted : first.entries.Perm second.entries)
    (flat : second.hasFullDiskWriteAccess = true ∨
      ¬ NestedMetadata (second.resolvedEntriesWithCwd host cwd)) (path : Path) :
    first.canWritePathWithCwd host path cwd = second.canWritePathWithCwd host path cwd := by
  have same := fun entry => (resolvedEntries_perm permuted host cwd).mem_iff (a := entry)
  have full := hasFullDiskWriteAccess_perm (firstRestricted.trans secondRestricted.symm) permuted
  rw [Bool.eq_iff_iff, canWritePathWithCwd_iff firstRestricted,
    canWritePathWithCwd_iff secondRestricted, full]
  apply exists_congr
  intro target
  rw [decidingAccess_congr same]
  apply and_congr_right
  intro _
  apply and_congr_right
  intro granted
  apply imp_congr_right
  intro notFull
  rcases flat with isFull | flat
  · rw [isFull] at notFull
    cases notFull
  · rw [← Bool.not_eq_true, ← Bool.not_eq_true, metadataDenied_iff_denies flat granted,
      metadataDenied_iff_denies (fun nested => flat ((nestedMetadata_congr same).mp nested))
        ((decidingAccess_congr same target).trans granted)]
    simp only [WriteAt, Denies, same]

variable {name : MetadataName} {entries : List FileSystemSandboxEntry}

/-- If the inner entry comes first it denies its metadata, if the outer one comes first it
does not. -/
theorem metadataDenied_of_nested {rest others : List ResolvedFileSystemEntry}
    {outer inner : AbsolutePathBuf} (inside : InMetadata outer inner)
    (unlisted : ¬ Listed (⟨inner, .write⟩ :: rest) (metadataPath inner name))
    (writes : WriteAt (⟨outer, .write⟩ :: others) inner) :
    metadataDenied (⟨inner, .write⟩ :: rest) (metadataPath inner name) = true ∧
      metadataDenied (⟨outer, .write⟩ :: others) (metadataPath inner name) = false := by
  constructor
  · rw [metadataDenied_iff]
    refine ⟨inner, firstGuard_cons rest inner _, name, le_rfl, ?_⟩
    intro writer writerWrites below above
    rw [le_antisymm below above] at writerWrites
    exact unlisted writerWrites.listed
  · rw [← Bool.not_eq_true, metadataDenied_iff]
    rintro ⟨_, guard, denies⟩
    have below : inner ≤ metadataPath inner name := (lt_metadataPath inner name).le
    have outerInside : InMetadata outer (metadataPath inner name) := by
      obtain ⟨outerName, outerBelow⟩ := inside
      exact ⟨outerName, outerBelow.trans below⟩
    obtain rfl := guard.unique (firstGuard_cons others outer _) denies.inMetadata outerInside
    exact denies.not_writeAt inside.lt below writes

/-- A list can be reordered so that the entry for a resolved one comes first. -/
theorem exists_perm_cons {resolve : FileSystemSandboxEntry → Option ResolvedFileSystemEntry}
    {entry : ResolvedFileSystemEntry} (mem : entry ∈ entries.filterMap resolve) :
    ∃ others rest, List.Perm others entries ∧ others.filterMap resolve = entry :: rest := by
  obtain ⟨raw, rawMem, resolved⟩ := mem_filterMap.mp mem
  refine ⟨raw :: entries.erase raw, (entries.erase raw).filterMap resolve, ?_, ?_⟩
  · exact (perm_cons_erase rawMem).symm
  · rw [filterMap_cons_some resolved]

/-- An unlisted path just below a listed one. -/
theorem nearest_metadataPath {entries : List ResolvedFileSystemEntry} {base : AbsolutePathBuf}
    (listed : Listed entries base) (unlisted : ¬ Listed entries (metadataPath base name)) :
    Nearest entries base (metadataPath base name) := by
  refine ⟨listed, (lt_metadataPath base name).le, fun other otherListed below => ?_⟩
  rcases le_child_iff.mp below with inside | rfl
  · exact inside
  · contradiction

/-- Nested metadata is protected in one order of the entries and writable in another. -/
theorem exists_different_of_nested
    (notFull : (restricted entries).hasFullDiskWriteAccess = false)
    (nested : NestedMetadata
      ((restricted entries).resolvedEntriesWithCwd host cwd)) :
    ∃ (innerFirst outerFirst : List FileSystemSandboxEntry) (path : AbsolutePathBuf),
      innerFirst.Perm entries ∧ outerFirst.Perm entries ∧
        (restricted innerFirst).canWritePathWithCwd host path.asPath cwd ≠
          (restricted outerFirst).canWritePathWithCwd host path.asPath
            cwd := by
  obtain ⟨_, inner, outerWrites, settled, inside, name, unlisted⟩ := nested
  have granted := decidingAccess_of_nearest (nearest_metadataPath settled.listed unlisted) settled
  obtain ⟨innerFirst, innerRest, innerPerm, innerResolved⟩ := exists_perm_cons settled.1
  obtain ⟨outerFirst, outerRest, outerPerm, outerResolved⟩ := exists_perm_cons outerWrites
  refine ⟨innerFirst, outerFirst, metadataPath inner name, innerPerm, outerPerm, ?_⟩
  have same {others : List FileSystemSandboxEntry} (permuted : others.Perm entries)
      (entry : ResolvedFileSystemEntry) :
      entry ∈ (restricted others).resolvedEntriesWithCwd host cwd ↔
        entry ∈ (restricted entries).resolvedEntriesWithCwd host cwd :=
    (permuted.filterMap _).mem_iff
  have writable {others : List FileSystemSandboxEntry} (permuted : others.Perm entries) :
      (restricted others).canWritePathWithCwd host (metadataPath inner name).asPath cwd = true ↔
        metadataDenied ((restricted others).resolvedEntriesWithCwd host cwd)
          (metadataPath inner name) = false := by
    have full : (restricted others).hasFullDiskWriteAccess =
        (restricted entries).hasFullDiskWriteAccess :=
      hasFullDiskWriteAccess_perm rfl permuted
    rw [canWritePathWithCwd_asPath_iff rfl, full, notFull, decidingAccess_congr (same permuted),
      granted]
    simp only [true_and, forall_const]
  have innerIs : (restricted innerFirst).resolvedEntriesWithCwd host cwd = _ := innerResolved
  have outerIs : (restricted outerFirst).resolvedEntriesWithCwd host cwd = _ := outerResolved
  have innerUnlisted : ¬ Listed (⟨inner, .write⟩ :: innerRest) (metadataPath inner name) := by
    rw [← innerIs]
    simpa only [Listed, same innerPerm] using unlisted
  obtain ⟨denied, allowed⟩ := metadataDenied_of_nested inside innerUnlisted
    (outerIs ▸ (same outerPerm _).mpr settled.1)
  rw [ne_eq, Bool.eq_iff_iff, writable innerPerm, writable outerPerm, innerIs, outerIs, denied,
    allowed]
  simp

/-- No order of the entries changes what a restricted policy allows, or its signature. -/
def OrderIrrelevant (host : Host) (entries : List FileSystemSandboxEntry) (cwd : Path) : Prop :=
  ∀ others : List FileSystemSandboxEntry, others.Perm entries →
    (∀ path, (FileSystemSandboxPolicy.restricted others).resolveAccessWithCwd host path cwd =
          (FileSystemSandboxPolicy.restricted entries).resolveAccessWithCwd host path cwd ∧
        (FileSystemSandboxPolicy.restricted others).canReadPathWithCwd host path cwd =
          (FileSystemSandboxPolicy.restricted entries).canReadPathWithCwd host path cwd ∧
        (FileSystemSandboxPolicy.restricted others).canWritePathWithCwd host path cwd =
          (FileSystemSandboxPolicy.restricted entries).canWritePathWithCwd host path cwd) ∧
      (FileSystemSandboxPolicy.restricted others).isSemanticallyEquivalentTo host cwd
        (FileSystemSandboxPolicy.restricted entries) = true

/-- The order of the entries is irrelevant if and only if the policy grants the whole disk
or metadata is not nested. -/
theorem entryOrder_irrelevant_iff (lawful : host.fileSystem.Lawful)
    (entries : List FileSystemSandboxEntry) (cwd : Path) :
    OrderIrrelevant host entries cwd ↔
      (FileSystemSandboxPolicy.restricted entries).hasFullDiskWriteAccess = true ∨ ¬ NestedMetadata
          ((FileSystemSandboxPolicy.restricted entries).resolvedEntriesWithCwd host cwd) := by
  constructor
  · intro irrelevant
    by_contra matters
    rw [not_or, not_not, Bool.not_eq_true] at matters
    obtain ⟨innerFirst, outerFirst, path, innerPerm, outerPerm, different⟩ :=
      exists_different_of_nested matters.1 matters.2
    apply different
    rw [((irrelevant innerFirst innerPerm).1 path.asPath).2.2,
      ((irrelevant outerFirst outerPerm).1 path.asPath).2.2]
  · intro flat others permuted
    have agree : Agree host cwd (.restricted others) (.restricted entries) :=
      ⟨rfl, permuted, canWrite_perm rfl rfl permuted flat⟩
    refine ⟨fun path => ?_, decide_eq_true (agree.semanticSignature_eq lawful)⟩
    exact ⟨resolveAccess_perm agree.kind agree.entries path, agree.canRead path, agree.canWrite path⟩

end EntryOrder

/-! ### Concrete policies -/

/-- A workspace with a read-only directory, and the entry for the workspace. -/
theorem readOnlyChild_orderIrrelevant : OrderIrrelevant { fileSystem := .ofDirectories [] }
    [⟨.path ⟨["a"], by decide⟩, .write⟩, ⟨.path ⟨["a", "b"], by decide⟩, .read⟩]
    { isAbsolute := true, components := ["a"] } := by
  apply (entryOrder_irrelevant_iff (FileSystem.lawful_ofDirectories []) _ _).mpr
  right
  rintro ⟨outer, inner, outerWrites, settled, inside, _⟩
  have resolved : ∀ path, WriteAt [⟨⟨["a"], by decide⟩, .write⟩, ⟨⟨["a", "b"], by decide⟩, .read⟩]
      path → path = ⟨["a"], by decide⟩ := by
    intro path writes
    simpa [WriteAt] using writes
  rw [resolved outer outerWrites, resolved inner settled.1] at inside
  exact lt_irrefl _ inside.lt

/-- `/a` and `/a/.git/b` are writable: `/a/.git/b/.codex` is writable if `/a` comes first. -/
theorem nestedWorkspace_order_matters : (FileSystemSandboxPolicy.restricted
      [⟨.path ⟨["a"], by decide⟩, .write⟩,
        ⟨.path ⟨["a", ".git", "b"], by decide⟩, .write⟩]).canWritePathWithCwd
      { fileSystem := .ofDirectories [] }
      { isAbsolute := true, components := ["a", ".git", "b", ".codex"] }
      { isAbsolute := true, components := ["a"] } = true ∧
    (FileSystemSandboxPolicy.restricted [⟨.path ⟨["a", ".git", "b"], by decide⟩, .write⟩,
        ⟨.path ⟨["a"], by decide⟩, .write⟩]).canWritePathWithCwd
      { fileSystem := .ofDirectories [] }
      { isAbsolute := true, components := ["a", ".git", "b", ".codex"] }
      { isAbsolute := true, components := ["a"] } = false := by
  decide +kernel

end WeaveCodex.Permissions
