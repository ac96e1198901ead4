/-
Purpose: The access of a path by the nearest listed path above it, and the metadata
  exception by the first writable entry that has the path in its metadata.
-/
import WeaveCodex.Permissions.Policy

namespace WeaveCodex.Permissions

open Library.KeySort
open Paths AbsolutePathBuf FileSystemSandboxPolicy FileSystemAccessMode Option

variable {entries : List ResolvedFileSystemEntry} {path base : AbsolutePathBuf}
  {access : FileSystemAccessMode}

/-! ### Listed paths -/

/-- An entry stands at the path. -/
def Listed (entries : List ResolvedFileSystemEntry) (path : AbsolutePathBuf) : Prop :=
  ∃ entry ∈ entries, entry.path = path

/-- The entries at the path amount to the access. -/
def Settled (entries : List ResolvedFileSystemEntry) (path : AbsolutePathBuf)
    (access : FileSystemAccessMode) : Prop :=
  ⟨path, access⟩ ∈ entries ∧ ∀ entry ∈ entries, entry.path = path → entry.access ≤ access

/-- The nearest path above `path` that is listed. -/
def Nearest (entries : List ResolvedFileSystemEntry) (base path : AbsolutePathBuf) : Prop :=
  Listed entries base ∧ base ≤ path ∧ ∀ other, Listed entries other → other ≤ path → other ≤ base

theorem Settled.listed (settled : Settled entries path access) : Listed entries path :=
  ⟨_, settled.1, rfl⟩

theorem Settled.unique {other : FileSystemAccessMode} (first : Settled entries path access)
    (second : Settled entries path other) : access = other :=
  le_antisymm (second.2 _ first.1 rfl) (first.2 _ second.1 rfl)

variable {other : AbsolutePathBuf}

theorem Nearest.unique (first : Nearest entries base path) (second : Nearest entries other path) :
    base = other :=
  le_antisymm (second.2.2 _ first.1 first.2.1) (first.2.2 _ second.1 second.2.1)

/-- A listed path is its own nearest. -/
theorem Listed.nearest (listed : Listed entries path) : Nearest entries path path :=
  ⟨listed, le_rfl, fun _ _ below => below⟩

variable {entry : ResolvedFileSystemEntry}

/-- The entry that decides stands at the nearest path, and no entry there is stricter. -/
theorem nearest_of_maxByKey (found : maxByKey resolvedEntryPrecedence
      (entries.filter fun other => path.startsWith other.path) = some entry) :
    Nearest entries entry.path path ∧ Settled entries entry.path entry.access := by
  obtain ⟨mem, inside⟩ := List.mem_filter.mp (mem_of_maxByKey found)
  rw [startsWith_iff] at inside
  have largest : ∀ other ∈ entries, other.path ≤ path → other.path.depth < entry.path.depth ∨
        other.path.depth = entry.path.depth ∧ other.access ≤ entry.access := by
    intro other otherMem below
    have less := le_of_maxByKey found other
      (List.mem_filter.mpr ⟨otherMem, startsWith_iff.mpr below⟩)
    rwa [resolvedEntryPrecedence, resolvedEntryPrecedence, Prod.Lex.toLex_le_toLex] at less
  constructor
  · refine ⟨⟨entry, mem, rfl⟩, inside, ?_⟩
    rintro _ ⟨other, otherMem, rfl⟩ below
    apply le_of_depth_le below inside
    rcases largest other otherMem below with shorter | same
    · exact shorter.le
    · exact same.1.le
  · refine ⟨mem, fun other otherMem same => ?_⟩
    rcases largest other otherMem (same ▸ inside) with shorter | equal
    · rw [same] at shorter
      exact absurd shorter (lt_irrefl _)
    · exact equal.2

theorem decidingAccess_cases (entries : List ResolvedFileSystemEntry) (path : AbsolutePathBuf) :
    (∃ base, Nearest entries base path ∧ Settled entries base (decidingAccess entries path)) ∨
      decidingAccess entries path = .deny ∧ ∀ base, Listed entries base → ¬ base ≤ path := by
  cases found : maxByKey resolvedEntryPrecedence
      (entries.filter fun other => path.startsWith other.path) with
  | none =>
    right
    constructor
    · simp [decidingAccess, found]
    · rintro _ ⟨entry, mem, rfl⟩ below
      rw [maxByKey_eq_none, List.filter_eq_nil_iff] at found
      exact found entry mem (startsWith_iff.mpr below)
  | some entry =>
    left
    have nearest := nearest_of_maxByKey found
    refine ⟨entry.path, nearest.1, ?_⟩
    simpa [decidingAccess, found] using nearest.2

theorem decidingAccess_of_nearest (nearest : Nearest entries base path)
    (settled : Settled entries base access) : decidingAccess entries path = access := by
  rcases decidingAccess_cases entries path with ⟨_, otherNearest, otherSettled⟩ | ⟨_, none⟩
  · rw [← nearest.unique otherNearest] at otherSettled
    exact otherSettled.unique settled
  · exact absurd nearest.2.1 (none base nearest.1)

theorem Listed.settled (listed : Listed entries path) :
    Settled entries path (decidingAccess entries path) := by
  rcases decidingAccess_cases entries path with ⟨_, nearest, settled⟩ | ⟨_, none⟩
  · rw [nearest.unique listed.nearest] at settled
    exact settled
  · exact absurd le_rfl (none path listed)

/-- A path that can be read or written lies below an entry that says so. -/
theorem decidingAccess_eq_iff (granted : access ≠ .deny) : decidingAccess entries path = access ↔
    ∃ base, Nearest entries base path ∧ Settled entries base access := by
  constructor
  · rintro rfl
    rcases decidingAccess_cases entries path with found | ⟨denied, _⟩
    · exact found
    · contradiction
  · rintro ⟨_, nearest, settled⟩
    exact decidingAccess_of_nearest nearest settled

theorem decidingAccess_write_iff : decidingAccess entries path = .write ↔
    ∃ base, Nearest entries base path ∧ Settled entries base .write :=
  decidingAccess_eq_iff (by decide)

/-- Only the members of the list matter. -/
theorem decidingAccess_congr {others : List ResolvedFileSystemEntry}
    (same : ∀ entry, entry ∈ entries ↔ entry ∈ others) (path : AbsolutePathBuf) :
    decidingAccess entries path = decidingAccess others path := by
  have listed : ∀ base, Listed entries base ↔ Listed others base := by
    intro base
    simp only [Listed, same]
  rcases decidingAccess_cases others path with ⟨base, nearest, settled⟩ | ⟨denied, none⟩
  · have sameNearest : Nearest entries base path := by
      simpa only [Nearest, listed] using nearest
    apply decidingAccess_of_nearest sameNearest
    simpa only [Settled, same] using settled
  · rw [denied]
    rcases decidingAccess_cases entries path with ⟨base, nearest, _⟩ | ⟨alsoDenied, _⟩
    · exact absurd nearest.2.1 (none base ((listed base).mp nearest.1))
    · exact alsoDenied

/-! ### Metadata -/

/-- A writable entry stands at the path. -/
def WriteAt (entries : List ResolvedFileSystemEntry) (path : AbsolutePathBuf) : Prop :=
  ⟨path, .write⟩ ∈ entries

/-- The path lies in the metadata of `base`. -/
def InMetadata (base path : AbsolutePathBuf) : Prop :=
  ∃ name, metadataPath base name ≤ path

/-- The path lies in the metadata of `base`, and no writable entry opens it there. -/
def Denies (entries : List ResolvedFileSystemEntry) (base path : AbsolutePathBuf) : Prop :=
  ∃ name, metadataPath base name ≤ path ∧
    ∀ writer, WriteAt entries writer → writer ≤ path → ¬ metadataPath base name ≤ writer

theorem WriteAt.listed (writes : WriteAt entries path) : Listed entries path :=
  ⟨_, writes, rfl⟩

theorem Denies.inMetadata (denies : Denies entries base path) : InMetadata base path := by
  obtain ⟨name, inside, _⟩ := denies
  exact ⟨name, inside⟩

theorem lt_metadataPath (path : AbsolutePathBuf) (name : MetadataName) :
    path < metadataPath path name :=
  lt_child

theorem InMetadata.lt (inside : InMetadata base path) : base < path := by
  obtain ⟨name, below⟩ := inside
  exact (lt_metadataPath base name).trans_le below

/-- The metadata of a path that is nested in it holds whatever the path holds. -/
theorem InMetadata.of_lt (inside : InMetadata base path) (deeper : base < other)
    (below : other ≤ path) : InMetadata base other := by
  obtain ⟨name, metadataBelow⟩ := inside
  exact ⟨name, child_le_of_lt metadataBelow below deeper⟩

/-- A nested writable entry opens the metadata in which it lies. -/
theorem Denies.not_writeAt (denies : Denies entries base path) (deeper : base < other)
    (below : other ≤ path) : ¬ WriteAt entries other := by
  obtain ⟨_, inside, closed⟩ := denies
  intro writes
  exact closed other writes below (child_le_of_lt inside below deeper)

variable {name : MetadataName}

theorem strip_head_iff :
    (path.strip base).bind List.head? = some name.text ↔ metadataPath base name ≤ path := by
  rw [strip]
  constructor
  · intro found
    split at found
    · rename_i inside
      obtain ⟨_, same⟩ := startsWith_iff.mp inside
      rw [bind_some, ← same, List.drop_left] at found
      obtain ⟨tail, rfl⟩ := List.head?_eq_some_iff.mp found
      refine ⟨tail, ?_⟩
      rw [← same, metadataPath, child, List.append_assoc, List.singleton_append]
    · cases found
  · rintro ⟨tail, same⟩
    have inside : base ≤ path := (lt_metadataPath base name).le.trans ⟨tail, same⟩
    rw [if_pos (startsWith_iff.mpr inside), bind_some, ← same]
    simp [metadataPath, child]

variable {child : AbsolutePathBuf}

theorem metadataChildOf_eq_some : metadataChildOf entry path = some (child, name) ↔
    child = metadataPath entry.path name ∧ metadataPath entry.path name ≤ path := by
  rw [← strip_head_iff]
  simp only [metadataChildOf, bind_eq_bind, bind_eq_some_iff, pure_def,
    some.injEq, Prod.mk.injEq]
  constructor
  · rintro ⟨relative, stripped, _, head, _, named, rfl, rfl⟩
    rw [metadataPathName_eq_some.mp named] at head
    exact ⟨rfl, relative, stripped, head⟩
  · rintro ⟨rfl, relative, stripped, head⟩
    exact ⟨relative, stripped, _, head, name, metadataPathName_eq_some.mpr rfl, rfl, rfl⟩

theorem metadataChildOf_eq_none : metadataChildOf entry path = none ↔ ¬ InMetadata entry.path path := by
  rw [eq_none_iff_forall_ne_some]
  constructor
  · rintro missing ⟨name, inside⟩
    exact missing (metadataPath entry.path name, name) (metadataChildOf_eq_some.mpr ⟨rfl, inside⟩)
  · rintro outside ⟨_, name⟩ found
    exact outside ⟨name, (metadataChildOf_eq_some.mp found).2⟩

theorem hasExplicitWriteEntryForMetadataPath_iff :
    hasExplicitWriteEntryForMetadataPath entries child path = true ↔
      ∃ writer, WriteAt entries writer ∧ writer ≤ path ∧ child ≤ writer := by
  simp only [hasExplicitWriteEntryForMetadataPath, List.any_eq_true, Bool.and_eq_true,
    canWrite, decide_eq_true_eq, startsWith_iff]
  constructor
  · rintro ⟨⟨writer, _⟩, mem, ⟨rfl, below⟩, above⟩
    exact ⟨writer, mem, below, above⟩
  · rintro ⟨_, mem, below, above⟩
    exact ⟨_, mem, ⟨rfl, below⟩, above⟩

/-- The writable entries in the order of the list. -/
def writers (entries : List ResolvedFileSystemEntry) : List ResolvedFileSystemEntry :=
  entries.filter fun entry => entry.access.canWrite

theorem mem_writers : entry ∈ writers entries ↔ entry ∈ entries ∧ entry.access = .write := by
  simp [writers, canWrite]

/-- The first writable entry in whose metadata the path lies. -/
def FirstGuard (entries : List ResolvedFileSystemEntry) (base path : AbsolutePathBuf) : Prop :=
  ∃ earlier later, writers entries = earlier ++ ⟨base, .write⟩ :: later ∧
    ∀ entry ∈ earlier, ¬ InMetadata entry.path path

theorem FirstGuard.writeAt (guard : FirstGuard entries base path) : WriteAt entries base := by
  obtain ⟨_, _, split, _⟩ := guard
  have mem : (⟨base, .write⟩ : ResolvedFileSystemEntry) ∈ writers entries := by
    rw [split]
    simp
  exact (mem_writers.mp mem).1

/-- The metadata child is that of the first entry that guards the path. -/
theorem metadataChildOfWritableRoot_eq_some :
    metadataChildOfWritableRoot entries path = some (child, name) ↔
      ∃ base, FirstGuard entries base path ∧ child = metadataPath base name ∧
        metadataPath base name ≤ path := by
  constructor
  · intro found
    obtain ⟨earlier, ⟨base, access⟩, later, split, answer, before⟩ :=
      List.findSome?_eq_some_iff.mp found
    have mem : (⟨base, access⟩ : ResolvedFileSystemEntry) ∈ writers entries := by
      rw [writers, split]
      simp
    obtain rfl : access = .write := (mem_writers.mp mem).2
    refine ⟨base, ⟨earlier, later, split, fun entry earlierMem => ?_⟩,
      metadataChildOf_eq_some.mp answer⟩
    exact metadataChildOf_eq_none.mp (before entry earlierMem)
  · rintro ⟨base, ⟨earlier, later, split, before⟩, inside⟩
    apply List.findSome?_eq_some_iff.mpr
    refine ⟨earlier, ⟨base, .write⟩, later, split, metadataChildOf_eq_some.mpr inside, ?_⟩
    intro entry mem
    exact metadataChildOf_eq_none.mpr (before entry mem)

theorem metadataDenied_iff : metadataDenied entries path = true ↔
    ∃ base, FirstGuard entries base path ∧ Denies entries base path := by
  have denied_iff : ∀ child, (!hasExplicitWriteEntryForMetadataPath entries child path) = true ↔
      ∀ writer, WriteAt entries writer → writer ≤ path → ¬ child ≤ writer := by
    intro child
    rw [Bool.not_eq_true', ← Bool.not_eq_true, hasExplicitWriteEntryForMetadataPath_iff]
    simp only [not_exists, not_and]
  rw [metadataDenied]
  constructor
  · intro denied
    split at denied
    · cases denied
    · rename_i name found
      obtain ⟨base, guard, rfl, inside⟩ := metadataChildOfWritableRoot_eq_some.mp found
      exact ⟨base, guard, name, inside, (denied_iff _).mp denied⟩
  · rintro ⟨base, guard, _, inside, closed⟩
    rw [metadataChildOfWritableRoot_eq_some.mpr ⟨base, guard, rfl, inside⟩]
    exact (denied_iff _).mpr closed

/-- If some writable entry has the path in its metadata, there is a first one. -/
theorem exists_firstGuard (writes : WriteAt entries base) (inside : InMetadata base path) :
    ∃ first, FirstGuard entries first path ∧ InMetadata first path := by
  cases found : metadataChildOfWritableRoot entries path with
  | none =>
    have missing := List.findSome?_eq_none_iff.mp found ⟨base, .write⟩ (mem_writers.mpr ⟨writes, rfl⟩)
    exact absurd inside (metadataChildOf_eq_none.mp missing)
  | some =>
    obtain ⟨first, guard, _, below⟩ := metadataChildOfWritableRoot_eq_some.mp found
    exact ⟨first, guard, _, below⟩

/-! ### What a restricted policy allows -/

section Restricted

variable {host : Host} {policy : FileSystemSandboxPolicy} {cwd : Path}
  (restricted : policy.kind = .restricted)
include restricted

theorem canWritePathWithCwd_iff (path : Path) : policy.canWritePathWithCwd host path cwd = true ↔
    ∃ target, resolveCandidatePath host path cwd = some target ∧
      decidingAccess (policy.resolvedEntriesWithCwd host cwd) target = .write ∧
        (policy.hasFullDiskWriteAccess = false →
          metadataDenied (policy.resolvedEntriesWithCwd host cwd) target = false) := by
  cases resolved : resolveCandidatePath host path cwd with
  | none =>
    simp [canWritePathWithCwd, resolveAccessWithCwd, restricted, resolved, canWrite]
  | some =>
    cases full : policy.hasFullDiskWriteAccess <;>
      simp [canWritePathWithCwd, resolveAccessWithCwd,
        isMetadataWriteDenied, restricted, resolved, full,
        canWrite]

theorem canWritePathWithCwd_asPath_iff (path : AbsolutePathBuf) :
    policy.canWritePathWithCwd host path.asPath cwd = true ↔
      decidingAccess (policy.resolvedEntriesWithCwd host cwd) path = .write ∧
        (policy.hasFullDiskWriteAccess = false →
          metadataDenied (policy.resolvedEntriesWithCwd host cwd) path = false) := by
  rw [canWritePathWithCwd_iff restricted, resolveCandidatePath_asPath]
  constructor
  · rintro ⟨_, same, granted⟩
    rw [some.inj same]
    exact granted
  · intro granted
    exact ⟨path, rfl, granted⟩

end Restricted

end WeaveCodex.Permissions
