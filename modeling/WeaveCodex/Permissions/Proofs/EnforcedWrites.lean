/-
Purpose: What the writable roots of a policy, and the rule of Seatbelt for writes, let through,
  compared with what the policy grants: the condition on the entries under which both are the same.
-/
import WeaveCodex.Permissions.Proofs.EntryOrder

namespace WeaveCodex.Permissions

open Library.KeySort
open Paths FileSystemSandboxPolicy AbsolutePathBuf FileSystem List

/-! ### What a root keeps closed -/

section Entries

variable {entries : List ResolvedFileSystemEntry} {cwd : Option AbsolutePathBuf}
  {root base path : AbsolutePathBuf}

/-- No writable entry before the one for the path has the path in its metadata. -/
def GuardsItself (entries : List ResolvedFileSystemEntry) (path : AbsolutePathBuf) : Prop :=
  FirstGuard entries path path

/-- A writable root does not let a path through: a narrower path that is not writable, its
own metadata or the `.codex` of the workspace stands between. -/
def Blocked (entries : List ResolvedFileSystemEntry) (cwd : Option AbsolutePathBuf)
    (root path : AbsolutePathBuf) : Prop :=
  (∃ middle access, Settled entries middle access ∧ access ≠ .write ∧ root < middle ∧ middle ≤ path) ∨
    (∃ name, metadataPath root name ≤ path ∧ ¬ Listed entries (metadataPath root name) ∧
      GuardsItself entries root) ∨
    (cwd = some root ∧ metadataPath root .codex ≤ path ∧ ¬ Listed entries (metadataPath root .codex))

/-- A root that is nested in another one has its metadata closed in both, and the `.codex`
of a workspace that does not protect it is open in a root around it. -/
def Enforceable (entries : List ResolvedFileSystemEntry) (cwd : Option AbsolutePathBuf) : Prop :=
  (∀ outer inner name, Settled entries outer .write → Settled entries inner .write →
      outer < inner → ¬ Listed entries (metadataPath inner name) → GuardsItself entries inner →
      Blocked entries cwd outer inner) ∧
    ∀ workspace, cwd = some workspace → Settled entries workspace .write →
      ¬ Listed entries (metadataPath workspace .codex) → ¬ GuardsItself entries workspace →
      ∃ outer, Settled entries outer .write ∧ outer < workspace ∧ ¬ Blocked entries cwd outer workspace

/-- Of two elements at which a list is split, one stands before the other. -/
theorem mem_or_mem_of_split {α : Type*} {first rest second others : List α} {one two : α}
    (same : first ++ one :: rest = second ++ two :: others) :
    one = two ∨ one ∈ second ∨ two ∈ first := by
  rcases append_eq_append_iff.mp same with ⟨_ | _, rfl, back⟩ | ⟨_ | _, rfl, back⟩ <;>
    cases back <;> simp

/-- A path that guards itself comes first, if all that could come before it has it in its
metadata. -/
theorem GuardsItself.firstGuard (guards : GuardsItself entries base) (inside : InMetadata base path)
    (nested : ∀ other, WriteAt entries other → InMetadata other path → other ≠ base →
      InMetadata other base) : FirstGuard entries base path := by
  obtain ⟨first, firstGuard, firstInside⟩ := exists_firstGuard guards.writeAt inside
  by_cases same : first = base
  · exact same ▸ firstGuard
  exfalso
  have firstNested := nested first firstGuard.writeAt firstInside same
  obtain ⟨_, _, split, before⟩ := guards
  obtain ⟨_, _, splitFirst, beforeFirst⟩ := firstGuard
  rw [split] at splitFirst
  -- One of the two entries stands before the other, where it must not.
  rcases mem_or_mem_of_split splitFirst with equal | mem | mem
  · exact same (congrArg ResolvedFileSystemEntry.path equal).symm
  · exact beforeFirst _ mem inside
  · exact before _ mem firstNested

section

variable (nearest : Nearest entries base path)
include nearest

/-- A path below a writable entry is denied as metadata if it lies in the metadata of the
nearest listed path and that one guards itself. -/
theorem metadataDenied_nearest_iff (settled : Settled entries base .write) :
    metadataDenied entries path = true ↔
      ∃ name, metadataPath base name ≤ path ∧ ¬ Listed entries (metadataPath base name) ∧
        GuardsItself entries base := by
  have unlisted : ∀ name, metadataPath base name ≤ path →
      ¬ Listed entries (metadataPath base name) := by
    intro name below listed
    exact absurd (lt_metadataPath base name) (nearest.2.2 _ listed below).not_gt
  rw [metadataDenied_iff]
  constructor
  · rintro ⟨_, guard, denies⟩
    have granted := decidingAccess_of_nearest nearest settled
    obtain rfl := nearest.unique (denies.nearest guard.writeAt granted).1
    obtain ⟨earlier, later, split, before⟩ := guard
    obtain ⟨name, below, _⟩ := denies
    refine ⟨name, below, unlisted name below, earlier, later, split, fun entry mem inside => ?_⟩
    obtain ⟨other, otherBelow⟩ := inside
    exact before entry mem ⟨other, otherBelow.trans nearest.2.1⟩
  · rintro ⟨name, below, _, guards⟩
    refine ⟨base, ?_, name, below, fun writer writes writerBelow above => ?_⟩
    · apply guards.firstGuard ⟨name, below⟩
      intro other writes inside apart
      have otherBelow := nearest.2.2 other writes.listed inside.lt.le
      exact inside.of_lt (lt_of_le_of_ne otherBelow apart) nearest.2.1
    · have deeper := nearest.2.2 writer writes.listed writerBelow
      exact absurd (lt_metadataPath base name) (above.trans deeper).not_gt

/-- What a root lets through below a nested listed path is decided there. -/
theorem blocked_nearest_iff (outer : root < base) :
    Blocked entries cwd root path ↔ Blocked entries cwd root base := by
  have children : ∀ name, metadataPath root name ≤ path ↔ metadataPath root name ≤ base := by
    intro name
    constructor
    · intro below
      exact child_le_of_lt below nearest.2.1 outer
    · intro below
      exact below.trans nearest.2.1
  have middles : ∀ middle access, Settled entries middle access → (middle ≤ path ↔ middle ≤ base) := by
    intro middle access settled
    constructor
    · exact nearest.2.2 middle settled.listed
    · intro below
      exact below.trans nearest.2.1
  rw [Blocked, Blocked]
  simp only [children]
  apply or_congr_left
  apply exists_congr
  intro middle
  apply exists_congr
  intro access
  apply and_congr_right
  intro settled
  rw [middles middle access settled]

/-- The nearest listed path blocks the metadata that the policy denies, and the `.codex` of
the workspace. -/
theorem blocked_self_iff (settled : Settled entries base .write) :
    Blocked entries cwd base path ↔ metadataDenied entries path = true ∨
      (cwd = some base ∧ metadataPath base .codex ≤ path ∧
        ¬ Listed entries (metadataPath base .codex)) := by
  rw [Blocked, metadataDenied_nearest_iff nearest settled]
  constructor
  · rintro (⟨middle, _, middleSettled, _, deeper, below⟩ | rest)
    · exact absurd deeper (nearest.2.2 middle middleSettled.listed below).not_gt
    · exact rest
  · exact .inr

end

/-- What an enforceable root lets through is granted. -/
theorem granted_of_unblocked (enforceable : Enforceable entries cwd)
    (rootSettled : Settled entries root .write) (below : root ≤ path)
    (unblocked : ¬ Blocked entries cwd root path) :
    decidingAccess entries path = .write ∧ metadataDenied entries path = false := by
  rcases decidingAccess_cases entries path with ⟨base, nearest, settled⟩ | ⟨_, none⟩
  · have inside := nearest.2.2 root rootSettled.listed below
    have granted : decidingAccess entries path = .write := by
      rcases inside.eq_or_lt with rfl | nested
      · exact settled.unique rootSettled
      · by_contra refused
        exact unblocked (.inl ⟨base, _, settled, refused, nested, nearest.2.1⟩)
    rw [granted] at settled
    refine ⟨granted, Bool.eq_false_of_not_eq_true fun denied => unblocked ?_⟩
    rcases inside.eq_or_lt with rfl | nested
    · exact (blocked_self_iff nearest settled).mpr (.inl denied)
    · obtain ⟨name, _, unlisted, guards⟩ := (metadataDenied_nearest_iff nearest settled).mp denied
      exact (blocked_nearest_iff nearest nested).mpr
        (enforceable.1 root base name rootSettled settled nested unlisted guards)
  · exact absurd below (none root rootSettled.listed)

/-- The roots let through what the entries grant if and only if the entries are
enforceable. -/
theorem unblocked_iff_granted :
    (∀ path, (∃ root, Settled entries root .write ∧ root ≤ path ∧ ¬ Blocked entries cwd root path) ↔
      decidingAccess entries path = .write ∧ metadataDenied entries path = false) ↔
      Enforceable entries cwd := by
  constructor
  · intro same
    constructor
    · intro outer inner name outerSettled innerSettled nested unlisted guards
      by_contra unblocked
      have nearest := nearest_metadataPath innerSettled.listed unlisted
      have denied := (metadataDenied_nearest_iff nearest innerSettled).mpr
        ⟨name, le_rfl, unlisted, guards⟩
      have granted := (same (metadataPath inner name)).mp ⟨outer, outerSettled,
        nested.le.trans nearest.2.1, (blocked_nearest_iff nearest nested).not.mpr unblocked⟩
      exact Bool.false_ne_true (granted.2.symm.trans denied)
    · intro workspace isCwd settled unlisted unguarded
      have nearest := nearest_metadataPath settled.listed unlisted
      have undenied : metadataDenied entries (metadataPath workspace .codex) = false := by
        rw [← Bool.not_eq_true, metadataDenied_nearest_iff nearest settled]
        rintro ⟨_, _, _, guards⟩
        exact unguarded guards
      obtain ⟨outer, outerSettled, below, unblocked⟩ := (same (metadataPath workspace .codex)).mpr
        ⟨decidingAccess_of_nearest nearest settled, undenied⟩
      have inside := nearest.2.2 outer outerSettled.listed below
      rcases inside.eq_or_lt with rfl | nested
      · exact absurd (.inr (.inr ⟨isCwd, le_rfl, unlisted⟩)) unblocked
      · exact ⟨outer, outerSettled, nested, (blocked_nearest_iff nearest nested).not.mp unblocked⟩
  · intro enforceable path
    constructor
    · rintro ⟨_, settled, below, unblocked⟩
      exact granted_of_unblocked enforceable settled below unblocked
    · rintro ⟨granted, undenied⟩
      obtain ⟨base, nearest, settled⟩ := decidingAccess_write_iff.mp granted
      by_cases blocked : Blocked entries cwd base path
      · rcases (blocked_self_iff nearest settled).mp blocked with denied | ⟨isCwd, below, unlisted⟩
        · exact absurd (undenied.symm.trans denied) Bool.false_ne_true
        · have unguarded : ¬ GuardsItself entries base := by
            intro guards
            have denied := (metadataDenied_nearest_iff nearest settled).mpr
              ⟨.codex, below, unlisted, guards⟩
            exact Bool.false_ne_true (undenied.symm.trans denied)
          obtain ⟨outer, outerSettled, nested, unblocked⟩ :=
            enforceable.2 base isCwd settled unlisted unguarded
          exact ⟨outer, outerSettled, nested.le.trans nearest.2.1,
            (blocked_nearest_iff nearest nested).not.mpr unblocked⟩
      · exact ⟨base, settled, nearest.2.1, blocked⟩

end Entries

/-! ### The writable roots of a policy -/

variable {path : AbsolutePathBuf}

theorem WriteAt.metadataDenied {entries : List ResolvedFileSystemEntry}
    (writes : WriteAt entries path) : metadataDenied entries path = false := by
  rw [← Bool.not_eq_true, metadataDenied_iff]
  rintro ⟨_, _, denies⟩
  exact denies.not_writeAt denies.inMetadata.lt le_rfl writes

section Roots

variable {host : Host} {policy : FileSystemSandboxPolicy} {cwd : Path}
  (restricted : policy.kind = .restricted)
include restricted

/-- A path with an entry can be written if its entries say so. -/
theorem canWrite_of_listed
    (listed : Listed (policy.resolvedEntriesWithCwd host cwd) path) :
    policy.canWritePathWithCwd host path.asPath cwd = true ↔
      Settled (policy.resolvedEntriesWithCwd host cwd) path .write := by
  rw [canWritePathWithCwd_asPath_iff restricted]
  constructor
  · rintro ⟨granted, _⟩
    rw [← granted]
    exact listed.settled
  · intro settled
    exact ⟨decidingAccess_of_nearest listed.nearest settled, fun _ => WriteAt.metadataDenied settled.1⟩

theorem mem_writableEntries_iff : path ∈ policy.writableEntries host cwd ↔
    Settled (policy.resolvedEntriesWithCwd host cwd) path .write := by
  simp only [writableEntries, mem_map, mem_filter, FileSystemAccessMode.canWrite, decide_eq_true_eq]
  constructor
  · rintro ⟨entry, ⟨⟨mem, _⟩, writable⟩, rfl⟩
    exact (canWrite_of_listed restricted ⟨entry, mem, rfl⟩).mp writable
  · intro settled
    exact ⟨⟨path, .write⟩, ⟨⟨settled.1, rfl⟩, (canWrite_of_listed restricted settled.listed).mpr
      settled⟩, rfl⟩

/-- A metadata path of a root is refused by a narrower entry, or by the root itself. -/
theorem canWrite_metadataPath_eq_false (notFull : policy.hasFullDiskWriteAccess = false)
    {root : AbsolutePathBuf}
    (settled : Settled (policy.resolvedEntriesWithCwd host cwd) root .write)
    (name : MetadataName) :
    policy.canWritePathWithCwd host (metadataPath root name).asPath cwd = false ↔
      (∃ access, Settled (policy.resolvedEntriesWithCwd host cwd) (metadataPath root name) access ∧
          access ≠ .write) ∨
        (¬ Listed (policy.resolvedEntriesWithCwd host cwd) (metadataPath root name) ∧
          GuardsItself (policy.resolvedEntriesWithCwd host cwd) root) := by
  by_cases listed : Listed (policy.resolvedEntriesWithCwd host cwd) (metadataPath root name)
  · rw [← Bool.not_eq_true, canWrite_of_listed restricted listed]
    constructor
    · intro refused
      exact .inl ⟨_, listed.settled, fun granted => refused (granted ▸ listed.settled)⟩
    · rintro (⟨_, narrower, refused⟩ | ⟨unlisted, _⟩) writable
      · exact refused (narrower.unique writable)
      · exact unlisted listed
  · have nearest := nearest_metadataPath settled.listed listed
    rw [← Bool.not_eq_true, canWritePathWithCwd_asPath_iff restricted,
      decidingAccess_of_nearest nearest settled]
    simp only [notFull, true_and, forall_const]
    rw [Bool.not_eq_false, metadataDenied_nearest_iff nearest settled]
    constructor
    · rintro ⟨_, _, _, guards⟩
      exact .inr ⟨listed, guards⟩
    · rintro (⟨_, narrower, _⟩ | ⟨_, guards⟩)
      · exact absurd narrower.listed listed
      · exact ⟨name, le_rfl, listed, guards⟩

end Roots

/-- A root lets a path through that is in none of its protected parts. -/
theorem WritableRoot.isPathWritable_iff {writableRoot : WritableRoot} :
    writableRoot.isPathWritable path = true ↔
      writableRoot.root ≤ path ∧ (∀ subpath ∈ writableRoot.readOnlySubpaths, ¬ subpath ≤ path) ∧
        ∀ name ∈ writableRoot.protectedMetadataNames, ¬ metadataPath writableRoot.root name ≤ path := by
  have names : writableRoot.pathContainsProtectedMetadataName path = true ↔
      ∃ name ∈ writableRoot.protectedMetadataNames, metadataPath writableRoot.root name ≤ path := by
    simp only [← strip_head_iff, pathContainsProtectedMetadataName]
    cases (path.strip writableRoot.root).bind head? <;> simp
  simp [isPathWritable, ← Bool.not_eq_true, names]

/-! ### Without links and metadata -/

/-- A file system without symbolic links in which no metadata exists. -/
structure WithoutMetadata (fileSystem : FileSystem) : Prop where
  lawful : fileSystem.Lawful
  noSymlinks : ∀ path, fileSystem.isSymlink path = false
  noMetadata : ∀ path name, fileSystem.symlinkMetadata (metadataPath path name) = none

/-- Without links a carveout is an entry strictly below the root. -/
theorem carveoutPath_eq_some {host : Host}
    (normal : ∀ path, normalizeEffectiveAbsolutePath host.fileSystem path = path)
    {root entryPath carveout : AbsolutePathBuf} {raws : List AbsolutePathBuf}
    (same : ∀ raw ∈ raws, raw = root) :
    carveoutPath host root raws entryPath = some carveout ↔
      carveout = entryPath ∧ root < entryPath := by
  by_cases below : root ≤ entryPath
  · rcases below.eq_or_lt with rfl | deeper
    · simp [carveoutPath, normal]
    · have found : carveoutPath host root raws entryPath = some entryPath := by
        cases parent : root.parent <;>
          simp [carveoutPath, normal, below, deeper.ne', parent]
      rw [found, Option.some.injEq]
      exact ⟨fun equal => ⟨equal.symm, deeper⟩, fun answer => answer.1.symm⟩
  · have missing : raws.findSome? (carveoutBelow host root entryPath) = none := by
      rw [findSome?_eq_none_iff]
      intro raw mem
      rw [Option.eq_none_iff_forall_ne_some]
      intro value found
      exact below (same raw mem ▸ le_of_carveoutBelow found)
    have strict : ¬ root < entryPath := fun deeper => below deeper.le
    have apart : entryPath ≠ root := by
      rintro rfl
      exact below le_rfl
    simp [carveoutPath, normal, missing, below, strict, apart]

namespace WithoutMetadata

variable {host : Host} (plain : WithoutMetadata host.fileSystem)
include plain

theorem metadata_eq_none (path : AbsolutePathBuf) (name : MetadataName) :
    host.fileSystem.metadata (metadataPath path name) = none := by
  rw [metadata]
  cases found : host.fileSystem.canonicalize (metadataPath path name) with
  | none => rfl
  | some =>
    rw [plain.lawful.canonicalize_of_noSymlinks (fun other _ => plain.noSymlinks other) found]
    exact plain.noMetadata path name

theorem defaultReadOnlySubpaths (root : AbsolutePathBuf) (isWorkspace : Bool) :
    defaultReadOnlySubpathsForWritableRoot host root isWorkspace =
      if isWorkspace then [metadataPath root .codex] else [] := by
  have missing := plain.metadata_eq_none root
  cases isWorkspace <;>
    simp [defaultReadOnlySubpathsForWritableRoot, isDir, isFile, missing, dedupAbsolutePaths, unseen]

variable {policy : FileSystemSandboxPolicy} {cwd : Path} {root : AbsolutePathBuf}
  (restricted : policy.kind = .restricted)
include restricted

/-- The read-only paths of a root: the narrower entries, and `.codex` in the workspace. -/
theorem mem_readOnlySubpaths {subpath : AbsolutePathBuf} :
    subpath ∈ (policy.writableRootFor host cwd root).readOnlySubpaths ↔
      (fromAbsolutePath host.env cwd = some root ∧ subpath = metadataPath root .codex ∧
          ¬ Listed (policy.resolvedEntriesWithCwd host cwd) subpath) ∨
        ∃ access, Settled (policy.resolvedEntriesWithCwd host cwd) subpath access ∧
          access ≠ .write ∧ root < subpath := by
  have normal := normalizeEffective_of_noSymlinks plain.lawful plain.noSymlinks
  have workspace : ((fromAbsolutePath host.env cwd).map fun cwd =>
      normalizeEffectiveAbsolutePath host.fileSystem cwd) = fromAbsolutePath host.env cwd := by
    simp only [normal, Option.map_id']
  have explicit : ∀ path,
      hasExplicitResolvedPathEntry (policy.resolvedEntriesWithCwd host cwd) path = true ↔
        Listed (policy.resolvedEntriesWithCwd host cwd) path := by
    intro path
    simp [hasExplicitResolvedPathEntry, Listed]
  rw [writableRootFor, dedupAbsolutePaths, mem_unseen, and_iff_left not_mem_nil, mem_append, workspace]
  apply or_congr
  · rw [plain.defaultReadOnlySubpaths, mem_filter, Bool.not_eq_true', ← Bool.not_eq_true,
      explicit, ← and_assoc]
    apply and_congr_left
    intro _
    by_cases isWorkspace : fromAbsolutePath host.env cwd = some root <;> simp [isWorkspace]
  · simp only [mem_filterMap, mem_filter]
    constructor
    · rintro ⟨entry, ⟨⟨mem, _⟩, refused⟩, found⟩
      obtain ⟨rfl, deeper⟩ := (carveoutPath_eq_some normal fun raw rawMem => by
        simpa only [normal] using of_decide_eq_true (mem_filter.mp rawMem).2).mp found
      have listed : Listed (policy.resolvedEntriesWithCwd host cwd) entry.path :=
        ⟨entry, mem, rfl⟩
      refine ⟨_, listed.settled, fun granted => ?_, deeper⟩
      rw [Bool.not_eq_true', ← Bool.not_eq_true, canWrite_of_listed restricted listed] at refused
      exact refused (granted ▸ listed.settled)
    · rintro ⟨access, settled, refused, deeper⟩
      refine ⟨⟨subpath, access⟩, ⟨⟨settled.1, ?_⟩, ?_⟩, ?_⟩
      · simpa [FileSystemAccessMode.canWrite] using refused
      · rw [Bool.not_eq_true', ← Bool.not_eq_true, canWrite_of_listed restricted settled.listed]
        intro writable
        exact refused (settled.unique writable)
      · apply (carveoutPath_eq_some normal fun raw rawMem => by
          simpa only [normal] using of_decide_eq_true (mem_filter.mp rawMem).2).mpr
        exact ⟨rfl, deeper⟩

omit restricted in
/-- The protected names of a root: those whose path the policy does not grant. -/
theorem mem_protectedMetadataNames {name : MetadataName} :
    name ∈ (policy.writableRootFor host cwd root).protectedMetadataNames ↔
      policy.canWritePathWithCwd host (metadataPath root name).asPath cwd = false := by
  have normal := normalizeEffective_of_noSymlinks plain.lawful plain.noSymlinks
  simp only [writableRootFor, protectedMetadataNamesForWritableRoot, mem_filter,
    mem_protectedMetadataPathNames, true_and, all_eq_true, mem_cons, normal,
    decide_eq_true_eq, Bool.not_eq_true']
  constructor
  · intro all
    exact all root (.inl rfl)
  · rintro refused _ (rfl | ⟨_, rfl⟩)
    · exact refused
    · exact refused

variable (notFull : policy.hasFullDiskWriteAccess = false)
include notFull

omit restricted in
/-- The rule of Seatbelt for writes lets through what some root does. -/
theorem seatbeltWrites_eq (path : AbsolutePathBuf) :
    (policy.seatbeltWriteRoots host cwd).any (·.allows host.fileSystem path) =
      (policy.getWritableRootsWithCwd host cwd).any (·.isPathWritable path) := by
  -- The root protects every name already that Seatbelt would add.
  have names : ∀ root, policy.seatbeltMetadataNames host cwd (policy.writableRootFor host cwd root) =
      (policy.writableRootFor host cwd root).protectedMetadataNames := by
    intro root
    apply foldl_fixed'
    intro name
    split
    · rfl
    · rename_i unprotected
      rw [plain.mem_protectedMetadataNames, Bool.not_eq_false] at unprotected
      exact if_pos unprotected
  rw [Bool.eq_iff_iff]
  simp [seatbeltWriteRoots, getWritableRootsWithCwd, notFull, names, SeatbeltAccessRoot.allows,
    normalizePathForSandbox_eq plain.lawful plain.noSymlinks, WritableRoot.isPathWritable_iff,
    ← Bool.not_eq_true, and_assoc]

/-- A root of the policy lets through what is not blocked below it. -/
theorem isPathWritable_writableRootFor
    (settled : Settled (policy.resolvedEntriesWithCwd host cwd) root .write)
    (path : AbsolutePathBuf) :
    (policy.writableRootFor host cwd root).isPathWritable path = true ↔
      root ≤ path ∧ ¬ Blocked (policy.resolvedEntriesWithCwd host cwd)
        (fromAbsolutePath host.env cwd) root path := by
  rw [WritableRoot.isPathWritable_iff]
  simp only [plain.mem_readOnlySubpaths restricted, plain.mem_protectedMetadataNames,
    canWrite_metadataPath_eq_false restricted notFull settled]
  apply and_congr_right
  intro _
  constructor
  · rintro ⟨uncarved, unnamed⟩
      (⟨middle, access, narrower, refused, deeper, below⟩ | ⟨name, below, unlisted, guards⟩ |
        ⟨isCwd, below, unlisted⟩)
    · exact uncarved middle (.inr ⟨access, narrower, refused, deeper⟩) below
    · exact unnamed name (.inr ⟨unlisted, guards⟩) below
    · exact uncarved _ (.inl ⟨isCwd, rfl, unlisted⟩) below
  · intro unblocked
    constructor
    · rintro subpath (⟨isCwd, rfl, unlisted⟩ | ⟨access, narrower, refused, deeper⟩) below
      · exact unblocked (.inr (.inr ⟨isCwd, below, unlisted⟩))
      · exact unblocked (.inl ⟨subpath, access, narrower, refused, deeper, below⟩)
    · rintro name (⟨access, narrower, refused⟩ | ⟨unlisted, guards⟩) below
      · exact unblocked (.inl ⟨_, access, narrower, refused, lt_metadataPath root name, below⟩)
      · exact unblocked (.inr (.inl ⟨name, below, unlisted, guards⟩))

/-- A path is writable under a root exactly if nothing below that root blocks it. -/
theorem exists_writableRoot_iff (path : AbsolutePathBuf) :
    (∃ writableRoot ∈ policy.getWritableRootsWithCwd host cwd,
        writableRoot.isPathWritable path = true) ↔
      ∃ root, Settled (policy.resolvedEntriesWithCwd host cwd) root .write ∧ root ≤ path ∧
        ¬ Blocked (policy.resolvedEntriesWithCwd host cwd) (fromAbsolutePath host.env cwd) root
          path := by
  have normal := normalizeEffective_of_noSymlinks plain.lawful plain.noSymlinks
  have mem_roots : ∀ writableRoot, writableRoot ∈ policy.getWritableRootsWithCwd host cwd ↔
      ∃ root, Settled (policy.resolvedEntriesWithCwd host cwd) root .write ∧
        policy.writableRootFor host cwd root = writableRoot := by
    intro writableRoot
    simp [getWritableRootsWithCwd, notFull, dedupEffectivePaths,
      dedupAbsolutePaths, mem_unseen, normal, mem_writableEntries_iff restricted]
  constructor
  · rintro ⟨writableRoot, mem, accepted⟩
    obtain ⟨root, settled, rfl⟩ := (mem_roots writableRoot).mp mem
    exact ⟨root, settled,
      (plain.isPathWritable_writableRootFor restricted notFull settled path).mp accepted⟩
  · rintro ⟨root, settled, unblocked⟩
    refine ⟨_, (mem_roots _).mpr ⟨root, settled, rfl⟩, ?_⟩
    exact (plain.isPathWritable_writableRootFor restricted notFull settled path).mpr unblocked

end WithoutMetadata

/-- The roots of a policy let through exactly what the policy grants. -/
def EnforcesExactly (host : Host) (policy : FileSystemSandboxPolicy) (cwd : Path) : Prop :=
  ∀ path : AbsolutePathBuf, (∃ writableRoot ∈ policy.getWritableRootsWithCwd host cwd,
      writableRoot.isPathWritable path = true) ↔
    policy.canWritePathWithCwd host path.asPath cwd = true

/-- They do if and only if the entries are enforceable, and Seatbelt allows the writes that they
let through. -/
theorem enforcedWrites_iff {host : Host} (plain : WithoutMetadata host.fileSystem)
    {policy : FileSystemSandboxPolicy} (restricted : policy.kind = .restricted)
    (notFull : policy.hasFullDiskWriteAccess = false) (cwd : Path) :
    (EnforcesExactly host policy cwd ↔
      Enforceable (policy.resolvedEntriesWithCwd host cwd) (fromAbsolutePath host.env cwd)) ∧
    ∀ path, (policy.seatbeltWriteRoots host cwd).any (·.allows host.fileSystem path) =
      (policy.getWritableRootsWithCwd host cwd).any (·.isPathWritable path) := by
  refine ⟨?_, plain.seatbeltWrites_eq notFull⟩
  rw [← unblocked_iff_granted]
  apply forall_congr'
  intro path
  rw [plain.exists_writableRoot_iff restricted notFull, canWritePathWithCwd_asPath_iff restricted]
  simp only [notFull, forall_const]

/-! ### Concrete policies -/

theorem withoutMetadata_root : WithoutMetadata (.ofDirectories []) where
  lawful := lawful_ofDirectories []
  noSymlinks := isSymlink_ofDirectories []
  noMetadata path name := by
    have named : metadataPath path name ≠ .root := by
      intro isRoot
      have below := lt_metadataPath path name
      rw [isRoot] at below
      exact absurd (root_le path) below.not_ge
    simp [ofDirectories, named]

/-- A workspace with a read-only directory. -/
theorem readOnlyChild_enforced : EnforcesExactly { fileSystem := .ofDirectories [] }
    (.restricted [⟨.path ⟨["a"], by decide⟩, .write⟩, ⟨.path ⟨["a", "b"], by decide⟩, .read⟩])
    { isAbsolute := true, components := ["a"] } := by
  apply (enforcedWrites_iff withoutMetadata_root rfl (by decide) _).1.mpr
  have only : ∀ path, WriteAt [⟨⟨["a"], by decide⟩, .write⟩, ⟨⟨["a", "b"], by decide⟩, .read⟩]
      path → path = ⟨["a"], by decide⟩ := by
    intro path writes
    simpa [WriteAt] using writes
  constructor
  · intro outer inner name outerSettled innerSettled nested
    rw [only outer outerSettled.1, only inner innerSettled.1] at nested
    exact absurd nested (lt_irrefl _)
  · intro workspace _ settled _ unguarded
    rw [only workspace settled.1] at unguarded
    exact absurd (firstGuard_cons _ _ _) unguarded

/-- Two workspaces, one in the other, and a workspace in the metadata of another one. -/
theorem nestedWorkspaces_differ : ((FileSystemSandboxPolicy.restricted
      [⟨.path ⟨["a"], by decide⟩, .write⟩,
        ⟨.path ⟨["a", "b"], by decide⟩, .write⟩]).getWritableRootsWithCwd
          { fileSystem := .ofDirectories [] } { isAbsolute := true, components := ["a"] }).any
            (·.isPathWritable ⟨["a", "b", ".git", "x"], by decide⟩) = true ∧
    (FileSystemSandboxPolicy.restricted [⟨.path ⟨["a"], by decide⟩, .write⟩,
        ⟨.path ⟨["a", "b"], by decide⟩, .write⟩]).canWritePathWithCwd
          { fileSystem := .ofDirectories [] }
          { isAbsolute := true, components := ["a", "b", ".git", "x"] }
          { isAbsolute := true, components := ["a"] } = false ∧
    ((FileSystemSandboxPolicy.restricted [⟨.path ⟨["a"], by decide⟩, .write⟩,
        ⟨.path ⟨["a", ".git", "b"], by decide⟩, .write⟩]).getWritableRootsWithCwd
          { fileSystem := .ofDirectories [] }
          { isAbsolute := true, components := ["a", ".git", "b"] }).any
            (·.isPathWritable ⟨["a", ".git", "b", ".codex"], by decide⟩) = false ∧
    (FileSystemSandboxPolicy.restricted [⟨.path ⟨["a"], by decide⟩, .write⟩,
        ⟨.path ⟨["a", ".git", "b"], by decide⟩, .write⟩]).canWritePathWithCwd
          { fileSystem := .ofDirectories [] }
          { isAbsolute := true, components := ["a", ".git", "b", ".codex"] }
          { isAbsolute := true, components := ["a", ".git", "b"] } = true := by
  decide +kernel

end WeaveCodex.Permissions
