/-
Purpose: Where a path is moved to by its effective form: nowhere, or with its first
  component, if that is a symbolic link. Roots with one effective form that hold one path
  outside of it are therefore equal.
-/
import WeaveCodex.Permissions.SandboxRoots

namespace WeaveCodex.Permissions

open Paths AbsolutePathBuf

variable {fileSystem : FileSystem} {path : AbsolutePathBuf}

/-- The path of the first component. -/
def topLevel (path : AbsolutePathBuf) : AbsolutePathBuf :=
  path.take 1

theorem topLevel_le (path : AbsolutePathBuf) : topLevel path ≤ path :=
  path.take_le 1

theorem topLevel_eq_of_le {base : AbsolutePathBuf} (below : base ≤ path)
    (named : base.components ≠ []) : topLevel base = topLevel path := by
  apply ext
  obtain ⟨_, same⟩ := below
  have long : 1 ≤ base.components.length := List.length_pos_iff.mpr named
  change base.components.take 1 = path.components.take 1
  rw [← same, List.take_append_of_le_length long]

/-- What lies strictly below the top level has a parent that has a parent. -/
theorem parent_parent_isSome {ancestor : AbsolutePathBuf} (below : ancestor ≤ path)
    (deeper : topLevel path < ancestor) :
    (ancestor.parent.bind parent).isSome = true := by
  have long : 2 ≤ ancestor.components.length := by
    have depths := depth_lt deeper
    have shorter := below.length_le
    simp only [depth, topLevel, take, List.length_take] at depths
    omega
  have named : ancestor.components ≠ [] := List.ne_nil_of_length_pos (by omega)
  rw [parent, if_neg named, Option.bind_some, parent, if_neg]
  · rfl
  · intro empty
    have lengths := congrArg List.length empty
    simp only [take, List.length_take, List.length_nil] at lengths
    omega

/-- The canonical form keeps the path, or replaces its first component. -/
theorem canonicalizePreservingSymlinks_cases (lawful : fileSystem.Lawful) (path : AbsolutePathBuf) :
    canonicalizePreservingSymlinks fileSystem path = path ∨
      path.components ≠ [] ∧ ∃ target, fileSystem.canonicalize (topLevel path) = some target ∧
        canonicalizePreservingSymlinks fileSystem path = path.rebase (topLevel path) target := by
  cases found : fileSystem.canonicalize path with
  | none => exact .inl (by simp [canonicalizePreservingSymlinks, found])
  | some canonical =>
    by_cases kept : canonical = path
    · exact .inl (by simp [canonicalizePreservingSymlinks, found, kept])
    cases preserved : shouldPreserveLogicalPath fileSystem path with
    | true =>
      exact .inl (by simp [canonicalizePreservingSymlinks, found, preserved, kept])
    | false =>
      right
      constructor
      · intro empty
        obtain rfl : path = .root := ext empty
        rw [lawful.root] at found
        exact kept (Option.some.inj found).symm
      · have noLinks : ∀ ancestor, topLevel path < ancestor → ancestor ≤ path →
            fileSystem.isSymlink ancestor = false := by
          intro ancestor deeper below
          rw [shouldPreserveLogicalPath, List.any_eq_false] at preserved
          have notLink := preserved ancestor (mem_ancestors.mpr below)
          rw [parent_parent_isSome below deeper, Bool.and_true] at notLink
          exact Bool.eq_false_of_not_eq_true notLink
        obtain ⟨target, targetFound, moved⟩ :=
          lawful.canonicalize_rebase (topLevel_le path) noLinks found
        refine ⟨target, targetFound, ?_⟩
        simp [canonicalizePreservingSymlinks, found, preserved, moved]

/-- Only a link at the top level of the file system is followed. -/
theorem normalizeEffectiveAbsolutePath_cases (lawful : fileSystem.Lawful) (path : AbsolutePathBuf) :
    normalizeEffectiveAbsolutePath fileSystem path = path ∨
      path.components ≠ [] ∧ ∃ target, fileSystem.canonicalize (topLevel path) = some target ∧
        normalizeEffectiveAbsolutePath fileSystem path = path.rebase (topLevel path) target := by
  rw [normalizeEffectiveAbsolutePath]
  split
  · rename_i ancestor found
    have below : ancestor ≤ path :=
      mem_ancestors.mp (List.mem_of_find?_eq_some found)
    rcases canonicalizePreservingSymlinks_cases lawful ancestor with kept | ⟨named, target, at_, moved⟩
    · rw [kept]
      exact .inl (rebase_self below)
    · right
      rw [topLevel_eq_of_le below named] at at_ moved
      have above : topLevel path ≤ ancestor := topLevel_eq_of_le below named ▸ topLevel_le ancestor
      refine ⟨fun empty => named ?_, target, at_, ?_⟩
      · have shorter := below.length_le
        rw [empty, List.length_nil] at shorter
        exact List.eq_nil_of_length_eq_zero (Nat.le_zero.mp shorter)
      · rw [moved, rebase_rebase above below]
  · exact .inl rfl

variable {root : AbsolutePathBuf} {host : Host}

/-- Roots with one effective form that hold one path outside of it are equal. -/
theorem normalizeEffective_injective (lawful : fileSystem.Lawful) {first second : AbsolutePathBuf}
    (firstNormal : normalizeEffectiveAbsolutePath fileSystem first = root)
    (secondNormal : normalizeEffectiveAbsolutePath fileSystem second = root)
    (firstBelow : first ≤ path) (secondBelow : second ≤ path) (outside : ¬ root ≤ path) :
    first = second := by
  rcases normalizeEffectiveAbsolutePath_cases lawful first with kept | ⟨firstNamed, target, at_, moved⟩
  · rw [← firstNormal, kept] at outside
    contradiction
  rcases normalizeEffectiveAbsolutePath_cases lawful second with
    kept | ⟨secondNamed, other, otherAt, otherMoved⟩
  · rw [← secondNormal, kept] at outside
    contradiction
  rw [topLevel_eq_of_le firstBelow firstNamed] at at_ moved
  rw [topLevel_eq_of_le secondBelow secondNamed, at_] at otherAt
  rw [topLevel_eq_of_le secondBelow secondNamed, ← Option.some.inj otherAt] at otherMoved
  have firstInside : topLevel path ≤ first :=
    topLevel_eq_of_le firstBelow firstNamed ▸ topLevel_le first
  have secondInside : topLevel path ≤ second :=
    topLevel_eq_of_le secondBelow secondNamed ▸ topLevel_le second
  have same : first.rebase (topLevel path) target = second.rebase (topLevel path) target := by
    rw [← moved, ← otherMoved, firstNormal, secondNormal]
  exact rebase_injective firstInside secondInside same

section NoLinks

variable (lawful : fileSystem.Lawful) (noLinks : ∀ other, fileSystem.isSymlink other = false)
include lawful noLinks

/-- Without links a path is its own effective form. -/
theorem normalizeEffective_of_noSymlinks (path : AbsolutePathBuf) :
    normalizeEffectiveAbsolutePath fileSystem path = path := by
  rcases normalizeEffectiveAbsolutePath_cases lawful path with kept | ⟨_, _, at_, moved⟩
  · exact kept
  · rw [moved, lawful.canonicalize_of_noSymlinks (fun other _ => noLinks other) at_]
    exact rebase_self (topLevel_le path)

theorem normalizePathForSandbox_eq (path : AbsolutePathBuf) :
    normalizePathForSandbox fileSystem path = path := by
  cases found : fileSystem.canonicalize path with
  | none => rw [normalizePathForSandbox, found, Option.getD_none]
  | some =>
    rw [normalizePathForSandbox, found, Option.getD_some]
    exact lawful.canonicalize_of_noSymlinks (fun other _ => noLinks other) found

end NoLinks

/-! ### Carve-outs -/

theorem findSome?_congr {α β : Type*} {first second : List α} {answer : α → Option β}
    (same : ∀ item, item ∈ first ↔ item ∈ second)
    (unique : ∀ one ∈ first, ∀ two ∈ first, ∀ left right, answer one = some left →
      answer two = some right → left = right) :
    first.findSome? answer = second.findSome? answer := by
  cases found : first.findSome? answer with
  | none =>
    symm
    rw [List.findSome?_eq_none_iff] at found ⊢
    intro item mem
    exact found item ((same item).mpr mem)
  | some left =>
    obtain ⟨one, oneMem, oneAnswer⟩ := List.exists_of_findSome?_eq_some found
    cases other : second.findSome? answer with
    | none =>
      rw [List.findSome?_eq_none_iff.mp other one ((same one).mp oneMem)] at oneAnswer
      cases oneAnswer
    | some right =>
      obtain ⟨two, twoMem, twoAnswer⟩ := List.exists_of_findSome?_eq_some other
      rw [unique one oneMem two ((same two).mpr twoMem) left right oneAnswer twoAnswer]

theorem le_of_carveoutBelow {entryPath raw value : AbsolutePathBuf}
    (found : carveoutBelow host root entryPath raw = some value) : raw ≤ entryPath := by
  rw [carveoutBelow, strip] at found
  split at found
  · cases found
  · cases found
  · rename_i stripped
    split at stripped
    · rename_i inside
      exact startsWith_iff.mp inside
    · cases stripped

/-- The order of the raw roots does not matter for a carve-out. -/
theorem carveoutPath_congr (lawful : host.fileSystem.Lawful) {first second : List AbsolutePathBuf}
    (same : ∀ raw, raw ∈ first ↔ raw ∈ second)
    (normal : ∀ raw ∈ first, normalizeEffectiveAbsolutePath host.fileSystem raw = root)
    (entryPath : AbsolutePathBuf) :
    carveoutPath host root first entryPath = carveoutPath host root second entryPath := by
  by_cases inside : root ≤ entryPath
  · by_cases equal : entryPath = root <;>
      simp [carveoutPath, inside, equal]
  · have agree : first.findSome? (carveoutBelow host root entryPath) =
        second.findSome? (carveoutBelow host root entryPath) := by
      apply findSome?_congr same
      intro one oneMem two twoMem left right oneAnswer twoAnswer
      have equal := normalizeEffective_injective lawful (normal one oneMem)
        (normal two twoMem) (le_of_carveoutBelow oneAnswer) (le_of_carveoutBelow twoAnswer)
        inside
      rw [equal, twoAnswer] at oneAnswer
      exact (Option.some.inj oneAnswer).symm
    simp only [carveoutPath, agree]

end WeaveCodex.Permissions
