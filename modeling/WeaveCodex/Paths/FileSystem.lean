/-
Purpose: A file system as the permission checks and the sandbox see it, and the canonical
  form of a path that keeps what stands behind a nested symbolic link.
Trusted boundary: the answers of the operating system are functions of the path; a file system
  is lawful if they agree on where links lead; translation of `canonicalize_preserving_symlinks`
  in `utils/absolute-path/src/lib.rs`
-/
import WeaveCodex.Paths.AbsolutePath

namespace WeaveCodex.Paths

open AbsolutePathBuf Option

/-- What stands at a path, before a link is followed. -/
inductive FileKind where
  | file (isEmpty : Bool)
  | directory (isEmpty : Bool)
  | symlink | other
deriving DecidableEq, Repr

/-- The answers of the operating system; `none` is an error. -/
structure FileSystem where
  symlinkMetadata : AbsolutePathBuf → Option FileKind
  canonicalize : AbsolutePathBuf → Option AbsolutePathBuf
  readToString : AbsolutePathBuf → Option String

namespace FileSystem

variable (fileSystem : FileSystem) (path : AbsolutePathBuf)

/-- `fs::metadata`, which follows links. -/
def metadata : Option FileKind :=
  (fileSystem.canonicalize path).bind fileSystem.symlinkMetadata

def isDir : Bool :=
  match fileSystem.metadata path with
  | some (.directory _) => true
  | _ => false

def isFile : Bool :=
  match fileSystem.metadata path with
  | some (.file _) => true
  | _ => false

def «exists» (fileSystem : FileSystem) (path : AbsolutePathBuf) : Bool :=
  (fileSystem.metadata path).isSome

def isSymlink : Bool :=
  fileSystem.symlinkMetadata path = some .symlink

/-- The root is canonical, and only a link makes the canonical form of a child leave the
canonical form of its parent. -/
structure Lawful (fileSystem : FileSystem) : Prop where
  root : fileSystem.canonicalize .root = some .root
  child : ∀ (path : AbsolutePathBuf) (name : String) (normal : IsNormal name)
    (canonical : AbsolutePathBuf),
    fileSystem.symlinkMetadata (path.child name normal) ≠ some .symlink →
    fileSystem.canonicalize (path.child name normal) = some canonical →
    ∃ parent, fileSystem.canonicalize path = some parent ∧ canonical = parent.child name normal

namespace Lawful

variable {fileSystem : FileSystem} {path canonical : AbsolutePathBuf}

/-- Without links on the way the canonical form goes on as the path does. -/
theorem canonicalize_rebase (lawful : fileSystem.Lawful) {base : AbsolutePathBuf} (below : base ≤ path)
    (noLinks : ∀ ancestor, base < ancestor → ancestor ≤ path → fileSystem.isSymlink ancestor = false)
    (found : fileSystem.canonicalize path = some canonical) :
    ∃ target, fileSystem.canonicalize base = some target ∧ canonical = path.rebase base target := by
  induction path using induction_child generalizing canonical with
  | atRoot =>
    have same : base = .root := le_antisymm below (root_le base)
    subst same
    exact ⟨canonical, found, (rebase_base _ _).symm⟩
  | atChild path name normal ih =>
    rcases le_child_iff.mp below with inside | rfl
    · have notLink := noLinks _ (inside.trans_lt lt_child) le_rfl
      rw [isSymlink, decide_eq_false_iff_not] at notLink
      obtain ⟨_, parentFound, rfl⟩ := lawful.child path name normal canonical notLink found
      obtain ⟨target, targetFound, rfl⟩ := ih inside (fun ancestor deeper lower =>
          noLinks ancestor deeper (lower.trans lt_child.le)) parentFound
      exact ⟨target, targetFound, (rebase_child inside target).symm⟩
    · exact ⟨canonical, found, (rebase_base _ _).symm⟩

theorem canonicalize_of_noSymlinks (lawful : fileSystem.Lawful)
    (noLinks : ∀ ancestor ≤ path, fileSystem.isSymlink ancestor = false)
    (found : fileSystem.canonicalize path = some canonical) : canonical = path := by
  obtain ⟨_, targetFound, rfl⟩ := lawful.canonicalize_rebase (root_le path)
    (fun ancestor _ => noLinks ancestor) found
  rw [lawful.root] at targetFound
  rw [← some.inj targetFound]
  exact rebase_self (root_le path)

end Lawful

variable (directories : List AbsolutePathBuf)

/-- The file system of some directories and of those in which they lie. -/
def ofDirectories : FileSystem where
  symlinkMetadata path :=
    if path = .root ∨ ∃ directory ∈ directories, path ≤ directory then
      some (.directory (directories.all fun directory => ¬ path ≤ directory ∨ directory = path))
    else none
  canonicalize path :=
    if path = .root ∨ ∃ directory ∈ directories, path ≤ directory then some path else none
  readToString _ := none

theorem isSymlink_ofDirectories (path : AbsolutePathBuf) :
    (ofDirectories directories).isSymlink path = false := by
  rw [isSymlink, decide_eq_false_iff_not, ofDirectories]
  dsimp only
  split
  · intro link
    cases some.inj link
  · exact nofun

theorem lawful_ofDirectories : (ofDirectories directories).Lawful where
  root := by simp [ofDirectories]
  child path name normal canonical _ found := by
    rw [ofDirectories] at found
    dsimp only at found
    split at found
    · rename_i present
      rw [← some.inj found]
      refine ⟨path, if_pos ?_, rfl⟩
      rcases present with isRoot | ⟨directory, mem, below⟩
      · have names := congrArg components isRoot
        exact absurd names (List.append_ne_nil_of_right_ne_nil _ (List.cons_ne_nil _ _))
      · exact .inr ⟨directory, mem, lt_child.le.trans below⟩
    · cases found

end FileSystem

/-! ### Canonical paths -/

/-- A link below the top level. -/
def shouldPreserveLogicalPath (fileSystem : FileSystem) (logical : AbsolutePathBuf) : Bool :=
  logical.ancestors.any fun ancestor =>
    fileSystem.isSymlink ancestor && (ancestor.parent.bind AbsolutePathBuf.parent).isSome

def canonicalizePreservingSymlinks (fileSystem : FileSystem) (logical : AbsolutePathBuf) :
    AbsolutePathBuf :=
  match fileSystem.canonicalize logical with
  | some canonical =>
    if shouldPreserveLogicalPath fileSystem logical ∧ canonical ≠ logical then logical
    else canonical
  | none => logical

end WeaveCodex.Paths
