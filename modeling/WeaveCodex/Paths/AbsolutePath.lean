/-
Purpose: Paths by their components, and absolute paths without dots: how a text is read as
  a path, how the home directory is filled in and how a path is made absolute.
Trusted boundary: translation of `utils/absolute-path/src/lib.rs` and `absolutize.rs` on Unix,
  and of the documented behaviour of `std::path`
-/
import Mathlib.Data.List.Infix
import Mathlib.Data.String.Basic

namespace WeaveCodex.Paths

open List Nat

/-! ### Paths -/

/-- A path by its components. Only the first component of a relative path can be a single
dot. -/
structure Path where
  isAbsolute : Bool
  components : List String
deriving DecidableEq, Repr

/-- The pieces of a text between slashes. -/
def splitSlash : List Char → List (List Char)
  | [] => [[]]
  | char :: chars =>
    if char = '/' then [] :: splitSlash chars
    else
      match splitSlash chars with
      | [] => [[char]]
      | piece :: pieces => (char :: piece) :: pieces

/-- `Path::new`. -/
def Path.new (text : String) : Path :=
  let pieces := splitSlash text.toList
  let isAbsolute := text.toList.head? = some '/'
  let leadingDot := if pieces.head? = some ['.'] then ["."] else []
  { isAbsolute
    components := leadingDot ++
      (pieces.filter fun piece => piece ≠ [] && piece ≠ ['.']).map String.ofList }

/-- A component that is not a dot or two. -/
def IsNormal (component : String) : Prop :=
  component ≠ "." ∧ component ≠ ".."

instance (component : String) : Decidable (IsNormal component) :=
  inferInstanceAs (Decidable (_ ∧ _))

/-- An absolute path without dots. -/
structure AbsolutePathBuf where
  components : List String
  normal : ∀ component ∈ components, IsNormal component
deriving DecidableEq

namespace AbsolutePathBuf

@[ext] theorem ext {first second : AbsolutePathBuf}
    (same : first.components = second.components) : first = second := by
  cases first
  cases second
  simp only at same
  subst same
  rfl

/-- `/`. -/
def root : AbsolutePathBuf :=
  ⟨[], fun _ mem => absurd mem not_mem_nil⟩

variable (path : AbsolutePathBuf)

def asPath : Path :=
  { isAbsolute := true, components := path.components }

/-- `path.starts_with(base)`. -/
def startsWith (path base : AbsolutePathBuf) : Bool :=
  base.components.isPrefixOf path.components

/-- `path.join(name)` for a name that is one normal component. -/
def child (name : String) (normal : IsNormal name) : AbsolutePathBuf :=
  { components := path.components ++ [name]
    normal := by
      intro component mem
      rcases mem_append.mp mem with inside | last
      · exact path.normal component inside
      · rw [mem_singleton.mp last]
        exact normal }

/-- `path.file_name()`. -/
def fileName : Option String :=
  path.components.getLast?

/-- The path of the first components. -/
def take (path : AbsolutePathBuf) (count : Nat) : AbsolutePathBuf :=
  { components := path.components.take count
    normal := fun component mem => path.normal component (mem_of_mem_take mem) }

/-- `path.parent()`. -/
def parent : Option AbsolutePathBuf :=
  if path.components = [] then none else some (path.take (path.components.length - 1))

/-- `path.ancestors()`: the path itself comes first and `/` last. -/
def ancestors : List AbsolutePathBuf :=
  (range (path.components.length + 1)).reverse.map path.take

/-- `path.strip_prefix(base)`, by components. -/
def strip (path base : AbsolutePathBuf) : Option (List String) :=
  if path.startsWith base then some (path.components.drop base.components.length) else none

/-- `target.join(suffix)` for the suffix by which the path goes on after the base. -/
def rebase (path base target : AbsolutePathBuf) : AbsolutePathBuf :=
  { components := target.components ++ path.components.drop base.components.length
    normal := by
      intro component mem
      rcases mem_append.mp mem with inside | rest
      · exact target.normal component inside
      · exact path.normal component (mem_of_mem_drop rest) }

/-- `path.components().count()`, which also counts the root. -/
def depth : Nat :=
  path.components.length + 1

end AbsolutePathBuf

/-! ### Making paths absolute -/

/-- One component of `normalize_path`. -/
def pushComponent (normalized : List String) (component : String) : List String :=
  if component = "." then normalized
  else if component = ".." then normalized.dropLast
  else normalized ++ [component]

variable {normalized : List String}

theorem pushComponent_normal {component : String} (normal : ∀ other ∈ normalized, IsNormal other) :
    ∀ other ∈ pushComponent normalized component, IsNormal other := by
  intro other mem
  unfold pushComponent at mem
  split at mem
  · exact normal other mem
  split at mem
  · exact normal other (dropLast_subset _ mem)
  rename_i notDot notParent
  exact forall_mem_append.mpr ⟨normal, forall_mem_singleton.mpr ⟨notDot, notParent⟩⟩ other mem

theorem foldl_pushComponent_normal (components : List String)
    (normal : ∀ other ∈ normalized, IsNormal other) :
    ∀ other ∈ components.foldl pushComponent normalized, IsNormal other := by
  induction components generalizing normalized with
  | nil => exact normal
  | cons _ _ ih =>
    exact ih (pushComponent_normal normal)

/-- `normalize_path` of an absolute path. -/
def normalizePath (components : List String) : AbsolutePathBuf :=
  { components := components.foldl pushComponent []
    normal := foldl_pushComponent_normal components fun _ mem =>
      absurd mem not_mem_nil }

/-- What the functions read of the process. -/
structure ProcessEnv where
  home : Option Path := none
  currentDir : Option AbsolutePathBuf := none

variable (env : ProcessEnv) (path : Path)

def maybeExpandHomeDirectory : Path :=
  if path.isAbsolute = false ∧ path.components.head? = some "~" then
    match env.home with
    | some home => { home with components := home.components ++ path.components.tail }
    | none => path
  else path

def absolutizeFrom (base : AbsolutePathBuf) : AbsolutePathBuf :=
  if path.isAbsolute then normalizePath path.components
  else normalizePath (base.components ++ path.components)

def resolvePathAgainstBase (base : AbsolutePathBuf) :
    AbsolutePathBuf :=
  absolutizeFrom (maybeExpandHomeDirectory env path) base

/-- `from_absolute_path`, which also takes relative paths; it fails if the current directory
is needed and not known. -/
def fromAbsolutePath : Option AbsolutePathBuf :=
  let expanded := maybeExpandHomeDirectory env path
  if expanded.isAbsolute then some (normalizePath expanded.components)
  else env.currentDir.map (absolutizeFrom expanded)

/-! ### Paths that are absolute already -/

theorem foldl_pushComponent_of_normal {components : List String}
    (normal : ∀ component ∈ components, IsNormal component) (normalized : List String) :
    components.foldl pushComponent normalized = normalized ++ components := by
  induction components generalizing normalized with
  | nil => simp
  | cons component _ ih =>
    have first := normal component mem_cons_self
    rw [foldl_cons, ih fun other mem => normal other (mem_cons_of_mem _ mem)]
    simp [pushComponent, first.1, first.2]

theorem normalizePath_components (path : AbsolutePathBuf) : normalizePath path.components = path := by
  apply AbsolutePathBuf.ext
  exact foldl_pushComponent_of_normal path.normal []

@[simp] theorem fromAbsolutePath_asPath (path : AbsolutePathBuf) :
    fromAbsolutePath env path.asPath = some path := by
  simp [fromAbsolutePath, maybeExpandHomeDirectory, AbsolutePathBuf.asPath, normalizePath_components]

/-! ### The tree of paths -/

namespace AbsolutePathBuf

/-- A path comes before all that lies in it. -/
instance : PartialOrder AbsolutePathBuf where
  le base path := base.components <+: path.components
  le_refl path := prefix_rfl
  le_trans _ _ _ := List.IsPrefix.trans
  le_antisymm _ _ below above := ext (below.eq_of_length (below.length_le.antisymm above.length_le))

variable {base path other : AbsolutePathBuf} {name : String} {normal : IsNormal name}

@[simp] theorem startsWith_iff : path.startsWith base = true ↔ base ≤ path :=
  isPrefixOf_iff_prefix

instance : DecidableLE AbsolutePathBuf := fun base path =>
  decidable_of_iff (path.startsWith base = true) startsWith_iff

theorem root_le (path : AbsolutePathBuf) : root ≤ path :=
  nil_prefix

theorem depth_lt (below : base < path) : base.depth < path.depth := by
  apply lt_of_le_of_ne (succ_le_succ below.le.length_le)
  intro same
  exact below.ne (ext (below.le.eq_of_length (succ.inj same)))

theorem take_le (path : AbsolutePathBuf) (count : Nat) : path.take count ≤ path :=
  take_prefix _ _

theorem mem_ancestors : base ∈ path.ancestors ↔ base ≤ path := by
  rw [ancestors, mem_map]
  constructor
  · rintro ⟨count, _, rfl⟩
    exact take_le path count
  · intro below
    refine ⟨base.components.length, ?_, ?_⟩
    · rw [mem_reverse, mem_range]
      exact lt_succ_of_le below.length_le
    · exact ext (prefix_iff_eq_take.mp below).symm

/-- Every path is built from the root by adding names. -/
@[elab_as_elim] theorem induction_child {motive : AbsolutePathBuf → Prop} (atRoot : motive root)
    (atChild : ∀ (path : AbsolutePathBuf) (name : String) (normal : IsNormal name),
      motive path → motive (path.child name normal)) (path : AbsolutePathBuf) : motive path := by
  obtain ⟨components, normal⟩ := path
  induction components using reverseRecOn with
  | nil => exact atRoot
  | append_singleton components name ih =>
    have namesNormal : ∀ component ∈ components, IsNormal component := fun component mem =>
      normal component (mem_append_left _ mem)
    exact atChild ⟨components, namesNormal⟩ name (normal name (by simp)) (ih namesNormal)

section

variable (first : base ≤ path) (second : other ≤ path)
include first second

/-- Of two directories that hold one path, one holds the other. -/
theorem le_of_depth_le (shorter : base.depth ≤ other.depth) : base ≤ other :=
  prefix_of_prefix_length_le first second (le_of_succ_le_succ shorter)

theorem le_or_le : base ≤ other ∨ other ≤ base :=
  prefix_or_prefix_of_prefix first second

theorem le_or_lt : base ≤ other ∨ other < base := by
  rcases le_or_le first second with below | above
  · exact .inl below
  · rcases above.eq_or_lt with same | strict
    · exact .inl same.ge
    · exact .inr strict

end

@[simp] theorem depth_child : (path.child name normal).depth = path.depth + 1 := by
  simp [depth, child]

theorem lt_child : path < path.child name normal := by
  have inside : path ≤ path.child name normal := prefix_append _ _
  apply lt_of_le_of_ne inside
  intro same
  have depths := congrArg depth same
  rw [depth_child] at depths
  omega

theorem le_child_iff :
    other ≤ path.child name normal ↔ other ≤ path ∨ other = path.child name normal := by
  constructor
  · intro inside
    rcases inside.eq_or_lt with same | strict
    · exact .inr same
    · have shorter := depth_lt strict
      rw [depth_child] at shorter
      exact .inl (le_of_depth_le inside lt_child.le (le_of_lt_succ shorter))
  · rintro (inside | rfl)
    · exact inside.trans lt_child.le
    · exact le_rfl

theorem child_le_of_lt (inside : path.child name normal ≤ other) (between : base ≤ other)
    (deeper : path < base) : path.child name normal ≤ base := by
  apply le_of_depth_le inside between
  rw [depth_child]
  exact depth_lt deeper

theorem rebase_self (below : base ≤ path) : path.rebase base base = path := by
  apply ext
  obtain ⟨_, same⟩ := below
  change base.components ++ path.components.drop base.components.length = path.components
  rw [← same, drop_left]

theorem rebase_child (below : base ≤ path) (target : AbsolutePathBuf) :
    (path.child name normal).rebase base target = (path.rebase base target).child name normal := by
  apply ext
  simp [rebase, child, drop_append_of_le_length below.length_le]

theorem rebase_base (base target : AbsolutePathBuf) : base.rebase base target = target := by
  apply ext
  simp [rebase]

/-- A path is moved as a whole. -/
theorem rebase_rebase {middle : AbsolutePathBuf} (first : base ≤ middle) (second : middle ≤ path)
    (target : AbsolutePathBuf) :
    path.rebase middle (middle.rebase base target) = path.rebase base target := by
  apply ext
  obtain ⟨_, frontSame⟩ := first
  obtain ⟨_, backSame⟩ := second
  simp only [rebase]
  rw [← backSame, ← frontSame, drop_left, drop_left, append_assoc, append_assoc, drop_left]

theorem rebase_injective {target : AbsolutePathBuf} (first : base ≤ path) (second : base ≤ other)
    (same : path.rebase base target = other.rebase base target) : path = other := by
  have tails := append_cancel_left (congrArg components same)
  obtain ⟨_, frontSame⟩ := first
  obtain ⟨_, backSame⟩ := second
  apply ext
  rw [← frontSame, ← backSame, drop_left, drop_left] at tails
  rw [← frontSame, ← backSame, tails]

end AbsolutePathBuf

end WeaveCodex.Paths
