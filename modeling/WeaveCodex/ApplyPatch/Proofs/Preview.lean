/-
Purpose: When an applied patch does what its preview promised: verification computes
  every change from the original files, the application runs the hunks one after the
  other, and the two agree unless moves run into other hunks.
-/
import WeaveCodex.ApplyPatch.Proofs.HunkEffects
import WeaveCodex.Library.Log

namespace WeaveCodex.ApplyPatch

open Library.EarlyExit Library.Log Option Function Except Prod
open Function (update)
open List

universe u

variable {Path : Type u}

/-! ### Promises -/

/-- What a change of the preview promises: contents at a path, or that nothing is there. -/
def ApplyPatchFileChange.promises (path : Path) :
    ApplyPatchFileChange Path → List (Path × Option String)
  | .add content => [(path, some content)]
  | .delete _ => [(path, none)]
  | .update _ none newContent => [(path, some newContent)]
  | .update _ (some destination) newContent => [(destination, some newContent), (path, none)]

def promises (changes : List (Path × ApplyPatchFileChange Path)) : List (Path × Option String) :=
  changes.flatMap fun entry => entry.2.promises entry.1

/-- Every promise is kept, and no other path has changed. -/
def Fulfilled (before : Files Path) (changes : List (Path × ApplyPatchFileChange Path))
    (after : Files Path) : Prop :=
  (∀ promise ∈ promises changes, after promise.1 = promise.2) ∧
    ∀ path, path ∉ (promises changes).map fst → after path = before path

/-- On these files, the hunk alone leaves this at the path. -/
inductive Hunk.Leaves (tools : Tools Path) (mode : UpdateMode) (cwd : Path) (files : Files Path) :
    Hunk → Path → Option String → Prop where
  | add {source contents path} : tools.join cwd source = .ok path →
      Leaves tools mode cwd files (.addFile source contents) path (some contents)
  | delete {source path} :
      tools.join cwd source = .ok path → Leaves tools mode cwd files (.deleteFile source) path none
  | update {source path chunks original new} :
      tools.join cwd source = .ok path → files path = some original →
        deriveNewContents mode (tools.display path) chunks original = .ok new →
          Leaves tools mode cwd files (.updateFile source none chunks) path (some new)
  | moveTo {source destination path target chunks original new} :
      tools.join cwd source = .ok path → tools.join cwd destination = .ok target →
        files path = some original →
          deriveNewContents mode (tools.display path) chunks original = .ok new →
            Leaves tools mode cwd files (.updateFile source (some destination) chunks) target (some new)
  | moveFrom {source destination path chunks} : tools.join cwd source = .ok path →
      Leaves tools mode cwd files (.updateFile source (some destination) chunks) path none

section Conditions

variable (tools : Tools Path) (mode : UpdateMode) (cwd : Path) (files : Files Path)

/-- The hunks, each alone, leave the same at the paths they share. -/
def Agreed (hunks : List Hunk) : Prop :=
  ∀ first ∈ hunks, ∀ second ∈ hunks, ∀ path value value',
    first.Leaves tools mode cwd files path value →
      second.Leaves tools mode cwd files path value' → value = value'

/-- The hunk updates a file in place that a hunk before has moved there, and updating the
promised contents once more does not give them back. -/
def Hunk.Overrules (before : List Hunk) (path : Path) : Hunk → Prop
  | .updateFile source none chunks =>
    (∃ mover ∈ before, mover.MovesTo tools cwd path) ∧
      ∃ new, Leaves tools mode cwd files (.updateFile source none chunks) path (some new) ∧
        deriveNewContents mode (tools.display path) chunks new ≠ .ok new
  | .updateFile _ (some _) _ | .addFile _ _ | .deleteFile _ => False

/-- A hunk overrules the move to `path`, and no later hunk moves a file there again. -/
def Overruled (hunks : List Hunk) (path : Path) : Prop :=
  Standing (fun before hunk => hunk.Overrules tools mode cwd files before path)
    (fun hunk => hunk.MovesTo tools cwd path) hunks

/-- The sources of the hunks are different paths. -/
def DistinctSources (hunks : List Hunk) : Prop :=
  hunks.Pairwise fun first second =>
    ∀ path, first.resolvePath tools cwd = .ok path → second.resolvePath tools cwd ≠ .ok path

/-- Verification has seen what the hunk leaves at its source and where it moves it. -/
structure Hunk.Previewed (hunk : Hunk) : Prop where
  source : ∀ path, hunk.resolvePath tools cwd = .ok path →
    ∃ value, hunk.Leaves tools mode cwd files path value
  target : ∀ path, hunk.MovesTo tools cwd path → ∃ new, hunk.Leaves tools mode cwd files path (some new)

end Conditions

/-! ### What verification accepts -/

section Verification

variable (tools : Tools Path) (faults : Faults) (mode : UpdateMode) (cwd : Path)

/-- The promises of a change are what the hunk leaves. -/
structure Promised (files : Files Path) (path : Path) (hunk : Hunk)
    (change : ApplyPatchFileChange Path) : Prop where
  previewed : hunk.Previewed tools mode cwd files
  promises_iff : ∀ target value, (target, value) ∈ change.promises path ↔
    hunk.Leaves tools mode cwd files target value

variable {path : Path}

section Promises

variable {files : Files Path} {source : String} (resolved : tools.join cwd source = .ok path)

include resolved

theorem promised_add {contents : String} :
    Promised tools mode cwd files path (.addFile source contents) (.add contents) := by
  refine ⟨⟨?_, ?_⟩, ?_⟩
  · intro other joined
    exact ⟨_, .add joined⟩
  · exact nofun
  · intro target value
    simp only [ApplyPatchFileChange.promises, mem_singleton, mk.injEq]
    constructor
    · rintro ⟨rfl, rfl⟩
      exact .add resolved
    · intro leaves
      cases leaves with
      | add joined => exact ⟨ok.inj (joined.symm.trans resolved), rfl⟩

theorem promised_delete (content : String) :
    Promised tools mode cwd files path (.deleteFile source) (.delete content) := by
  refine ⟨⟨?_, ?_⟩, ?_⟩
  · intro other joined
    exact ⟨_, .delete joined⟩
  · exact nofun
  · intro target value
    simp only [ApplyPatchFileChange.promises, mem_singleton, mk.injEq]
    constructor
    · rintro ⟨rfl, rfl⟩
      exact .delete resolved
    · intro leaves
      cases leaves with
      | delete joined => exact ⟨ok.inj (joined.symm.trans resolved), rfl⟩

variable {original new : String} {chunks : List UpdateFileChunk} (held : files path = some original)
  (derived : deriveNewContents mode (tools.display path) chunks original = .ok new) (diff : String)

include held derived

theorem promised_update : Promised tools mode cwd files path (.updateFile source none chunks)
    (.update diff none new) := by
  refine ⟨⟨?_, ?_⟩, ?_⟩
  · intro other joined
    cases ok.inj (joined.symm.trans resolved)
    exact ⟨_, .update resolved held derived⟩
  · exact nofun
  · intro target value
    simp only [ApplyPatchFileChange.promises, mem_singleton, mk.injEq]
    constructor
    · rintro ⟨rfl, rfl⟩
      exact .update resolved held derived
    · intro leaves
      cases leaves with
      | update joined held' derived' =>
        cases ok.inj (joined.symm.trans resolved)
        cases some.inj (held'.symm.trans held)
        cases ok.inj (derived'.symm.trans derived)
        exact ⟨rfl, rfl⟩

/-- A move is promised where its destination resolves. -/
theorem promised_move {destination : String} {moved : Path}
    (movedTo : tools.join cwd destination = .ok moved) :
    Promised tools mode cwd files path (.updateFile source (some destination) chunks)
      (.update diff (some moved) new) := by
  refine ⟨⟨?_, ?_⟩, ?_⟩
  · intro other joined
    exact ⟨_, .moveFrom joined⟩
  · intro other moves
    exact ⟨new, .moveTo resolved moves held derived⟩
  · intro target value
    simp only [ApplyPatchFileChange.promises, mem_cons, not_mem_nil, or_false, mk.injEq]
    constructor
    · rintro (⟨rfl, rfl⟩ | ⟨rfl, rfl⟩)
      · exact .moveTo resolved movedTo held derived
      · exact .moveFrom resolved
    · intro leaves
      cases leaves with
      | moveTo joined moves held' derived' =>
        cases ok.inj (joined.symm.trans resolved)
        cases some.inj (held'.symm.trans held)
        cases ok.inj (derived'.symm.trans derived)
        exact .inl ⟨ok.inj (moves.symm.trans movedTo), rfl⟩
      | moveFrom joined => exact .inr ⟨ok.inj (joined.symm.trans resolved), rfl⟩

end Promises

variable {original new : String} {chunks : List UpdateFileChunk}
  {change : ApplyPatchFileChange Path} {hunk : Hunk} {world : World Path} {taken : List Path}
  {added : List (Path × ApplyPatchFileChange Path)} {hunks : List Hunk}

/-- A verified change promises what the hunk leaves on the files as they are. -/
theorem verifyHunk_eq_ok {world' : World Path} (resolved : hunk.resolvePath tools cwd = .ok path)
    (verified : verifyHunk tools faults mode cwd world path hunk = (.ok change, world')) :
    Promised tools mode cwd world.files path hunk change ∧ world'.files = world.files := by
  cases hunk with
  | addFile =>
    cases verified
    exact ⟨promised_add tools mode cwd resolved, rfl⟩
  | deleteFile =>
    unfold verifyHunk at verified
    dsimp only at verified
    split at verified
    · cases verified
    · rename_i content later read
      cases verified
      obtain ⟨-, same⟩ := readFileText_eq_ok faults world path read
      exact ⟨promised_delete tools mode cwd resolved content, same⟩
  | updateFile _ movePath =>
    unfold verifyHunk at verified
    dsimp only at verified
    split at verified
    · cases verified
    · rename_i computed
      obtain ⟨held, same, derived⟩ :=
        deriveNewContentsFromChunks_eq_ok tools faults world path computed
      cases movePath with
      | none =>
        cases verified
        exact ⟨promised_update tools mode cwd resolved held derived _, same⟩
      | some destination =>
        unfold resolveMovePath at verified
        dsimp only at verified
        cases joined : tools.join cwd destination with
        | error =>
          rw [joined] at verified
          cases verified
        | ok =>
          rw [joined] at verified
          cases verified
          exact ⟨promised_move tools mode cwd resolved held derived _ joined, same⟩

/-- What verification has checked of the hunks: `taken` are the sources before them,
`added` the changes that they have been given. -/
structure Accepted (files : Files Path) (taken : List Path) (hunks : List Hunk)
    (added : List (Path × ApplyPatchFileChange Path)) : Prop where
  previewed : ∀ hunk ∈ hunks, hunk.Previewed tools mode cwd files
  distinct : DistinctSources tools cwd hunks
  fresh : ∀ hunk ∈ hunks, ∀ path, hunk.resolvePath tools cwd = .ok path → path ∉ taken
  promises_iff : ∀ target value, (target, value) ∈ promises added ↔
    ∃ hunk ∈ hunks, hunk.Leaves tools mode cwd files target value

theorem Accepted.nil {files : Files Path} : Accepted tools mode cwd files taken [] [] :=
  ⟨by simp, .nil, by simp, by simp [promises]⟩

variable {tools mode cwd}

theorem Accepted.cons {files : Files Path} (resolved : hunk.resolvePath tools cwd = .ok path)
    (free : path ∉ taken) (promised : Promised tools mode cwd files path hunk change)
    (accepted : Accepted tools mode cwd files (taken ++ [path]) hunks added) :
    Accepted tools mode cwd files taken (hunk :: hunks) ((path, change) :: added) where
  previewed := forall_mem_cons.mpr ⟨promised.previewed, accepted.previewed⟩
  distinct := by
    refine .cons ?_ accepted.distinct
    intro later mem other resolvedFirst resolvedLater
    apply accepted.fresh later mem other resolvedLater
    rw [ok.inj (resolvedFirst.symm.trans resolved)]
    exact mem_append_right taken (mem_singleton_self path)
  fresh := by
    refine forall_mem_cons.mpr ⟨?_, ?_⟩
    · intro other joined
      rw [ok.inj (joined.symm.trans resolved)]
      exact free
    · intro later mem other joined earlier
      exact accepted.fresh later mem other joined (mem_append_left _ earlier)
  promises_iff := by
    intro target value
    have split : promises ((path, change) :: added) = change.promises path ++ promises added := rfl
    rw [split, mem_append, promised.promises_iff, accepted.promises_iff, exists_mem_cons_iff]

/-- Whether the hunks agree can be read off the preview. -/
theorem Accepted.agreed_iff {files : Files Path}
    (accepted : Accepted tools mode cwd files taken hunks added) :
    Agreed tools mode cwd files hunks ↔ ∀ first ∈ promises added, ∀ second ∈ promises added,
        first.1 = second.1 → first.2 = second.2 := by
  constructor
  · rintro agreed ⟨path, value⟩ promised ⟨_, value'⟩ promised' rfl
    obtain ⟨first, firstMem, leaves⟩ := (accepted.promises_iff path value).mp promised
    obtain ⟨second, secondMem, leaves'⟩ := (accepted.promises_iff path value').mp promised'
    exact agreed first firstMem second secondMem path value value' leaves leaves'
  · intro agreed first firstMem second secondMem path value value' leaves leaves'
    exact agreed (path, value) ((accepted.promises_iff path value).mpr ⟨first, firstMem, leaves⟩)
      (path, value') ((accepted.promises_iff path value').mpr ⟨second, secondMem, leaves'⟩) rfl

variable [DecidableEq Path]

/-- The changes that are shown are those of accepted hunks. -/
theorem verifyHunks_eq_ok {changes all : List (Path × ApplyPatchFileChange Path)}
    (verified : verifyHunks tools faults mode cwd changes world hunks = .ok all) :
    ∃ added, all = changes ++ added ∧
      Accepted tools mode cwd world.files (changes.map fst) hunks added := by
  induction hunks generalizing changes world with
  | nil =>
    cases verified
    exact ⟨[], (append_nil _).symm, .nil tools mode cwd⟩
  | cons _ _ ih =>
    unfold verifyHunks at verified
    split at verified
    · cases verified
    · rename_i path resolved
      split at verified
      · cases verified
      · rename_i free
        split at verified
        · cases verified
        · rename_i change later called
          obtain ⟨promised, same⟩ := verifyHunk_eq_ok tools faults mode cwd resolved called
          obtain ⟨added, rfl, accepted⟩ := ih verified
          rw [same, map_append] at accepted
          refine ⟨(path, change) :: added, append_assoc changes [(path, change)] added, ?_⟩
          exact .cons resolved free promised accepted

/-- An action promises what its hunks leave, each alone, and their sources differ. -/
theorem tryVerifyApplyPatchArgs_eq_ok {args : ApplyPatchArgs} {start : Path}
    {action : ApplyPatchAction Path}
    (verified : tryVerifyApplyPatchArgs tools faults mode args start world = .ok action) :
    Accepted tools mode action.cwd world.files [] args.hunks action.changes := by
  unfold tryVerifyApplyPatchArgs at verified
  split at verified
  · cases verified
  · split at verified
    · cases verified
    · rename_i called
      cases verified
      obtain ⟨_, rfl, accepted⟩ := verifyHunks_eq_ok faults called
      exact accepted

end Verification

/-! ### What the application does -/

section Application

variable {tools : Tools Path} {mode : UpdateMode} {cwd : Path} {files : Files Path}
  {done : List Hunk} {hunk : Hunk} {path : Path} {value : Option String}
  {current current' : Files Path} {original new : String}

/-- A hunk touches its source, and otherwise only what it moves to. -/
theorem Hunk.Leaves.source_or_moved (leaves : hunk.Leaves tools mode cwd files path value) :
    hunk.resolvePath tools cwd = .ok path ∨ (hunk.MovesTo tools cwd path ∧ value ≠ none) := by
  cases leaves with
  | add resolved | delete resolved | update resolved | moveFrom resolved => exact .inl resolved
  | moveTo _ joined => exact .inr ⟨joined, some_ne_none _⟩

theorem overruled_concat_iff : Overruled tools mode cwd files (done ++ [hunk]) path ↔
    hunk.Overrules tools mode cwd files done path ∨
      (Overruled tools mode cwd files done path ∧ ¬ hunk.MovesTo tools cwd path) :=
  standing_concat_iff

/-- What overrules leaves something at its source. -/
theorem Hunk.Overrules.source {before : List Hunk}
    (overrules : hunk.Overrules tools mode cwd files before path) :
    hunk.resolvePath tools cwd = .ok path := by
  cases hunk with
  | addFile | deleteFile => exact overrules.elim
  | updateFile _ movePath =>
    cases movePath with
    | some => exact overrules.elim
    | none =>
      obtain ⟨-, _, leaves, -⟩ := overrules
      cases leaves with
      | update resolved => exact resolved

/-- A path that is overruled is the source of a hunk. -/
theorem Overruled.source {hunks : List Hunk} (overruled : Overruled tools mode cwd files hunks path) :
    ∃ hunk ∈ hunks, hunk.resolvePath tools cwd = .ok path := by
  obtain ⟨_, hunk, _, rfl, overrules, -⟩ := overruled
  exact ⟨hunk, by simp, overrules.source⟩

/-- The hunks can be compared with their preview. -/
structure Comparable (tools : Tools Path) (mode : UpdateMode) (cwd : Path) (files : Files Path)
    (hunks : List Hunk) : Prop where
  agreed : Agreed tools mode cwd files hunks
  distinct : DistinctSources tools cwd hunks
  previewed : ∀ hunk ∈ hunks, hunk.Previewed tools mode cwd files

variable (comparable : Comparable tools mode cwd files (done ++ [hunk]))
include comparable

theorem Comparable.of_concat : Comparable tools mode cwd files done where
  agreed first firstMem second secondMem :=
    comparable.agreed first (mem_append_left _ firstMem) second (mem_append_left _ secondMem)
  distinct := (pairwise_append.mp comparable.distinct).1
  previewed earlier mem := comparable.previewed earlier (mem_append_left _ mem)

theorem Comparable.last : hunk.Previewed tools mode cwd files :=
  comparable.previewed hunk (mem_append_right done (mem_singleton_self hunk))

/-- What the last hunk leaves is what an earlier one or itself leaves there. -/
theorem Comparable.agrees {other : Hunk} {value' : Option String} (mem : other ∈ done ++ [hunk])
    (leaves : other.Leaves tools mode cwd files path value)
    (leaves' : hunk.Leaves tools mode cwd files path value') : value = value' :=
  comparable.agreed other mem hunk (mem_append_right done (mem_singleton_self hunk))
    path value value' leaves leaves'

/-- The source of the last hunk is not the source of an earlier one. -/
theorem Comparable.source_ne {earlier : Hunk} (resolved : hunk.resolvePath tools cwd = .ok path)
    (mem : earlier ∈ done) : earlier.resolvePath tools cwd ≠ .ok path := by
  intro same
  have apart := (pairwise_append.mp comparable.distinct).2.2 earlier mem hunk
    (mem_singleton_self hunk)
  exact apart path same resolved

theorem Comparable.not_overruled (resolved : hunk.resolvePath tools cwd = .ok path) :
    ¬ Overruled tools mode cwd files done path := by
  intro overruled
  obtain ⟨_, mem, same⟩ := overruled.source
  exact comparable.source_ne resolved mem same

omit comparable

/-- After the hunks of `done`, the files are as their previews say, but for what has been
overruled. -/
structure Tracks (tools : Tools Path) (mode : UpdateMode) (cwd : Path) (files : Files Path)
    (done : List Hunk) (current : Files Path) : Prop where
  untouched : ∀ path, (∀ hunk ∈ done, ∀ value, ¬ hunk.Leaves tools mode cwd files path value) →
      current path = files path
  kept : ∀ hunk ∈ done, ∀ path value, hunk.Leaves tools mode cwd files path value →
    (current path = value ↔ ¬ Overruled tools mode cwd files done path)

theorem Tracks.nil : Tracks tools mode cwd files [] files :=
  ⟨fun _ _ => rfl, by simp⟩

/-- A hunk keeps the files on track if it leaves what it should, unless it is overruled, and
touches nothing else. -/
theorem Tracks.concat (tracks : Tracks tools mode cwd files done current)
    (comparable : Comparable tools mode cwd files (done ++ [hunk]))
    (same : ∀ path, (∀ value, ¬ hunk.Leaves tools mode cwd files path value) →
      current' path = current path)
    (holds : ∀ path value, hunk.Leaves tools mode cwd files path value →
      (current' path = value ↔ ¬ Overruled tools mode cwd files (done ++ [hunk]) path)) :
    Tracks tools mode cwd files (done ++ [hunk]) current' where
  untouched := by
    intro path silent
    obtain ⟨silentBefore, silentLast⟩ := forall_mem_append.mp silent
    rw [same path (silentLast hunk (mem_singleton_self hunk))]
    exact tracks.untouched path silentBefore
  kept := by
    intro other mem path value leaves
    by_cases touched : ∃ value', hunk.Leaves tools mode cwd files path value'
    · obtain ⟨value', leaves'⟩ := touched
      rw [comparable.agrees mem leaves leaves']
      exact holds path value' leaves'
    · have silent : ∀ value', ¬ hunk.Leaves tools mode cwd files path value' := by
        intro value' leaves'
        exact touched ⟨value', leaves'⟩
      have previewed := comparable.last
      have quiet : ¬ hunk.Overrules tools mode cwd files done path := by
        intro overrules
        obtain ⟨value', leaves'⟩ := previewed.source path overrules.source
        exact silent value' leaves'
      have stays : ¬ hunk.MovesTo tools cwd path := by
        intro moves
        obtain ⟨_, leaves'⟩ := previewed.target path moves
        exact silent _ leaves'
      have earlier : other ∈ done := by
        rcases mem_append.mp mem with earlier | last
        · exact earlier
        · rw [mem_singleton.mp last] at leaves
          exact absurd leaves (silent value)
      rw [same path silent, overruled_concat_iff]
      simpa [quiet, stays] using tracks.kept other earlier path value leaves

variable (tracks : Tracks tools mode cwd files done current)
include tracks

/-- The source of a hunk is as it was at first, if nothing has been moved there. -/
theorem Tracks.source_unchanged (comparable : Comparable tools mode cwd files (done ++ [hunk]))
    (resolved : hunk.resolvePath tools cwd = .ok path)
    (noMover : ∀ earlier ∈ done, ¬ earlier.MovesTo tools cwd path) : current path = files path := by
  apply tracks.untouched
  intro earlier mem value leaves
  rcases leaves.source_or_moved with same | ⟨moves, -⟩
  · exact comparable.source_ne resolved mem same
  · exact noMover earlier mem moves

variable [DecidableEq Path]

/-- A hunk that only writes or deletes its source, whatever was there. -/
theorem Tracks.put {change : ApplyPatchFileChange Path}
    (comparable : Comparable tools mode cwd files (done ++ [hunk]))
    (resolved : hunk.resolvePath tools cwd = .ok path)
    (promised : Promised tools mode cwd files path hunk change)
    (single : change.promises path = [(path, value)])
    (quiet : ¬ hunk.Overrules tools mode cwd files done path) :
    Tracks tools mode cwd files (done ++ [hunk]) (update current path value) := by
  have only := promised.promises_iff
  simp only [single, mem_singleton, mk.injEq] at only
  apply tracks.concat comparable
  · intro target silent
    apply update_of_ne
    rintro rfl
    exact silent value ((only _ _).mp ⟨rfl, rfl⟩)
  · intro target value' leaves
    obtain ⟨rfl, rfl⟩ := (only target value').mpr leaves
    rw [update_self, overruled_concat_iff]
    simp [quiet, comparable.not_overruled resolved]

variable {chunks : List UpdateFileChunk}

/-- An update of a file that has been moved there starts from the contents that it promises
itself, changes them once more, and may overrule them. -/
theorem Tracks.updateMoved {source : String}
    (comparable : Comparable tools mode cwd files (done ++ [.updateFile source none chunks]))
    (resolved : tools.join cwd source = .ok path) (held : current path = some original)
    (derived : deriveNewContents mode (tools.display path) chunks original = .ok new) {mover : Hunk}
    (mem : mover ∈ done) (moves : mover.MovesTo tools cwd path) :
    Tracks tools mode cwd files (done ++ [.updateFile source none chunks])
      (update current path (some new)) := by
  have notYet := comparable.not_overruled resolved
  apply tracks.concat comparable
  · intro target silent
    apply update_of_ne
    rintro rfl
    obtain ⟨value, leaves⟩ := comparable.last.source _ resolved
    exact silent value leaves
  · intro target value leaves
    have leaves' := leaves
    cases leaves with
    | @update _ _ _ _ promised joined _ _ =>
      cases ok.inj (joined.symm.trans resolved)
      obtain ⟨_, carries⟩ :=
        (comparable.previewed mover (mem_append_left _ mem)).target path moves
      rw [comparable.agrees (mem_append_left _ mem) carries leaves'] at carries
      have present : current path = some promised :=
        (tracks.kept mover mem path _ carries).mpr notYet
      cases some.inj (held.symm.trans present)
      rw [update_self, overruled_concat_iff, some_inj]
      constructor
      · rintro rfl (⟨-, _, leavesAgain, differs⟩ | ⟨overruled, -⟩)
        · cases comparable.agrees (by simp) leavesAgain leaves'
          exact differs derived
        · exact notYet overruled
      · intro kept
        by_contra differs
        apply kept
        refine .inl ⟨⟨mover, mem, moves⟩, original, leaves', ?_⟩
        intro same
        exact differs (ok.inj (derived.symm.trans same))

/-- An update in place. -/
theorem Tracks.update {source : String}
    (comparable : Comparable tools mode cwd files (done ++ [.updateFile source none chunks]))
    (resolved : tools.join cwd source = .ok path) (held : current path = some original)
    (derived : deriveNewContents mode (tools.display path) chunks original = .ok new) :
    Tracks tools mode cwd files (done ++ [.updateFile source none chunks])
      (update current path (some new)) := by
  by_cases moved : ∃ mover ∈ done, mover.MovesTo tools cwd path
  · obtain ⟨_, mem, moves⟩ := moved
    exact tracks.updateMoved comparable resolved held derived mem moves
  · have noMover : ∀ earlier ∈ done, ¬ earlier.MovesTo tools cwd path := by
      intro earlier mem moves
      exact moved ⟨earlier, mem, moves⟩
    have first : files path = some original := by
      rw [← tracks.source_unchanged comparable resolved noMover]
      exact held
    apply tracks.put comparable resolved (promised_update tools mode cwd resolved first derived "") rfl
    intro overrules
    exact moved overrules.1

/-- A move.  Nothing has been moved to its source before, so it carries what it promised. -/
theorem Tracks.move {source destination : String} {path target : Path}
    (comparable : Comparable tools mode cwd files
      (done ++ [.updateFile source (some destination) chunks]))
    (resolved : tools.join cwd source = .ok path) (joined : tools.join cwd destination = .ok target)
    (held : current path = some original)
    (derived : deriveNewContents mode (tools.display path) chunks original = .ok new) :
    Tracks tools mode cwd files (done ++ [.updateFile source (some destination) chunks])
      (Function.update (Function.update current target (some new)) path none) := by
  have noMover : ∀ earlier ∈ done, ¬ earlier.MovesTo tools cwd path := by
    intro earlier mem moves
    have member' := mem_append_left [.updateFile source (some destination) chunks] mem
    obtain ⟨_, carries⟩ := (comparable.previewed earlier member').target path moves
    cases comparable.agrees member' carries (.moveFrom resolved)
  have first : files path = some original := by
    rw [← tracks.source_unchanged comparable resolved noMover]
    exact held
  have movesTo := Hunk.Leaves.moveTo resolved joined first derived
  have distinct : target ≠ path := by
    rintro rfl
    cases comparable.agrees (by simp) movesTo (.moveFrom resolved)
  have only := (promised_move tools mode cwd resolved first derived "" joined).promises_iff
  apply tracks.concat comparable
  · intro other silent
    have notSource : other ≠ path := by
      rintro rfl
      exact silent none (.moveFrom resolved)
    have notTarget : other ≠ target := by
      rintro rfl
      exact silent (some new) movesTo
    rw [update_of_ne notSource, update_of_ne notTarget]
  · intro other value leaves
    have listed := (only other value).mpr leaves
    simp only [ApplyPatchFileChange.promises, mem_cons, not_mem_nil, or_false, mk.injEq] at listed
    rw [overruled_concat_iff]
    rcases listed with ⟨rfl, rfl⟩ | ⟨rfl, rfl⟩
    · simp [update_of_ne distinct, Hunk.Overrules, Hunk.MovesTo, joined]
    · simp [Hunk.Overrules, comparable.not_overruled resolved]

omit tracks

/-- Every hunk that succeeds keeps the files on track. -/
theorem Tracks.step {committed : AppliedPatchChange Path}
    (tracks : Tracks tools mode cwd files done current)
    (comparable : Comparable tools mode cwd files (done ++ [hunk]))
    (effect : HunkEffect tools mode cwd current hunk committed current') :
    Tracks tools mode cwd files (done ++ [hunk]) current' := by
  cases effect with
  | add _ resolved =>
    exact tracks.put comparable resolved (promised_add tools mode cwd resolved) rfl id
  | delete resolved =>
    exact tracks.put comparable resolved (promised_delete tools mode cwd resolved "") rfl id
  | update resolved held derived => exact tracks.update comparable resolved held derived
  | move _ resolved joined held derived =>
    exact tracks.move comparable resolved joined held derived

theorem tracks_of_passes {faults : Faults} {world : World Path} {application : Application Path}
    (passes : Passes (applyHunk tools faults mode cwd) { world } done application)
    (comparable : Comparable tools mode cwd world.files done) :
    Tracks tools mode cwd world.files done application.world.files := by
  apply passes.invariant (fun done application =>
    Comparable tools mode cwd world.files done →
      Tracks tools mode cwd world.files done application.world.files) ?_ ?_ comparable
  · intro _
    exact .nil
  · intro done hunk state state' onTrack went comparable
    have explains := explains_applyHunk tools faults mode cwd state hunk
    rw [went] at explains
    obtain ⟨_, effect, -⟩ := explains
    exact (onTrack comparable.of_concat).step comparable effect

end Application

variable [DecidableEq Path]

/-- An accepted patch that was applied has done exactly what its preview promised if and
only if the hunks agree on what they leave where they meet, and no update in place has
changed again what a move brought. -/
theorem preview_fulfilled_iff (tools : Tools Path) (verifying applying : Faults)
    (mode : UpdateMode) (args : ApplyPatchArgs) (cwd : Path) (world : World Path)
    (action : ApplyPatchAction Path) (application : Application Path)
    (accepted : tryVerifyApplyPatchArgs tools verifying mode args cwd world = .ok action)
    (applied : applyHunksToFiles tools applying mode args.hunks action.cwd world =
      .returned application) :
    Fulfilled world.files action.changes application.world.files ↔
      Agreed tools mode action.cwd world.files args.hunks ∧
        ∀ path, ¬ Overruled tools mode action.cwd world.files args.hunks path := by
  have checked := tryVerifyApplyPatchArgs_eq_ok verifying accepted
  have passes := applyHunksToFiles_eq_returned tools applying mode action.cwd applied
  constructor
  · rintro ⟨keeps, -⟩
    have left : ∀ hunk ∈ args.hunks, ∀ path value,
        hunk.Leaves tools mode action.cwd world.files path value →
          application.world.files path = value := by
      intro hunk member path value leaves
      exact keeps (path, value) ((checked.promises_iff path value).mpr ⟨hunk, member, leaves⟩)
    have agreed : Agreed tools mode action.cwd world.files args.hunks := by
      intro first firstMember second secondMember path value value' leaves leaves'
      rw [← left first firstMember path value leaves]
      exact left second secondMember path value' leaves'
    refine ⟨agreed, ?_⟩
    intro path overruled
    obtain ⟨hunk, member, resolved⟩ := overruled.source
    obtain ⟨value, leaves⟩ := (checked.previewed hunk member).source path resolved
    have tracks := tracks_of_passes passes ⟨agreed, checked.distinct, checked.previewed⟩
    exact (tracks.kept hunk member path value leaves).mp (left hunk member path value leaves) overruled
  · rintro ⟨agreed, standing⟩
    have tracks := tracks_of_passes passes ⟨agreed, checked.distinct, checked.previewed⟩
    constructor
    · rintro ⟨path, value⟩ promised
      obtain ⟨hunk, member, leaves⟩ := (checked.promises_iff path value).mp promised
      exact (tracks.kept hunk member path value leaves).mpr (standing path)
    · intro path unpromised
      apply tracks.untouched
      intro hunk member value leaves
      apply unpromised
      exact mem_map_of_mem ((checked.promises_iff path value).mpr ⟨hunk, member, leaves⟩)

/-- Two files, whose paths are `/a` and `/b`. -/
def twoFiles : World String :=
  { files := update (update (fun _ => none) "/a" (some "one\n")) "/b" (some "other\n") }

/-- `a` becomes `target`, with its line changed. -/
def renameTo (target : String) : Hunk :=
  .updateFile "a" (some target) [{ oldLines := ["one"], newLines := ["two"] }]

/-- A file is renamed and another one deleted. -/
def renameAndDelete : ApplyPatchArgs :=
  { patch := "", hunks := [renameTo "c", .deleteFile "b"] }

/-- The rename and the deletion touch different paths, and both do what the preview has promised. -/
theorem renameAndDelete_fulfilled : ∃ action application,
    tryVerifyApplyPatchArgs Tools.plain Faults.none .normalizeToLf renameAndDelete "" twoFiles =
        .ok action ∧
      applyHunksToFiles Tools.plain Faults.none .normalizeToLf renameAndDelete.hunks action.cwd
          twoFiles = .returned application ∧
        Fulfilled twoFiles.files action.changes application.world.files := by
  refine ⟨_, _, rfl, rfl, ?_⟩
  refine (preview_fulfilled_iff Tools.plain Faults.none Faults.none .normalizeToLf renameAndDelete
    "" twoFiles _ _ rfl rfl).mpr ⟨?_, ?_⟩
  · have verified : tryVerifyApplyPatchArgs Tools.plain Faults.none .normalizeToLf
        renameAndDelete "" twoFiles = .ok _ := rfl
    apply (tryVerifyApplyPatchArgs_eq_ok Faults.none verified).agreed_iff.mpr
    decide
  · rintro _ ⟨_, hunk, _, split, overrules, -⟩
    have member : hunk ∈ renameAndDelete.hunks := by
      rw [split]
      simp
    rcases mem_pair.mp member with rfl | rfl <;> exact overrules

/-- A file is moved onto another one, which is deleted then. -/
def renameOntoDeleted : ApplyPatchArgs :=
  { patch := "", hunks := [renameTo "b", .deleteFile "b"] }

/-- The preview promises the moved file, and nothing is left of it. -/
theorem renameOntoDeleted_unfulfilled : ∃ action application,
    tryVerifyApplyPatchArgs Tools.plain Faults.none .normalizeToLf renameOntoDeleted "" twoFiles =
        .ok action ∧
      applyHunksToFiles Tools.plain Faults.none .normalizeToLf renameOntoDeleted.hunks action.cwd
          twoFiles = .returned application ∧
        ("/b", some "two\n") ∈ promises action.changes ∧ application.world.files "/b" = none ∧
            ¬ Fulfilled twoFiles.files action.changes application.world.files := by
  refine ⟨_, _, rfl, rfl, ?_, ?_, ?_⟩
  · decide
  · decide
  · rintro ⟨keeps, -⟩
    exact absurd (keeps ("/b", some "two\n") (by decide)) (by decide)

end WeaveCodex.ApplyPatch
