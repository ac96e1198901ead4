/-
Purpose: When the delta of an application is exact: replaying its changes on the initial
  files gives the files that result, after every success and every failure, unless a
  hunk moves a file onto itself and nothing writes the file again.
-/
import WeaveCodex.ApplyPatch.Proofs.HunkEffects
import WeaveCodex.Library.Log

namespace WeaveCodex.ApplyPatch

open Library.EarlyExit Library.Log List
open Function (update)

universe u

variable {Path : Type u}

/-- The hunk moves the file at `path` onto itself. -/
def Hunk.MovesOntoItself (tools : Tools Path) (cwd path : Path) : Hunk → Prop
  | .updateFile source (some destination) _ =>
    tools.join cwd source = .ok path ∧ tools.join cwd destination = .ok path
  | .updateFile _ none _ | .addFile _ _ | .deleteFile _ => False

/-- The hunk writes a file at `path`, whether or not there was one. -/
def Hunk.Writes (tools : Tools Path) (cwd path : Path) : Hunk → Prop
  | .addFile source _ => tools.join cwd source = .ok path
  | .updateFile source (some destination) _ =>
    tools.join cwd destination = .ok path ∧ tools.join cwd source ≠ .ok path
  | .updateFile _ none _ | .deleteFile _ => False

/-- The file at `path` was moved onto itself, and no later hunk writes it. -/
def Lost (tools : Tools Path) (cwd : Path) (hunks : List Hunk) (path : Path) : Prop :=
  Standing (fun _ hunk => hunk.MovesOntoItself tools cwd path)
    (fun hunk => hunk.Writes tools cwd path) hunks

variable {cwd path : Path} {tools : Tools Path} {replayed files : Files Path} {lost : Path → Prop}

theorem lost_concat_iff {hunks : List Hunk} {hunk : Hunk} :
    Lost tools cwd (hunks ++ [hunk]) path ↔ hunk.MovesOntoItself tools cwd path ∨
      (Lost tools cwd hunks path ∧ ¬ hunk.Writes tools cwd path) :=
  standing_concat_iff

variable [DecidableEq Path]

/-- What a committed change does to the files. -/
def AppliedPatchChange.replay (files : Files Path) (committed : AppliedPatchChange Path) : Files Path :=
  match committed.change with
  | .add content _ => update files committed.path (some content)
  | .delete _ => update files committed.path none
  | .update none _ _ newContent => update files committed.path (some newContent)
  | .update (some destination) _ _ newContent =>
    update (update files committed.path none) destination (some newContent)

/-- The files after all changes, in order. -/
def replay (changes : List (AppliedPatchChange Path)) (files : Files Path) : Files Path :=
  changes.foldl AppliedPatchChange.replay files

theorem replay_append (changes more : List (AppliedPatchChange Path)) (base : Files Path) :
    replay (changes ++ more) base = replay more (replay changes base) :=
  foldl_append

/-- The replayed files are the files, but for the lost ones, which are gone and which the
replay still has. -/
def AgreeBut (lost : Path → Prop) (replayed files : Files Path) : Prop :=
  ∀ path, (lost path → files path = none ∧ replayed path ≠ none) ∧
    (¬ lost path → replayed path = files path)

omit [DecidableEq Path] in
theorem AgreeBut.eq_iff (agree : AgreeBut lost replayed files) :
    replayed = files ↔ ∀ path, ¬ lost path := by
  constructor
  · rintro rfl path isLost
    obtain ⟨gone, still⟩ := (agree path).1 isLost
    exact still gone
  · intro none
    funext path
    exact (agree path).2 (none path)

omit [DecidableEq Path] in
/-- A file that is there is not lost. -/
theorem AgreeBut.not_lost {content : String} (agree : AgreeBut lost replayed files)
    (held : files path = some content) :
    ¬ lost path := by
  intro isLost
  rw [((agree path).1 isLost).1] at held
  cases held

/-- A file that is written in both is not lost any more. -/
theorem AgreeBut.written (agree : AgreeBut lost replayed files) (target : Path) (content : String) :
    AgreeBut (fun path => lost path ∧ path ≠ target) (update replayed target (some content))
      (update files target (some content)) := by
  intro path
  by_cases here : path = target
  · simp [here]
  · simpa [here] using agree path

section Replaying

variable {mode : UpdateMode} {done : List Hunk} {hunk : Hunk} {files' : Files Path}

open Hunk

/-- One hunk keeps the replay of its delta in agreement with the files. -/
theorem HunkEffect.agree {committed : AppliedPatchChange Path}
    (effect : HunkEffect tools mode cwd files hunk committed files')
    (agree : AgreeBut (Lost tools cwd done) replayed files) :
    AgreeBut (Lost tools cwd (done ++ [hunk])) (committed.replay replayed) files' := by
  intro path
  have atPath := agree path
  rw [lost_concat_iff]
  cases effect with
  | @add _ _ target _ resolved =>
    by_cases here : path = target
    · subst here
      simp [AppliedPatchChange.replay, MovesOntoItself, Writes, resolved]
    · have other : target ≠ path := Ne.symm here
      simpa [AppliedPatchChange.replay, MovesOntoItself, Writes, resolved, here,
        other] using atPath
  | @delete source content target resolved held
  | @update source target chunks original new resolved held derived =>
    by_cases here : path = target
    · subst here
      simp [AppliedPatchChange.replay, MovesOntoItself, Writes, agree.not_lost held]
    · simpa [AppliedPatchChange.replay, MovesOntoItself, Writes, here] using atPath
  | @move source destination origin target chunks original new overwritten resolved joined held
      derived =>
      by_cases atTarget : path = target
      · subst atTarget
        -- The destination is written; it stays unless it is the source as well.
        by_cases self : path = origin
        · subst self
          simp [AppliedPatchChange.replay, MovesOntoItself, resolved, joined]
        · have other : origin ≠ path := Ne.symm self
          simp [AppliedPatchChange.replay, MovesOntoItself, Writes, resolved, joined,
            self, other]
      · have other : target ≠ path := Ne.symm atTarget
        by_cases atOrigin : path = origin
        · subst atOrigin
          simp [AppliedPatchChange.replay, MovesOntoItself, Writes, joined, other,
            atTarget, agree.not_lost held]
        · simpa [AppliedPatchChange.replay, MovesOntoItself, Writes, joined, other,
            atTarget, atOrigin] using atPath

/-- After a hunk that fails the replay agrees, if the lost files are there again. -/
theorem PartialEffect.replay_eq_iff {committed : List (AppliedPatchChange Path)}
    (effect : PartialEffect tools cwd hunk files committed files')
    (agree : AgreeBut lost replayed files) : replay committed replayed = files' ↔
      ∀ path, lost path → hunk.MovesTo tools cwd path ∧ files' path ≠ none := by
  cases effect with
  | nothing =>
    refine agree.eq_iff.trans (forall_congr' fun path => imp_congr_right fun isLost => ?_)
    simp [((agree path).1 isLost).1]
  | @written target new overwritten moves =>
    refine (agree.written target new).eq_iff.trans (forall_congr' fun path => ?_)
    rw [not_and]
    refine imp_congr_right fun isLost => ?_
    by_cases here : path = target
    · simp [here, moves]
    · simp [here, ((agree path).1 isLost).1]

/-- After the hunks of `done`: an exact delta replays to the files but for the lost ones. -/
def Accounts (tools : Tools Path) (cwd : Path) (base : Files Path) (done : List Hunk)
    (application : Application Path) : Prop :=
  application.delta.exact = true →
    AgreeBut (Lost tools cwd done) (replay application.delta.changes base) application.world.files

variable {application application' : Application Path} {base : Files Path}

theorem Accounts.next (accounts : Accounts tools cwd base done application)
    (explains : Explains tools mode cwd hunk application (.next application')) :
    Accounts tools cwd base (done ++ [hunk]) application' := by
  obtain ⟨_, effect, recorded⟩ := explains
  intro exact
  obtain ⟨wasExact, changes⟩ := recorded exact
  rw [changes, replay_append]
  exact effect.agree (accounts wasExact)

theorem Accounts.raised {error : String} (accounts : Accounts tools cwd base done application)
    (explains : Explains tools mode cwd hunk application (.raised error application'))
    (exact : application'.delta.exact = true) :
    replay application'.delta.changes base = application'.world.files ↔
      ∀ path, Lost tools cwd done path →
        hunk.MovesTo tools cwd path ∧ application'.world.files path ≠ none := by
  obtain ⟨_, effect, recorded⟩ := explains exact
  obtain ⟨wasExact, changes⟩ := recorded exact
  rw [changes, replay_append]
  exact effect.replay_eq_iff (accounts wasExact)

end Replaying

theorem accounts_of_passes {tools : Tools Path} {faults : Faults} {mode : UpdateMode} {cwd : Path}
    {world : World Path} {done : List Hunk} {application : Application Path}
    (passes : Passes (applyHunk tools faults mode cwd) { world } done application) :
    Accounts tools cwd world.files done application := by
  apply passes.invariant (Accounts tools cwd world.files)
  · intro _ path
    exact ⟨fun isLost => absurd isLost not_standing_nil, fun _ => rfl⟩
  · intro done hunk state state' accounts went
    have explains := explains_applyHunk tools faults mode cwd state hunk
    rw [went] at explains
    exact accounts.next explains

/-- The hunks that have been applied when the application ends. -/
def appliedHunks (tools : Tools Path) (faults : Faults) (mode : UpdateMode) (hunks : List Hunk)
    (cwd : Path) (world : World Path) : List Hunk :=
  passed (applyHunk tools faults mode cwd) hunks { world }

/-- Whatever fails on the way, and however the application ends: an exact delta replays on the
initial files to the files that result, exactly if every file that one of the applied hunks moved
onto itself has been written again, by a later one of them or by the hunk that failed, if that is
a move to it. -/
theorem delta_replays (tools : Tools Path) (faults : Faults) (mode : UpdateMode)
    (hunks : List Hunk) (cwd : Path) (world : World Path) {ending : Ending (Application Path)}
    (applied : applyHunksToFiles tools faults mode hunks cwd world = ending)
    (exact : ending.state.delta.exact = true) :
    replay ending.state.delta.changes world.files = ending.state.world.files ↔
      ∀ path, Lost tools cwd (appliedHunks tools faults mode hunks cwd world) path →
        ∃ failed, hunks[(appliedHunks tools faults mode hunks cwd world).length]? = some failed ∧
          failed.MovesTo tools cwd path ∧ ending.state.world.files path ≠ none := by
  unfold applyHunksToFiles at applied
  split at applied
  · rename_i empty
    rw [← applied, empty]
    exact iff_of_true rfl fun path isLost => absurd isLost not_standing_nil
  · obtain ⟨_, state, split, passes, last⟩ :=
      loop_passed (applyHunk tools faults mode cwd) hunks { world }
    rw [applied] at last
    unfold appliedHunks
    generalize passed (applyHunk tools faults mode cwd) hunks { world } = done at split passes ⊢
    rw [split]
    cases last with
    | exhausted => simpa [Ending.state] using (accounts_of_passes passes exact).eq_iff
    | @stopped hunk _ _ stopped =>
      have explains := explains_applyHunk tools faults mode cwd state hunk
      rw [stopped] at explains
      exact explains.elim
    | @raised hunk _ _ _ raised =>
      have explains := explains_applyHunk tools faults mode cwd state hunk
      rw [raised] at explains
      simpa [Ending.state] using (accounts_of_passes passes).raised explains exact

/-- The first line `one` becomes `two`. -/
def oneToTwo : UpdateFileChunk :=
  { oldLines := ["one"], newLines := ["two"] }

/-- One file, whose path is `/a`. -/
def oneFile : World String :=
  { files := update (fun _ => none) "/a" (some "one\n") }

/-- A second file at `/c`. -/
def movedPair : World String :=
  { files := update oneFile.files "/c" (some "one\n") }

/-- The fourteenth call is a removal, which fails and does nothing. -/
def stuckRemoval : Faults :=
  { remove := fun call => if call = 13 then some (⟨.other, "Permission denied"⟩, false) else none }

/-- The file is moved onto itself and so lost; the next move writes it again, and fails as it
cannot remove its original. -/
def rewrittenMove : List Hunk :=
  [.updateFile "a" (some "a") [oneToTwo], .updateFile "c" (some "a") [oneToTwo], .deleteFile "c"]

/-- The failed run has written again what was lost, and so its delta replays. -/
theorem rewrittenMove_replays : ∃ error application,
    applyHunksToFiles Tools.plain stuckRemoval .normalizeToLf rewrittenMove "" movedPair =
        .raised error application ∧ application.delta.exact = true ∧
      replay application.delta.changes movedPair.files = application.world.files := by
  refine ⟨_, _, rfl, by decide, (delta_replays Tools.plain stuckRemoval .normalizeToLf rewrittenMove ""
    movedPair rfl (by decide)).mpr fun path isLost => ?_⟩
  have isLost : Lost Tools.plain "" ([] ++ [.updateFile "a" (some "a") [oneToTwo]]) path := isLost
  rcases lost_concat_iff.mp isLost with ⟨resolved, -⟩ | ⟨nothing, -⟩
  · cases resolved
    exact ⟨_, rfl, rfl, by decide⟩
  · exact absurd nothing not_standing_nil

/-- A file that is moved onto itself is gone, while the exact delta says it was updated. -/
theorem selfMove_breaks_replay : ∃ application, applyHunksToFiles Tools.plain Faults.none .normalizeToLf
      [.updateFile "a" (some "a") [oneToTwo]] "" oneFile = .returned application ∧
    application.delta.exact = true ∧ application.world.files "/a" = none ∧
      replay application.delta.changes oneFile.files "/a" = some "two\n" := by
  refine ⟨_, rfl, ?_, ?_, ?_⟩
  · decide
  · decide
  · decide

end WeaveCodex.ApplyPatch
