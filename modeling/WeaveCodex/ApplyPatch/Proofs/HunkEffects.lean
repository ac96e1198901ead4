/-
Purpose: What one hunk does to the files and to the delta, for every pattern of faults:
  its whole effect when it succeeds, and what it may leave behind when it fails.
-/
import WeaveCodex.ApplyPatch.Apply

namespace WeaveCodex.ApplyPatch

open Library.EarlyExit Function List
open Function (update)
open World Application

universe u

variable {Path : Type u}

/-! ### What the calls do to the files -/

section Calls

variable (tools : Tools Path) (faults : Faults) (world : World Path) (path : Path)

theorem files_getMetadata : (world.getMetadata faults path).2.files = world.files := by
  unfold getMetadata
  split
  · rfl
  · split <;> rfl

theorem files_readFileText : (world.readFileText faults path).2.files = world.files := by
  unfold readFileText
  split
  · rfl
  · split <;> rfl

theorem files_createDirectory : (world.createDirectory faults).2.files = world.files := by
  unfold createDirectory
  split <;> rfl

variable {world' : World Path} {contents : String}

theorem readFileText_eq_ok (read : world.readFileText faults path = (.ok contents, world')) :
    world.files path = some contents ∧ world'.files = world.files := by
  unfold readFileText at read
  split at read
  · cases read
  · split at read
    · rename_i found
      cases read
      exact ⟨found, rfl⟩
    · cases read

theorem files_ensureNotDirectory : (ensureNotDirectory faults world path).2.files = world.files := by
  have same := files_getMetadata faults world path
  unfold ensureNotDirectory
  split
  · rename_i called
    rw [called] at same
    exact same
  · rename_i called
    rw [called] at same
    split <;> exact same

/-- The check after a failed removal reads only, and succeeds only on the expected
content. -/
theorem removeFailureWasSideEffectFree_spec (expected : Option String) :
    (removeFailureWasSideEffectFree faults world path expected).2.files = world.files ∧
      ((removeFailureWasSideEffectFree faults world path expected).1 = true →
        ∃ content, expected = some content ∧ world.files path = some content) := by
  unfold removeFailureWasSideEffectFree
  cases expected with
  | none => simp
  | some content =>
    have same := files_readFileText faults world path
    dsimp only
    split
    · rename_i called
      rw [called] at same
      exact ⟨same, by simp⟩
    · rename_i called
      obtain ⟨stored, -⟩ := readFileText_eq_ok faults world path called
      rw [called] at same
      refine ⟨same, ?_⟩
      intro equal
      exact ⟨content, rfl, by rw [stored, of_decide_eq_true equal]⟩

/-- The new contents come from the file as it is. -/
theorem deriveNewContentsFromChunks_eq_ok {mode : UpdateMode} {chunks : List UpdateFileChunk}
    {applied : AppliedPatch}
    (derived : deriveNewContentsFromChunks tools faults mode world path chunks =
      (.ok applied, world')) :
    world.files path = some applied.originalContents ∧ world'.files = world.files ∧
      deriveNewContents mode (tools.display path) chunks applied.originalContents =
        .ok applied.newContents := by
  unfold deriveNewContentsFromChunks at derived
  split at derived
  · cases derived
  · rename_i read
    obtain ⟨stored, same⟩ := readFileText_eq_ok faults world path read
    split at derived
    · cases derived
    · rename_i computed
      cases derived
      exact ⟨stored, same, computed⟩

theorem files_deriveNewContentsFromChunks (mode : UpdateMode) (chunks : List UpdateFileChunk) :
    (deriveNewContentsFromChunks tools faults mode world path chunks).2.files = world.files := by
  have same := files_readFileText faults world path
  unfold deriveNewContentsFromChunks
  split
  · rename_i read
    rw [read] at same
    exact same
  · rename_i read
    rw [read] at same
    split <;> exact same

variable [DecidableEq Path]

theorem writeFile_eq_ok (wrote : world.writeFile faults path contents = (.ok (), world')) :
    world'.files = update world.files path (some contents) := by
  unfold writeFile at wrote
  split at wrote
  · cases wrote
    rfl
  · cases wrote
  · cases wrote

variable {error : IoError}

/-- A failed write leaves every other path alone. -/
theorem writeFile_eq_error (failed : world.writeFile faults path contents = (.error error, world')) :
    ∃ left, world'.files = update world.files path left := by
  unfold writeFile at failed
  split at failed
  · cases failed
  · cases failed
    exact ⟨world.files path, (update_eq_self path world.files).symm⟩
  · cases failed
    exact ⟨_, rfl⟩

theorem remove_eq_ok (removed : world.remove faults path = (.ok (), world')) :
    (∃ content, world.files path = some content) ∧ world'.files = update world.files path none := by
  unfold remove at removed
  split at removed
  · cases removed
  · split at removed
    · rename_i content found
      cases removed
      exact ⟨⟨content, found⟩, rfl⟩
    · cases removed

/-- A failed removal leaves the files alone or removes the file. -/
theorem remove_eq_error (failed : world.remove faults path = (.error error, world')) :
    world'.files = world.files ∨ world'.files = update world.files path none := by
  unfold remove at failed
  split at failed
  · rename_i gone _
    cases failed
    cases gone with
    | true => exact .inr rfl
    | false => exact .inl rfl
  · split at failed
    · cases failed
    · cases failed
      exact .inl rfl

theorem retryWrite_eq_ok (wrote : retryWrite tools faults world path contents = (.ok (), world')) :
    world'.files = update world.files path (some contents) := by
  unfold retryWrite at wrote
  split at wrote
  · rename_i called
    cases wrote
    exact writeFile_eq_ok faults world path called
  · cases wrote

/-- A write that succeeded at last has the same effect as one that succeeded at once:
whatever the first one left at the path is overwritten. -/
theorem writeFileWithMissingParentRetry_eq_ok
    (wrote : writeFileWithMissingParentRetry tools faults world path contents = (.ok (), world')) :
    world'.files = update world.files path (some contents) := by
  unfold writeFileWithMissingParentRetry at wrote
  split at wrote
  · rename_i called
    cases wrote
    exact writeFile_eq_ok faults world path called
  · rename_i middle failed
    obtain ⟨_, leaves⟩ := writeFile_eq_error faults world path failed
    split at wrote
    · split at wrote
      · rw [retryWrite_eq_ok tools faults _ path wrote, leaves, update_idem]
      · split at wrote
        · cases wrote
        · rename_i created
          have same := files_createDirectory faults middle
          rw [created] at same
          rw [retryWrite_eq_ok tools faults _ path wrote, same, leaves, update_idem]
    · cases wrote

end Calls

/-! ### Steps that only read -/

/-- The files and the changes are the same, and the delta has become no more exact. -/
structure Untouched (application application' : Application Path) : Prop where
  files : application'.world.files = application.world.files
  changes : application'.delta.changes = application.delta.changes
  exact : application'.delta.exact = true → application.delta.exact = true

section Reading

variable {application application' : Application Path}

theorem Untouched.trans {application'' : Application Path}
    (first : Untouched application application') (second : Untouched application' application'') :
    Untouched application application'' := by
  refine ⟨second.files.trans first.files, second.changes.trans first.changes, ?_⟩
  exact first.exact ∘ second.exact

theorem Untouched.setWorld {world : World Path} (same : world.files = application.world.files) :
    Untouched application (application.setWorld world) :=
  ⟨same, rfl, id⟩

theorem Untouched.keepExact (flag : Bool) : Untouched application (application.keepExact flag) := by
  refine ⟨rfl, rfl, ?_⟩
  intro exact
  exact (Bool.and_eq_true_iff.mp exact).1

/-- If the delta is exact, it was, and these changes were appended. -/
def Recorded (application application' : Application Path)
    (committed : List (AppliedPatchChange Path)) : Prop :=
  application'.delta.exact = true → application.delta.exact = true ∧
    application'.delta.changes = application.delta.changes ++ committed

theorem Recorded.of_untouched {later : Application Path}
    {committed : List (AppliedPatchChange Path)} (untouched : Untouched application application')
    (recorded : Recorded application' later committed) : Recorded application later committed := by
  intro exact
  obtain ⟨wasExact, changes⟩ := recorded exact
  rw [← untouched.changes]
  exact ⟨untouched.exact wasExact, changes⟩

variable (faults : Faults) (path : Path)

theorem untouched_note :
    Untouched application (noteExistingPathDeltaSupport faults application path) := by
  unfold noteExistingPathDeltaSupport
  exact (Untouched.setWorld (files_getMetadata faults _ path)).trans (Untouched.keepExact _)

theorem untouched_readOptional :
    Untouched application (readOptionalFileTextForDelta faults application path).2 := by
  unfold readOptionalFileTextForDelta
  refine (untouched_note faults path).trans ?_
  exact (Untouched.setWorld (files_readFileText faults _ path)).trans (Untouched.keepExact _)

end Reading

/-! ### Effects -/

variable [DecidableEq Path]

/-- A hunk that succeeds takes `files` to the last argument and commits one change. -/
inductive HunkEffect (tools : Tools Path) (mode : UpdateMode) (cwd : Path) (files : Files Path) :
    Hunk → AppliedPatchChange Path → Files Path → Prop where
  | add {source contents path} (overwritten : Option String) :
      tools.join cwd source = .ok path → HunkEffect tools mode cwd files (.addFile source contents)
          ⟨path, .add contents overwritten⟩ (update files path (some contents))
  | delete {source content path} : tools.join cwd source = .ok path → files path = some content →
      HunkEffect tools mode cwd files (.deleteFile source) ⟨path, .delete content⟩
        (update files path none)
  | update {source path chunks original new} :
      tools.join cwd source = .ok path → files path = some original →
        deriveNewContents mode (tools.display path) chunks original = .ok new →
          HunkEffect tools mode cwd files (.updateFile source none chunks)
            ⟨path, .update none original none new⟩ (update files path (some new))
  | move {source destination path target chunks original new} (overwritten : Option String) :
      tools.join cwd source = .ok path → tools.join cwd destination = .ok target →
        files path = some original →
          deriveNewContents mode (tools.display path) chunks original = .ok new →
            HunkEffect tools mode cwd files (.updateFile source (some destination) chunks)
              ⟨path, .update (some target) original overwritten new⟩
              (update (update files target (some new)) path none)

/-- The hunk moves a file to `path`. -/
def Hunk.MovesTo (tools : Tools Path) (cwd path : Path) : Hunk → Prop
  | .updateFile _ (some destination) _ => tools.join cwd destination = .ok path
  | .updateFile _ none _ | .addFile _ _ | .deleteFile _ => False

/-- What a hunk that fails leaves behind: nothing, or the written destination of a move. -/
inductive PartialEffect (tools : Tools Path) (cwd : Path) (hunk : Hunk) (files : Files Path) :
    List (AppliedPatchChange Path) → Files Path → Prop where
  | nothing : PartialEffect tools cwd hunk files [] files
  | written {target : Path} (new : String) (overwritten : Option String) :
      hunk.MovesTo tools cwd target → PartialEffect tools cwd hunk files
        [⟨target, .add new overwritten⟩] (update files target (some new))

/-- The outcome of a hunk is an effect that its delta records. -/
def Explains (tools : Tools Path) (mode : UpdateMode) (cwd : Path) (hunk : Hunk)
    (application : Application Path) : Flow (Application Path) → Prop
  | .next application' =>
    ∃ committed, HunkEffect tools mode cwd application.world.files hunk committed
        application'.world.files ∧ Recorded application application' [committed]
  | .raised _ application' =>
    application'.delta.exact = true → ∃ committed,
      PartialEffect tools cwd hunk application.world.files committed application'.world.files ∧
        Recorded application application' committed
  | .stop _ => False

section Outcomes

variable {tools : Tools Path} {mode : UpdateMode} {cwd : Path} {hunk : Hunk}
  {application application' : Application Path}

/-- Reading first does not matter. -/
theorem Explains.of_untouched {flow : Flow (Application Path)}
    (untouched : Untouched application application')
    (explains : Explains tools mode cwd hunk application' flow) :
    Explains tools mode cwd hunk application flow := by
  cases flow with
  | next =>
    obtain ⟨committed, effect, recorded⟩ := explains
    rw [untouched.files] at effect
    exact ⟨committed, effect, recorded.of_untouched untouched⟩
  | stop => exact explains
  | raised =>
    intro exact
    obtain ⟨committed, effect, recorded⟩ := explains exact
    rw [untouched.files] at effect
    exact ⟨committed, effect, recorded.of_untouched untouched⟩

/-- A failure that has only read, as far as an exact delta tells. -/
theorem Explains.failed (error : String)
    (untouched : application'.delta.exact = true → Untouched application application') :
    Explains tools mode cwd hunk application (.raised error application') := by
  intro exact
  refine ⟨[], ?_, ?_⟩
  · rw [(untouched exact).files]
    exact .nothing
  · intro _
    rw [(untouched exact).changes, append_nil]
    exact ⟨(untouched exact).exact exact, rfl⟩

/-- A failure after the destination of a move has been written and recorded. -/
theorem Explains.halfMoved {written : World Path} {target : Path} {new : String}
    {overwritten : Option String} (error : String) (moves : hunk.MovesTo tools cwd target)
    (wrote : written.files = update application.world.files target (some new))
    (untouched : application'.delta.exact = true →
      Untouched ((application.setWorld written).record target (.add new overwritten)) application') :
    Explains tools mode cwd hunk application (.raised error application') := by
  intro exact
  refine ⟨[⟨target, .add new overwritten⟩], ?_, ?_⟩
  · rw [(untouched exact).files]
    show PartialEffect tools cwd hunk application.world.files _ written.files
    rw [wrote]
    exact .written new overwritten moves
  · intro _
    exact ⟨(untouched exact).exact exact, (untouched exact).changes⟩

/-- A failure that gives up the exactness of the delta. -/
theorem Explains.inexact (error : String) :
    Explains tools mode cwd hunk application (.raised error (application'.keepExact false)) := by
  intro exact
  simp [keepExact] at exact

end Outcomes

/-! ### Hunks -/

section Hunks

variable {application : Application Path} (tools : Tools Path) (faults : Faults) (mode : UpdateMode)
  (cwd : Path) {source : String}

/-- A failed removal after which the expected content is still there has changed
nothing. -/
theorem untouched_failedRemoval {removed : World Path} {path : Path} {content : Option String}
    (failed : removed.files = application.world.files ∨
      removed.files = update application.world.files path none)
    (exact : ((application.setWorld
      (removeFailureWasSideEffectFree faults removed path content).2).keepExact
        (removeFailureWasSideEffectFree faults removed path content).1).delta.exact = true) :
    Untouched application ((application.setWorld
      (removeFailureWasSideEffectFree faults removed path content).2).keepExact
        (removeFailureWasSideEffectFree faults removed path content).1) := by
  obtain ⟨same, onlyIf⟩ := removeFailureWasSideEffectFree_spec faults removed path content
  obtain ⟨-, free⟩ := Bool.and_eq_true_iff.mp exact
  obtain ⟨_, _, stored⟩ := onlyIf free
  have unchanged : removed.files = application.world.files := by
    rcases failed with unchanged | gone
    · exact unchanged
    · rw [gone, update_self] at stored
      cases stored
  exact (Untouched.setWorld (same.trans unchanged)).trans (Untouched.keepExact _)

section

variable {path : Path} (resolved : tools.join cwd source = .ok path) (affected : String)
include resolved

/-- The removal of a deleted file is explained by the content that was read. -/
theorem explains_removeDeleted {deletedContent : Option String}
    (held : ∀ content, deletedContent = some content → application.world.files path = some content)
    (inexact : deletedContent = none → application.delta.exact = false) :
    Explains tools mode cwd (.deleteFile source) application
      (removeDeleted tools faults application path affected deletedContent) := by
  have same := files_ensureNotDirectory faults application.world path
  unfold removeDeleted
  split
  · rename_i called
    rw [called] at same
    exact .failed _ fun _ => .setWorld same
  · rename_i checked called
    rw [called] at same
    have same : checked.files = application.world.files := same
    split
    · rename_i failed
      apply Explains.failed
      apply untouched_failedRemoval faults
      rw [← same]
      exact remove_eq_error faults checked path failed
    · rename_i removed done
      obtain ⟨⟨content, found⟩, gone⟩ := remove_eq_ok faults checked path done
      rw [same] at found gone
      cases deletedContent with
      | none =>
        refine ⟨⟨path, .delete content⟩, ?_, ?_⟩
        · show HunkEffect tools mode cwd _ _ _ removed.files
          rw [gone]
          exact .delete resolved found
        · intro exact
          exact absurd exact (by simp [inexact rfl, setWorld, noteDeleted])
      | some content =>
        refine ⟨⟨path, .delete content⟩, ?_, fun exact => ⟨exact, rfl⟩⟩
        show HunkEffect tools mode cwd _ _ _ removed.files
        rw [gone]
        exact .delete resolved (held content rfl)

/-- A deletion is explained. -/
theorem explains_applyDelete : Explains tools mode cwd (.deleteFile source) application
    (applyDelete tools faults application path affected) := by
  have untouched : Untouched application _ := untouched_note faults path
  unfold applyDelete
  generalize noteExistingPathDeltaSupport faults application path = noted at untouched
  apply Explains.of_untouched untouched
  have same := files_readFileText faults noted.world path
  rcases read : noted.world.readFileText faults path with ⟨result, world⟩
  rw [read] at same
  dsimp only
  rw [read]
  apply Explains.of_untouched ((Untouched.setWorld same).trans (Untouched.keepExact _))
  apply explains_removeDeleted tools faults mode cwd resolved affected
  · intro content known
    cases result with
    | error => cases known
    | ok =>
      cases known
      show world.files path = _
      rw [same]
      exact (readFileText_eq_ok faults noted.world path read).1
  · intro unknown
    simp [keepExact, unknown]

end

variable {chunks : List UpdateFileChunk} {applied : AppliedPatch} {target : Path}
  {destination : String} {hunks : List Hunk}

section Updates

variable {path : Path} (resolved : tools.join cwd source = .ok path) (affected : String)
  (held : application.world.files path = some applied.originalContents)
  (derived : deriveNewContents mode (tools.display path) chunks applied.originalContents =
    .ok applied.newContents)

include resolved held derived

theorem explains_writeUpdate : Explains tools mode cwd (.updateFile source none chunks) application
    (writeUpdate tools faults application path affected applied) := by
  unfold writeUpdate
  split
  · exact .inexact _
  · rename_i world wrote
    have effect := writeFile_eq_ok faults application.world path wrote
    refine ⟨_, ?_, fun exact => ⟨exact, rfl⟩⟩
    show HunkEffect tools mode cwd _ _ _ world.files
    rw [effect]
    exact .update resolved held derived

/-- After the destination has been written, a move fails with that write recorded, or it
succeeds and the record of the write becomes the record of the move. -/
theorem explains_removeOriginal {written : World Path}
    (joined : tools.join cwd destination = .ok target) (overwritten : Option String)
    (wrote : written.files = update application.world.files target (some applied.newContents)) :
    Explains tools mode cwd (.updateFile source (some destination) chunks) application
      (removeOriginal tools faults
        ((application.setWorld written).record target (.add applied.newContents overwritten))
        path target affected applied overwritten application.delta.changes.length) := by
  have same : (ensureNotDirectory faults written path).2.files = written.files :=
    files_ensureNotDirectory faults written path
  unfold removeOriginal
  dsimp only
  split
  · rename_i called
    rw [show ensureNotDirectory faults written path = _ from called] at same
    exact .halfMoved _ joined wrote fun _ => .setWorld same
  · rename_i checked called
    rw [show ensureNotDirectory faults written path = _ from called] at same
    have same : checked.files = written.files := same
    split
    · rename_i failed
      have leaves := remove_eq_error faults checked path failed
      rw [same] at leaves
      exact .halfMoved _ joined wrote (untouched_failedRemoval faults leaves)
    · rename_i removed done
      obtain ⟨-, gone⟩ := remove_eq_ok faults checked path done
      refine ⟨⟨path, .update (some target) applied.originalContents overwritten
        applied.newContents⟩, ?_, ?_⟩
      · show HunkEffect tools mode cwd _ _ _ removed.files
        rw [gone, same, wrote]
        exact .move overwritten resolved joined held derived
      · intro exact
        refine ⟨exact, ?_⟩
        show (application.delta.changes ++ [_]).set application.delta.changes.length _ = _
        rw [set_append_right _ _ (Nat.le_refl _), Nat.sub_self, set_cons_zero]

theorem explains_moveUpdate (joined : tools.join cwd destination = .ok target) :
    Explains tools mode cwd (.updateFile source (some destination) chunks) application
      (moveUpdate tools faults application path target affected applied) := by
  have untouched : Untouched application _ := untouched_readOptional faults target
  unfold moveUpdate
  generalize readOptionalFileTextForDelta faults application target = outcome at untouched
  obtain ⟨overwritten, noted⟩ := outcome
  apply Explains.of_untouched untouched
  dsimp only
  split
  · exact .inexact _
  · rename_i world wrote
    rw [← untouched.files] at held
    exact explains_removeOriginal tools faults mode cwd resolved affected held derived joined
      overwritten (writeFileWithMissingParentRetry_eq_ok tools faults noted.world target wrote)

end Updates

/-- An update is explained, moved or not. -/
theorem explains_applyUpdate {path : Path} (resolved : tools.join cwd source = .ok path)
    (affected : String) (movePath : Option String) (chunks : List UpdateFileChunk) :
    Explains tools mode cwd (.updateFile source movePath chunks) application
      (applyUpdate tools faults mode cwd application path affected movePath chunks) := by
  have untouched : Untouched application _ := untouched_note faults path
  unfold applyUpdate
  generalize noteExistingPathDeltaSupport faults application path = noted at untouched
  apply Explains.of_untouched untouched
  have same := files_deriveNewContentsFromChunks tools faults noted.world path mode chunks
  dsimp only
  split
  · rename_i derived
    rw [derived] at same
    exact .failed _ fun _ => .setWorld same
  · rename_i applied world computed
    obtain ⟨held, same, derived⟩ :=
      deriveNewContentsFromChunks_eq_ok tools faults noted.world path computed
    have held : world.files path = some applied.originalContents := by
      rw [same]
      exact held
    apply Explains.of_untouched (.setWorld same)
    split
    · exact explains_writeUpdate tools faults mode cwd resolved affected held derived
    · split
      · exact .failed _ fun _ => .setWorld rfl
      · rename_i joined
        exact explains_moveUpdate tools faults mode cwd resolved affected held derived joined

/-- Every outcome of a hunk is explained, whatever fails on the way. -/
theorem explains_applyHunk (application : Application Path) (hunk : Hunk) :
    Explains tools mode cwd hunk application (applyHunk tools faults mode cwd application hunk) := by
  unfold applyHunk
  split
  · exact .failed _ fun _ => .setWorld rfl
  · rename_i path resolved
    cases hunk with
    | addFile =>
      have untouched : Untouched application _ := untouched_readOptional faults path
      unfold applyAdd
      generalize readOptionalFileTextForDelta faults application path = outcome at untouched
      obtain ⟨overwritten, noted⟩ := outcome
      apply Explains.of_untouched untouched
      dsimp only
      split
      · exact .inexact _
      · rename_i world wrote
        have effect := writeFileWithMissingParentRetry_eq_ok tools faults noted.world path wrote
        refine ⟨_, ?_, fun exact => ⟨exact, rfl⟩⟩
        show HunkEffect tools mode cwd noted.world.files _ _ world.files
        rw [effect]
        exact .add overwritten resolved
    | deleteFile => exact explains_applyDelete tools faults mode cwd resolved _
    | updateFile _ movePath chunks =>
      exact explains_applyUpdate tools faults mode cwd resolved _ movePath chunks

/-- An application that succeeds has made all its hunks. -/
theorem applyHunksToFiles_eq_returned {world : World Path}
    (applied : applyHunksToFiles tools faults mode hunks cwd world = .returned application) :
    Passes (applyHunk tools faults mode cwd) { world } hunks application := by
  unfold applyHunksToFiles at applied
  split at applied
  · cases applied
  · obtain ⟨_, _, state, split, passes, last⟩ :=
      loop_cases (applyHunk tools faults mode cwd) hunks { world }
    rw [applied] at last
    cases last with
    | exhausted =>
      rw [append_nil] at split
      rw [split]
      exact passes
    | @stopped hunk _ _ stopped =>
      -- No hunk leaves the loop without an error.
      have explains := explains_applyHunk tools faults mode cwd state hunk
      rw [stopped] at explains
      exact explains.elim

end Hunks

end WeaveCodex.ApplyPatch
