/-
Purpose: The maps of the turn diff tracker against the text files: the baseline of a path is
  what was there at the start of the turn, its current content is what is there now, and an
  untracked path has not changed.
-/
import WeaveCodex.TurnDiff.Tracker

namespace WeaveCodex.TurnDiff

open ApplyPatch Function

universe u

variable {Path : Type u} [DecidableEq Path]

/-! ### Files -/

/-- The text files of all environments. -/
abbrev Files (Path : Type u) := TrackedPath Path → Option String

namespace Files

variable (files : Files Path) (environmentId : String)

/-- The files after an applied change. -/
def afterChange (change : AppliedPatchChange Path) : Files Path :=
  let sourcePath : TrackedPath Path := { environmentId, path := change.path }
  match change.change with
  | .add content _ => Function.update files sourcePath (some content)
  | .delete _ => Function.update files sourcePath none
  | .update none _ _ newContent => Function.update files sourcePath (some newContent)
  | .update (some dest) _ _ newContent =>
    Function.update (Function.update files sourcePath none)
      { environmentId, path := dest } (some newContent)

/-- The contents that a change reports are those of the files, and it moves no file onto
itself. -/
def Consistent (change : AppliedPatchChange Path) :
    Prop :=
  let sourcePath : TrackedPath Path := { environmentId, path := change.path }
  match change.change with
  | .add _ overwrittenContent => overwrittenContent = files sourcePath
  | .delete content => files sourcePath = some content
  | .update movePath oldContent overwrittenMoveContent _ =>
    files sourcePath = some oldContent ∧ ∀ dest ∈ movePath,
      dest ≠ change.path ∧ overwrittenMoveContent = files { environmentId, path := dest }

def afterChanges (changes : List (AppliedPatchChange Path)) : Files Path :=
  changes.foldl (fun files change => files.afterChange environmentId change) files

/-- Every change is consistent with the files that it finds. -/
def ConsistentChanges (files : Files Path) (environmentId : String) :
    List (AppliedPatchChange Path) → Prop
  | [] => True
  | change :: changes =>
    files.Consistent environmentId change ∧
      ConsistentChanges (files.afterChange environmentId change) environmentId changes

/-- The files after all deltas. -/
def afterDeltas (deltas : List (Tracked Path)) : Files Path :=
  deltas.foldl (fun files tracked =>
    files.afterChanges tracked.environmentId tracked.delta.changes) files

/-- Every delta is exact and consistent with the files that it finds. -/
def ConsistentDeltas (files : Files Path) : List (Tracked Path) → Prop
  | [] => True
  | tracked :: later =>
    tracked.delta.exact = true ∧ files.ConsistentChanges tracked.environmentId tracked.delta.changes ∧
      ConsistentDeltas (files.afterChanges tracked.environmentId tracked.delta.changes) later

theorem ConsistentDeltas.front {files : Files Path} {earlier later : List (Tracked Path)}
    (consistent : files.ConsistentDeltas (earlier ++ later)) : files.ConsistentDeltas earlier := by
  induction earlier generalizing files with
  | nil => trivial
  | cons _ _ ih =>
    exact ⟨consistent.1, consistent.2.1, ih consistent.2.2⟩

end Files

/-! ### One path -/

/-- What the two maps hold for a path, and the file there at the start and now. -/
structure DescribesAt (baseline current initial now : Option String) : Prop where
  original : ∀ content, baseline = some content → initial = some content
  latest : ∀ content, current = some content → now = some content
  created : baseline = none → current ≠ none → initial = none
  removed : baseline ≠ none → current = none → now = none
  untouched : baseline = none → current = none → initial = now

/-- The baseline after a change that found `seen` at the path. -/
def recorded (baseline current seen : Option String) : Option String :=
  if baseline.isNone && current.isNone then seen else baseline

namespace DescribesAt

variable {baseline current initial now : Option String}

/-- A file is written. -/
theorem written (described : DescribesAt baseline current initial now) (content : String) :
    DescribesAt (recorded baseline current now) (some content) initial (some content) := by
  cases baseline with
  | some => exact ⟨described.original, fun _ same => same, nofun, nofun, nofun⟩
  | none =>
    cases current with
    | some =>
      have created := described.created rfl (by simp)
      exact ⟨nofun, fun _ same => same, fun _ _ => created, nofun, nofun⟩
    | none =>
      have untouched := described.untouched rfl rfl
      subst untouched
      exact ⟨fun _ same => same, fun _ same => same, fun absent _ => absent, nofun, nofun⟩

/-- A file is removed. -/
theorem erased (described : DescribesAt baseline current initial now) {old : String}
    (present : now = some old) :
    DescribesAt (recorded baseline current now) none initial none := by
  cases baseline with
  | some => exact ⟨described.original, nofun, nofun, fun _ _ => rfl, nofun⟩
  | none =>
    cases current with
    | some =>
      have created := described.created rfl (by simp)
      exact ⟨nofun, nofun, fun _ absent => absurd rfl absent, fun absent => absurd rfl absent,
        fun _ _ => created⟩
    | none =>
      have untouched := described.untouched rfl rfl
      subst untouched
      subst present
      exact ⟨fun _ same => same, nofun, nofun, fun _ _ => rfl, nofun⟩

end DescribesAt

/-! ### The maps -/

namespace TurnDiffTracker

variable (tracker : TurnDiffTracker Path) (path other : TrackedPath Path)

def baselineText : Option String :=
  (tracker.baselineByPath.lookup path).map TrackedContent.content

def currentText : Option String :=
  (tracker.currentByPath.lookup path).map TrackedContent.content

variable (content : String)

@[simp] theorem baselineText_insertCurrent :
    (tracker.insertCurrent path content).baselineText other = tracker.baselineText other :=
  rfl

theorem currentText_insertCurrent : (tracker.insertCurrent path content).currentText other =
    if other = path then some content else tracker.currentText other := by
  by_cases same : other = path
  · subst same
    simp [insertCurrent, trackedContent, currentText]
  · simp [insertCurrent, trackedContent, currentText, same]

theorem baselineText_insertBaseline : (tracker.insertBaseline path content).baselineText other =
    if other = path then some content else tracker.baselineText other := by
  by_cases same : other = path
  · subst same
    simp [insertBaseline, trackedContent, baselineText]
  · simp [insertBaseline, trackedContent, baselineText, same]

@[simp] theorem currentText_recordBaseline (seen : Option String) :
    (tracker.recordBaseline path seen).currentText other = tracker.currentText other := by
  cases seen with
  | none => rfl
  | some =>
    rw [recordBaseline]
    split <;> rfl

/-- A baseline is recorded for the one path, and only while nothing is known of it. -/
theorem baselineText_recordBaseline (seen : Option String) :
    (tracker.recordBaseline path seen).baselineText other =
      if other = path then recorded (tracker.baselineText path) (tracker.currentText path) seen
      else tracker.baselineText other := by
  have unknown : tracker.isUntracked path =
      ((tracker.baselineText path).isNone && (tracker.currentText path).isNone) := by
    simp [isUntracked, baselineText, currentText, Bool.and_comm]
  cases seen with
  | none =>
    rw [recordBaseline]
    split
    · rename_i same
      subst same
      rw [recorded]
      split
      · rename_i absent
        simp at absent
        exact absent.1
      · rfl
    · rfl
  | some =>
    rw [recordBaseline, unknown, recorded]
    split
    · rw [baselineText_insertBaseline]
    · split
      · rename_i same
        rw [same]
      · rfl

theorem currentText_erase :
    currentText { tracker with currentByPath := tracker.currentByPath.erase path } other =
      if other = path then none else tracker.currentText other := by
  by_cases same : other = path
  · subst same
    simp [currentText]
  · simp [same, currentText]

theorem currentText_applyDelete : (tracker.applyDelete path content).currentText other =
    if other = path then none else tracker.currentText other := by
  rw [← currentText_erase, applyDelete]
  simp only
  split <;> rfl

theorem baselineText_applyDelete : (tracker.applyDelete path content).baselineText other =
    if other = path then
      recorded (tracker.baselineText path) (tracker.currentText path) (some content)
    else tracker.baselineText other := by
  rw [← baselineText_recordBaseline, recordBaseline, isUntracked, applyDelete]
  simp only
  split <;> rfl

theorem currentText_applyMove (dest : TrackedPath Path) (oldContent : String)
    (overwritten : Option String) (newContent : String) :
    (tracker.applyUpdate path (some dest) oldContent overwritten newContent).currentText other =
      if other = dest then some newContent
      else if other = path then none else tracker.currentText other := by
  rw [applyUpdate]
  change (insertCurrent _ dest newContent).currentText other = _
  rw [currentText_insertCurrent]
  split
  · rfl
  · rw [currentText_erase, currentText_recordBaseline, currentText_recordBaseline]

variable {dest : TrackedPath Path} {initial now : Files Path} {oldContent environmentId : String}
  {delta : AppliedPatchDelta Path}

theorem baselineText_applyMove (apart : dest ≠ path) (oldContent : String)
    (overwritten : Option String) (newContent : String) :
    (tracker.applyUpdate path (some dest) oldContent overwritten newContent).baselineText other =
      if other = dest then
        recorded (tracker.baselineText dest) (tracker.currentText dest) overwritten
      else if other = path then
        recorded (tracker.baselineText path) (tracker.currentText path) (some oldContent)
      else tracker.baselineText other := by
  rw [applyUpdate]
  change ((tracker.recordBaseline path (some oldContent)).recordBaseline dest
    overwritten).baselineText other = _
  simp only [baselineText_recordBaseline, currentText_recordBaseline, if_neg apart]

/-- The tracker describes the files since the start of the turn. -/
def Describes (initial now : Files Path) : Prop :=
  ∀ path, DescribesAt (tracker.baselineText path) (tracker.currentText path) (initial path) (now path)

variable {tracker} (described : tracker.Describes initial now) {path : TrackedPath Path}

include described in
/-- A file is written at a path and everything else stays. -/
theorem describes_written (content : String) :
    ((tracker.recordBaseline path (now path)).insertCurrent path content).Describes initial
      (update now path (some content)) := by
  intro other
  rw [baselineText_insertCurrent, currentText_insertCurrent, baselineText_recordBaseline,
    currentText_recordBaseline]
  by_cases same : other = path
  · subst same
    simpa using (described other).written content
  · simpa [same] using described other

include described in
theorem describes_applyAdd (content : String) :
    (tracker.applyAdd path content (now path)).Describes initial (update now path (some content)) := by
  have unlinked : TurnDiffTracker.Describes
      { tracker with originByCurrentPath := tracker.originByCurrentPath.erase path } initial now :=
    described
  exact describes_written unlinked content

include described in
theorem describes_applyDelete {content : String}
    (present : now path = some content) :
    (tracker.applyDelete path content).Describes initial (update now path none) := by
  intro other
  rw [baselineText_applyDelete, currentText_applyDelete]
  by_cases same : other = path
  · subst same
    simpa [present] using (described other).erased present
  · simpa [same] using described other

include described in
theorem describes_applyUpdate (present : now path = some oldContent)
    (overwritten : Option String) (newContent : String) :
    (tracker.applyUpdate path none oldContent overwritten newContent).Describes initial
      (update now path (some newContent)) := by
  rw [applyUpdate, ← present]
  exact describes_written described newContent

include described in
theorem describes_applyMove (apart : dest ≠ path)
    (present : now path = some oldContent) (newContent : String) :
    (tracker.applyUpdate path (some dest) oldContent (now dest) newContent).Describes initial
      (update (update now path none) dest (some newContent)) := by
  intro other
  rw [baselineText_applyMove tracker path other apart, currentText_applyMove]
  by_cases atDest : other = dest
  · subst atDest
    simpa [apart] using (described other).written newContent
  by_cases atSource : other = path
  · subst atSource
    simpa [atDest, present] using (described other).erased present
  · simpa [atDest, atSource] using described other

include described in
/-- An applied change, tracked. -/
theorem describes_applyChange {change : AppliedPatchChange Path}
    (consistent : now.Consistent environmentId change) :
    (tracker.applyChange environmentId change).Describes initial
      (now.afterChange environmentId change) := by
  obtain ⟨path, change⟩ := change
  cases change with
  | add content overwritten =>
    have found : overwritten = now { environmentId, path } := consistent
    subst found
    exact describes_applyAdd described content
  | delete => exact describes_applyDelete described consistent
  | update movePath _ overwritten newContent =>
    obtain ⟨present, moved⟩ := consistent
    cases movePath with
    | none => exact describes_applyUpdate described present overwritten newContent
    | some dest =>
      obtain ⟨apart, rfl⟩ := moved dest rfl
      apply describes_applyMove described _ present newContent
      intro same
      exact apart (congrArg TrackedPath.path same)

include described in
theorem describes_applyChanges (consistent : now.ConsistentChanges environmentId delta.changes) :
    (tracker.applyChanges environmentId delta).Describes initial
      (now.afterChanges environmentId delta.changes) := by
  rw [applyChanges, Files.afterChanges]
  obtain ⟨changes, exact⟩ := delta
  simp only at consistent ⊢
  induction changes generalizing tracker now with
  | nil => exact described
  | cons _ _ ih =>
    exact ih (describes_applyChange described consistent.1) consistent.2

/-! ### Runs -/

/-- What a change leaves alone. -/
structure Framed (tracker final : TurnDiffTracker Path) : Prop where
  valid : final.valid = tracker.valid
  displayRoots : final.displayRootsByEnvironment = tracker.displayRootsByEnvironment
  renderedDiffs : final.renderedDiffs = tracker.renderedDiffs

omit [DecidableEq Path] in
theorem Framed.trans {first second third : TurnDiffTracker Path} (earlier : Framed first second)
    (later : Framed second third) : Framed first third :=
  ⟨later.valid.trans earlier.valid, later.displayRoots.trans earlier.displayRoots,
    later.renderedDiffs.trans earlier.renderedDiffs⟩

section

variable (tracker : TurnDiffTracker Path)

theorem framed_recordBaseline (path : TrackedPath Path)
    (seen : Option String) : Framed tracker (tracker.recordBaseline path seen) := by
  cases seen with
  | none => exact ⟨rfl, rfl, rfl⟩
  | some =>
    rw [recordBaseline]
    split <;> exact ⟨rfl, rfl, rfl⟩

theorem framed_applyChange (environmentId : String) (change : AppliedPatchChange Path) :
    Framed tracker (tracker.applyChange environmentId change) := by
  obtain ⟨path, change⟩ := change
  cases change with
  | add _ overwritten =>
    have unlinked : Framed tracker { tracker with
        originByCurrentPath := tracker.originByCurrentPath.erase { environmentId, path } } :=
      ⟨rfl, rfl, rfl⟩
    have recorded := unlinked.trans (framed_recordBaseline _ { environmentId, path } overwritten)
    exact ⟨recorded.valid, recorded.displayRoots, recorded.renderedDiffs⟩
  | delete content =>
    change Framed tracker (tracker.applyDelete { environmentId, path } content)
    unfold applyDelete
    simp only
    split <;> exact ⟨rfl, rfl, rfl⟩
  | update movePath oldContent overwritten =>
    have source := framed_recordBaseline tracker { environmentId, path } (some oldContent)
    cases movePath with
    | none => exact ⟨source.valid, source.displayRoots, source.renderedDiffs⟩
    | some dest =>
      have both := source.trans (framed_recordBaseline _ { environmentId, path := dest } overwritten)
      exact ⟨both.valid, both.displayRoots, both.renderedDiffs⟩

theorem framed_applyChanges (environmentId : String) (delta : AppliedPatchDelta Path) :
    Framed tracker (tracker.applyChanges environmentId delta) := by
  rw [applyChanges]
  induction delta.changes generalizing tracker with
  | nil => exact ⟨rfl, rfl, rfl⟩
  | cons change _ ih =>
    exact (framed_applyChange tracker environmentId change).trans (ih _)

end

/-- An exact delta on a valid tracker is its changes and a refresh. -/
theorem trackDelta_exact (tools : DiffTools Path) (valid : tracker.valid = true)
    (exact : delta.exact = true) (environmentId : String) (order : Enumeration Path) :
    tracker.trackDelta tools environmentId delta order =
      (tracker.applyChanges environmentId delta).refreshUnifiedDiff tools order := by
  simp [trackDelta, valid, exact]

/-- A run over consistent deltas; the orders of the refreshes do not matter. -/
theorem describes_trackAll (tools : DiffTools Path) (valid : tracker.valid = true)
    (described : tracker.Describes initial now) {calls : List (Tracked Path × Enumeration Path)}
    (consistent : now.ConsistentDeltas (calls.map Prod.fst)) :
    (tracker.trackAll tools calls).Describes initial (now.afterDeltas (calls.map Prod.fst)) := by
  induction calls generalizing tracker now with
  | nil => exact described
  | cons call _ ih =>
    obtain ⟨exact, changes, later⟩ := consistent
    have applied := describes_applyChanges described changes
    have step := trackDelta_exact tools valid exact call.1.environmentId call.2
    rw [trackAll, List.foldl_cons, step]
    -- A refresh does not touch the maps.
    exact ih ((framed_applyChanges tracker _ _).valid.trans valid) applied later

end TurnDiffTracker

end WeaveCodex.TurnDiff
