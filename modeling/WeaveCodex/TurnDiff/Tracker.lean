/-
Purpose: The net text diff of a turn: baseline and current contents of the paths that
  applied patches touched, renames, and the aggregated diff with its cache.
Trusted boundary: translation of `core/src/turn_diff_tracker.rs`; path URIs, blob ids and the
  unified diff of two texts are parameters, revisions are natural numbers, and the order in
  which a hash map is enumerated is an argument
-/
import Mathlib.Data.List.AList
import Mathlib.Data.String.Basic
import WeaveCodex.ApplyPatch.Apply
import WeaveCodex.Library.Dict
import WeaveCodex.Library.KeySort

namespace WeaveCodex.TurnDiff

open ApplyPatch
open Library

universe u

structure TrackedContent where
  content : String
  revision : Nat
deriving DecidableEq, Repr

structure TrackedPath (Path : Type u) where
  environmentId : String
  path : Path
deriving DecidableEq, Repr

structure DiffCacheKey (Path : Type u) where
  leftPath : TrackedPath Path
  leftRevision : Option Nat
  rightPath : TrackedPath Path
  rightRevision : Option Nat
deriving DecidableEq, Repr

/-- A hash map without the order of its entries: only `entries` shows one. -/
abbrev HashMap (κ : Type*) (ν : Type*) := AList fun _ : κ => ν

/-- Path URIs, blob ids and diff texts. -/
structure DiffTools (Path : Type u) where
  /-- `path.relative_path_from(root)`. -/
  relativePathFrom : Path → Path → Option String
  inferredNativePathString : Path → String
  gitBlobOid : String → String
  /-- The unified diff with its two headers. -/
  unifiedDiff : (oldHeader newHeader old new : String) → String

/-- Paths as texts, and the two texts one after the other as their diff. -/
def DiffTools.plain : DiffTools String where
  relativePathFrom _ _ := none
  inferredNativePathString path := path
  gitBlobOid content := content
  unifiedDiff oldHeader newHeader old new := oldHeader ++ old ++ newHeader ++ new

def zeroOid : String := "0000000000000000000000000000000000000000"

def devNull : String := "/dev/null"

def regularFileMode : String := "100644"

structure TurnDiffTracker (Path : Type u) where
  valid : Bool := true
  displayRootsByEnvironment : HashMap String Path := ∅
  baselineByPath : HashMap (TrackedPath Path) TrackedContent := ∅
  currentByPath : HashMap (TrackedPath Path) TrackedContent := ∅
  originByCurrentPath : HashMap (TrackedPath Path) (TrackedPath Path) := ∅
  nextRevision : Nat := 0
  renderedDiffs : HashMap (DiffCacheKey Path) (Option String) := ∅
  unifiedDiff : Option String := none

variable {Path : Type u} [DecidableEq Path]

namespace TurnDiffTracker

/-! ### Changes -/

variable (tracker : TurnDiffTracker Path) (path : TrackedPath Path) (content : String)

/-- `tracked_content`: the content with the next revision. -/
def trackedContent : TrackedContent × TurnDiffTracker Path :=
  ({ content, revision := tracker.nextRevision },
    { tracker with nextRevision := tracker.nextRevision + 1 })

/-- `baseline_by_path.insert(path, self.tracked_content(content))`. -/
def insertBaseline : TurnDiffTracker Path :=
  let (content, tracker) := tracker.trackedContent content
  { tracker with baselineByPath := tracker.baselineByPath.insert path content }

/-- `current_by_path.insert(path, self.tracked_content(content))`. -/
def insertCurrent : TurnDiffTracker Path :=
  let (content, tracker) := tracker.trackedContent content
  { tracker with currentByPath := tracker.currentByPath.insert path content }

/-- `!current_by_path.contains_key(path) && !baseline_by_path.contains_key(path)`. -/
def isUntracked : Bool :=
  (tracker.currentByPath.lookup path).isNone && (tracker.baselineByPath.lookup path).isNone

/-- The content that a change found at a path is its baseline if nothing is known there. -/
def recordBaseline : Option String → TurnDiffTracker Path
  | none => tracker
  | some content =>
    if tracker.isUntracked path then tracker.insertBaseline path content else tracker

def applyAdd (overwrittenContent : Option String) : TurnDiffTracker Path :=
  let tracker := { tracker with originByCurrentPath := tracker.originByCurrentPath.erase path }
  (tracker.recordBaseline path overwrittenContent).insertCurrent path content

def applyDelete : TurnDiffTracker Path :=
  let removed := tracker.currentByPath.lookup path
  let tracker := { tracker with currentByPath := tracker.currentByPath.erase path }
  let tracker :=
    if removed.isNone && (tracker.baselineByPath.lookup path).isNone then
      tracker.insertBaseline path content
    else tracker
  { tracker with originByCurrentPath := tracker.originByCurrentPath.erase path }

def applyUpdate (sourcePath : TrackedPath Path)
    (movePath : Option (TrackedPath Path)) (oldContent : String)
    (overwrittenMoveContent : Option String) (newContent : String) : TurnDiffTracker Path :=
  let tracker := tracker.recordBaseline sourcePath (some oldContent)
  match movePath with
  | none => tracker.insertCurrent sourcePath newContent
  | some destPath =>
    let tracker := tracker.recordBaseline destPath overwrittenMoveContent
    let origin := (tracker.originByCurrentPath.lookup sourcePath).getD sourcePath
    let origins := tracker.originByCurrentPath.erase sourcePath
    let tracker := { tracker with currentByPath := tracker.currentByPath.erase sourcePath }
    let tracker := tracker.insertCurrent destPath newContent
    let origins := origins.erase destPath
    let origins := if destPath ≠ origin then origins.insert destPath origin else origins
    { tracker with originByCurrentPath := origins }

def applyChange (environmentId : String) (change : AppliedPatchChange Path) : TurnDiffTracker Path :=
  let sourcePath : TrackedPath Path := { environmentId, path := change.path }
  match change.change with
  | .add content overwrittenContent => tracker.applyAdd sourcePath content overwrittenContent
  | .delete content => tracker.applyDelete sourcePath content
  | .update movePath oldContent overwrittenMoveContent newContent =>
    tracker.applyUpdate sourcePath (movePath.map fun path => { environmentId, path }) oldContent
      overwrittenMoveContent newContent

/-! ### Display -/

def displayPath (tools : DiffTools Path) (tracker : TurnDiffTracker Path)
    (path : TrackedPath Path) : String :=
  let display :=
    ((tracker.displayRootsByEnvironment.lookup path.environmentId).bind
      (tools.relativePathFrom path.path)).getD (tools.inferredNativePathString path.path)
  if 1 < tracker.displayRootsByEnvironment.keys.length ∧ path.environmentId ≠ "" then
    path.environmentId ++ "/" ++ display
  else display

/-- `display.replace('\\', "/")`. -/
def withSlashes (display : String) : String :=
  display.map fun char => if char = '\\' then '/' else char

def renderDiff (tools : DiffTools Path) (tracker : TurnDiffTracker Path)
    (leftPath : TrackedPath Path) (leftContent : Option String) (rightPath : TrackedPath Path)
    (rightContent : Option String) : Option String :=
  if leftContent = rightContent then none
  else
    let leftDisplay := withSlashes (tracker.displayPath tools leftPath)
    let rightDisplay := withSlashes (tracker.displayPath tools rightPath)
    let leftOid := (leftContent.map tools.gitBlobOid).getD zeroOid
    let rightOid := (rightContent.map tools.gitBlobOid).getD zeroOid
    let mode :=
      match leftContent, rightContent with
      | none, _ => "new file mode " ++ regularFileMode ++ "\n"
      | some _, none => "deleted file mode " ++ regularFileMode ++ "\n"
      | some _, some _ => ""
    let oldHeader := if leftContent.isSome then "a/" ++ leftDisplay else devNull
    let newHeader := if rightContent.isSome then "b/" ++ rightDisplay else devNull
    some ("diff --git a/" ++ leftDisplay ++ " b/" ++ rightDisplay ++ "\n" ++ mode ++ "index " ++
      leftOid ++ ".." ++ rightOid ++ "\n" ++
      tools.unifiedDiff oldHeader newHeader (leftContent.getD "") (rightContent.getD ""))

/-! ### Pairs -/

/-- An entry of `origin_by_current_path` that is shown as a rename. -/
def isRename (destPath originPath : TrackedPath Path) : Bool :=
  !(destPath = originPath || (tracker.currentByPath.lookup originPath).isSome ||
    (tracker.currentByPath.lookup destPath).isNone ||
    (tracker.baselineByPath.lookup originPath).isNone ||
    (tracker.baselineByPath.lookup destPath).isSome)

/-- `rename_pairs`, from the entries of `origin_by_current_path` in the order in which they
are enumerated: a later entry replaces an earlier one with the same origin. -/
def renamePairs (origins : List (TrackedPath Path × TrackedPath Path)) :
    TrackedPath Path → Option (TrackedPath Path) :=
  Dict.ofEntries ((origins.filter fun (destPath, originPath) =>
    tracker.isRename destPath originPath).map Prod.swap)

end TurnDiffTracker

/-- `paths.dedup()`: of equal neighbours one is kept. -/
def dedup {α : Type*} [DecidableEq α] : List α → List α
  | [] => []
  | [item] => [item]
  | item :: next :: items =>
    if item = next then dedup (next :: items) else item :: dedup (next :: items)

/-- The loop over the sorted paths, up to the choice of a pair: the pairs in their order. -/
def visitPaths (renamed : TrackedPath Path → Option (TrackedPath Path))
    (isDestination : TrackedPath Path → Bool) (handled : List (TrackedPath Path)) :
    List (TrackedPath Path) → List (TrackedPath Path × TrackedPath Path)
  | [] => []
  | path :: paths =>
    if path ∈ handled then visitPaths renamed isDestination handled paths
    else if isDestination path then visitPaths renamed isDestination (path :: handled) paths
    else
      match renamed path with
      | some dest => (path, dest) :: visitPaths renamed isDestination (dest :: path :: handled) paths
      | none => (path, path) :: visitPaths renamed isDestination (path :: handled) paths

/-- The orders in which one refresh enumerates the three maps. -/
structure Enumeration (Path : Type u) where
  origins : List (TrackedPath Path × TrackedPath Path)
  baseline : List (TrackedPath Path)
  current : List (TrackedPath Path)

/-- The orders are orders of the maps of the tracker. -/
structure Enumeration.Of (tracker : TurnDiffTracker Path) (order : Enumeration Path) : Prop where
  origins : order.origins.Perm (tracker.originByCurrentPath.entries.map fun entry => (entry.1, entry.2))
  baseline : order.baseline.Perm tracker.baselineByPath.keys
  current : order.current.Perm tracker.currentByPath.keys

namespace TurnDiffTracker

variable (tools : DiffTools Path) (tracker : TurnDiffTracker Path) (order : Enumeration Path)

/-- The destinations of the rename pairs. -/
def isPairedDestination
    (origins : List (TrackedPath Path × TrackedPath Path)) (path : TrackedPath Path) : Bool :=
  origins.any fun (_, originPath) => tracker.renamePairs origins originPath = some path

/-- All tracked paths, sorted by what is displayed for them; the sort is stable. -/
def sortedPaths : List (TrackedPath Path) :=
  dedup (KeySort.sortByKey (tracker.displayPath tools) (order.baseline ++ order.current))

/-- The pairs of a left path and a right path that a refresh renders, in their order. -/
def diffPairs : List (TrackedPath Path × TrackedPath Path) :=
  visitPaths (tracker.renamePairs order.origins) (tracker.isPairedDestination order.origins) []
    (tracker.sortedPaths tools order)

/-! ### Rendering -/

def cacheKey (pair : TrackedPath Path × TrackedPath Path) : DiffCacheKey Path :=
  { leftPath := pair.1
    leftRevision := (tracker.baselineByPath.lookup pair.1).map TrackedContent.revision
    rightPath := pair.2
    rightRevision := (tracker.currentByPath.lookup pair.2).map TrackedContent.revision }

/-- The diff of a pair from the contents that are tracked for it. -/
def renderPair (pair : TrackedPath Path × TrackedPath Path) : Option String :=
  tracker.renderDiff tools pair.1
    ((tracker.baselineByPath.lookup pair.1).map TrackedContent.content) pair.2
    ((tracker.currentByPath.lookup pair.2).map TrackedContent.content)

/-- `aggregated` after one more diff. -/
def aggregate (aggregated : String) : Option String → String
  | none => aggregated
  | some diff =>
    let aggregated := aggregated ++ diff
    if aggregated.toList.getLast? = some '\n' then aggregated else aggregated ++ "\n"

/-- The second half of the loop: the new cache and the aggregated text. -/
def renderPairs (tools : DiffTools Path) (tracker : TurnDiffTracker Path) :
    HashMap (DiffCacheKey Path) (Option String) → HashMap (DiffCacheKey Path) (Option String) →
      String → List (TrackedPath Path × TrackedPath Path) →
      HashMap (DiffCacheKey Path) (Option String) × String
  | _, renderedDiffs, aggregated, [] => (renderedDiffs, aggregated)
  | previousDiffs, renderedDiffs, aggregated, pair :: pairs =>
    let key := tracker.cacheKey pair
    let rendered := (previousDiffs.lookup key).getD (tracker.renderPair tools pair)
    renderPairs tools tracker (previousDiffs.erase key) (renderedDiffs.insert key rendered)
      (aggregate aggregated rendered) pairs

def refreshUnifiedDiff : TurnDiffTracker Path :=
  let (renderedDiffs, aggregated) :=
    tracker.renderPairs tools tracker.renderedDiffs ∅ "" (tracker.diffPairs tools order)
  { tracker with
    renderedDiffs
    unifiedDiff := if aggregated = "" then none else some aggregated }

def invalidate : TurnDiffTracker Path :=
  { tracker with valid := false, renderedDiffs := ∅, unifiedDiff := none }

def applyChanges (environmentId : String) (delta : AppliedPatchDelta Path) : TurnDiffTracker Path :=
  delta.changes.foldl (fun tracker change => tracker.applyChange environmentId change) tracker

def trackDelta (environmentId : String)
    (delta : AppliedPatchDelta Path) (order : Enumeration Path) : TurnDiffTracker Path :=
  if !tracker.valid then tracker
  else if !delta.exact then tracker.invalidate
  else (tracker.applyChanges environmentId delta).refreshUnifiedDiff tools order

/-- `with_environment_display_roots`. -/
def withEnvironmentDisplayRoots (displayRoots : HashMap String Path) : TurnDiffTracker Path :=
  { displayRootsByEnvironment := displayRoots }

end TurnDiffTracker

/-- The arguments of one call of `track_delta`. -/
structure Tracked (Path : Type u) where
  environmentId : String
  delta : AppliedPatchDelta Path

/-- A sequence of calls, each with the orders of its refresh. -/
def TurnDiffTracker.trackAll (tools : DiffTools Path) (tracker : TurnDiffTracker Path)
    (calls : List (Tracked Path × Enumeration Path)) : TurnDiffTracker Path :=
  calls.foldl (fun tracker call =>
    tracker.trackDelta tools call.1.environmentId call.1.delta call.2) tracker

end WeaveCodex.TurnDiff
