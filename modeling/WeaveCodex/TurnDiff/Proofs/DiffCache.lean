/-
Purpose: The cache of rendered diffs never changes what a refresh shows: a revision stands
  for one content, so a cached diff is the diff of the contents that its key names.
-/
import WeaveCodex.TurnDiff.Proofs.DiffPairs

namespace WeaveCodex.TurnDiff

open ApplyPatch Function List Option Nat

universe u

variable {Path : Type u} [DecidableEq Path]

namespace TurnDiffTracker

variable {tools : DiffTools Path} {tracker : TurnDiffTracker Path}

/-- A map holds contents whose revisions are in use and stand for them. -/
def Dated (text : Nat → String) (bound : Nat)
    (contents : HashMap (TrackedPath Path) TrackedContent) : Prop :=
  ∀ path entry, contents.lookup path = some entry →
    entry.revision < bound ∧ text entry.revision = entry.content

/-- Every revision stands for one content, and the cached diffs are those of the contents
that their keys name. -/
structure Cached (tools : DiffTools Path) (tracker : TurnDiffTracker Path)
    (text : Nat → String) : Prop where
  baseline : Dated text tracker.nextRevision tracker.baselineByPath
  current : Dated text tracker.nextRevision tracker.currentByPath
  rendered : ∀ key diff, tracker.renderedDiffs.lookup key = some diff →
    (∀ revision ∈ key.leftRevision, revision < tracker.nextRevision) ∧
      (∀ revision ∈ key.rightRevision, revision < tracker.nextRevision) ∧
      diff = tracker.renderDiff tools key.leftPath (key.leftRevision.map text) key.rightPath
        (key.rightRevision.map text)

def CacheValid (tools : DiffTools Path) (tracker : TurnDiffTracker Path) : Prop :=
  ∃ text, Cached tools tracker text

/-! ### Changes -/

variable {contents : HashMap (TrackedPath Path) TrackedContent} {text : Nat → String} {bound : Nat}
  (dated : Dated text bound contents)
include dated

theorem Dated.extend (content : String) : Dated (update text bound content) (bound + 1) contents := by
  intro path entry found
  obtain ⟨used, stands⟩ := dated path entry found
  refine ⟨lt_succ_of_lt used, ?_⟩
  rw [update_of_ne (Nat.ne_of_lt used), stands]

variable (path : TrackedPath Path)

theorem Dated.insert (content : String) :
    Dated (update text bound content) (bound + 1)
      (contents.insert path { content, revision := bound }) := by
  intro other entry found
  by_cases same : other = path
  · subst same
    rw [AList.lookup_insert] at found
    cases found
    exact ⟨lt_succ_self bound, update_self ..⟩
  · rw [AList.lookup_insert_ne same] at found
    exact dated.extend content other entry found

theorem Dated.erase : Dated text bound (contents.erase path) := by
  intro other entry found
  by_cases same : other = path
  · subst same
    rw [AList.lookup_erase] at found
    cases found
  · rw [AList.lookup_erase_ne same] at found
    exact dated other entry found

omit dated

/-- Revisions in use keep their contents. -/
theorem map_update {revision : Option Nat} (used : ∀ number ∈ revision, number < bound)
    (content : String) : revision.map (update text bound content) = revision.map text := by
  cases revision with
  | none => rfl
  | some number =>
    rw [map_some, map_some, update_of_ne (Nat.ne_of_lt (used number rfl))]

variable {final : TurnDiffTracker Path}

omit [DecidableEq Path] in
theorem Framed.displayPath (framed : Framed tracker final) :
    final.displayPath tools = tracker.displayPath tools := by
  funext path
  simp only [TurnDiffTracker.displayPath, framed.displayRoots]

omit [DecidableEq Path] in
theorem Framed.renderDiff (framed : Framed tracker final) :
    final.renderDiff tools = tracker.renderDiff tools := by
  funext leftPath leftContent rightPath rightContent
  simp only [TurnDiffTracker.renderDiff, framed.displayPath]

/-- One more revision does not touch the cache. -/
theorem Cached.extend (cached : Cached tools tracker text) (content : String)
    (framed : Framed tracker final) (next : final.nextRevision = tracker.nextRevision + 1)
    (baseline : Dated (update text tracker.nextRevision content)
      (tracker.nextRevision + 1) final.baselineByPath)
    (current : Dated (update text tracker.nextRevision content)
      (tracker.nextRevision + 1) final.currentByPath) :
    CacheValid tools final := by
  refine ⟨_, next ▸ baseline, next ▸ current, ?_⟩
  intro key diff found
  rw [framed.renderedDiffs] at found
  obtain ⟨left, right, rendered⟩ := cached.rendered key diff found
  refine ⟨fun revision mem => ?_, fun revision mem => ?_, ?_⟩
  · rw [next]
    exact lt_succ_of_lt (left revision mem)
  · rw [next]
    exact lt_succ_of_lt (right revision mem)
  · rw [map_update left, map_update right, rendered, framed.renderDiff]

variable (valid : CacheValid tools tracker)
include valid

variable (path : TrackedPath Path)

theorem cacheValid_insertBaseline (content : String) :
    CacheValid tools (tracker.insertBaseline path content) := by
  obtain ⟨_, cached⟩ := valid
  exact cached.extend content ⟨rfl, rfl, rfl⟩ rfl (cached.baseline.insert path content)
    (cached.current.extend content)

theorem cacheValid_insertCurrent (content : String) :
    CacheValid tools (tracker.insertCurrent path content) := by
  obtain ⟨_, cached⟩ := valid
  exact cached.extend content ⟨rfl, rfl, rfl⟩ rfl (cached.baseline.extend content)
    (cached.current.insert path content)

theorem cacheValid_eraseCurrent :
    CacheValid tools { tracker with currentByPath := tracker.currentByPath.erase path } := by
  obtain ⟨text, cached⟩ := valid
  exact ⟨text, cached.baseline, cached.current.erase path, cached.rendered⟩

theorem cacheValid_setOrigins (origins : HashMap (TrackedPath Path) (TrackedPath Path)) :
    CacheValid tools { tracker with originByCurrentPath := origins } := by
  obtain ⟨text, cached⟩ := valid
  exact ⟨text, cached.baseline, cached.current, cached.rendered⟩

theorem cacheValid_recordBaseline (seen : Option String) :
    CacheValid tools (tracker.recordBaseline path seen) := by
  cases seen with
  | none => exact valid
  | some content =>
    rw [recordBaseline]
    split
    · exact cacheValid_insertBaseline valid path content
    · exact valid

/-- A change keeps every cached diff right. -/
theorem cacheValid_applyChange (environmentId : String) (change : AppliedPatchChange Path) :
    CacheValid tools (tracker.applyChange environmentId change) := by
  obtain ⟨path, change⟩ := change
  cases change with
  | add =>
    apply cacheValid_insertCurrent
    apply cacheValid_recordBaseline
    exact cacheValid_setOrigins valid _
  | delete =>
    apply cacheValid_setOrigins
    simp only
    split
    · apply cacheValid_insertBaseline
      exact cacheValid_eraseCurrent valid _
    · exact cacheValid_eraseCurrent valid _
  | update movePath oldContent overwritten newContent =>
    have source := cacheValid_recordBaseline valid { environmentId, path } (some oldContent)
    cases movePath with
    | none => exact cacheValid_insertCurrent source _ newContent
    | some =>
      apply cacheValid_setOrigins
      apply cacheValid_insertCurrent
      apply cacheValid_eraseCurrent
      exact cacheValid_recordBaseline source _ overwritten

theorem cacheValid_applyChanges (environmentId : String) (delta : AppliedPatchDelta Path) :
    CacheValid tools (tracker.applyChanges environmentId delta) := by
  rw [applyChanges]
  induction delta.changes generalizing tracker with
  | nil => exact valid
  | cons change _ ih =>
    exact ih (cacheValid_applyChange valid environmentId change)

omit valid

/-! ### Refreshes -/

/-- What the cache holds for a pair is its diff. -/
def Right (tools : DiffTools Path) (tracker : TurnDiffTracker Path)
    (cache : HashMap (DiffCacheKey Path) (Option String)) : Prop :=
  ∀ pair diff, cache.lookup (tracker.cacheKey pair) = some diff → diff = tracker.renderPair tools pair

include dated

theorem Dated.map_revision :
    ((contents.lookup path).map TrackedContent.revision).map text =
      (contents.lookup path).map TrackedContent.content := by
  cases found : contents.lookup path with
  | none => rfl
  | some entry => exact congrArg some (dated path entry found).2

theorem Dated.revision_lt :
    ∀ revision ∈ (contents.lookup path).map TrackedContent.revision, revision < bound := by
  intro revision mem
  obtain ⟨entry, found, rfl⟩ := map_eq_some_iff.mp mem
  exact (dated path entry found).1

omit dated

theorem Cached.right (cached : Cached tools tracker text) :
    Right tools tracker tracker.renderedDiffs := by
  intro pair diff found
  obtain ⟨_, _, rendered⟩ := cached.rendered _ diff found
  rw [rendered, renderPair, cacheKey, cached.baseline.map_revision, cached.current.map_revision]

theorem Right.erase {cache : HashMap (DiffCacheKey Path) (Option String)}
    (right : Right tools tracker cache) (key : DiffCacheKey Path) :
    Right tools tracker (cache.erase key) := by
  intro pair diff found
  by_cases same : tracker.cacheKey pair = key
  · rw [same, AList.lookup_erase] at found
    cases found
  · rw [AList.lookup_erase_ne same] at found
    exact right pair diff found

/-- The text of a pair in the aggregated diff. -/
def pairText (tools : DiffTools Path) (tracker : TurnDiffTracker Path)
    (pair : TrackedPath Path × TrackedPath Path) : List Char :=
  match tracker.renderPair tools pair with
  | none => []
  | some diff => if diff.toList.getLast? = some '\n' then diff.toList else diff.toList ++ ['\n']

variable {rendered : HashMap (DiffCacheKey Path) (Option String)} {key : DiffCacheKey Path}
  {pairs : List (TrackedPath Path × TrackedPath Path)}

/-- With a right cache the loop renders every pair anew. -/
theorem renderPairs_eq {previous : HashMap (DiffCacheKey Path) (Option String)}
    (right : Right tools tracker previous) (aggregated : String)
    (pairs : List (TrackedPath Path × TrackedPath Path)) :
    tracker.renderPairs tools previous rendered aggregated pairs = (pairs.foldl (fun cache pair =>
          cache.insert (tracker.cacheKey pair) (tracker.renderPair tools pair)) rendered,
        pairs.foldl (fun aggregated pair =>
          aggregate aggregated (tracker.renderPair tools pair)) aggregated) := by
  induction pairs generalizing previous rendered aggregated with
  | nil => rfl
  | cons pair _ ih =>
    have same : (previous.lookup (tracker.cacheKey pair)).getD (tracker.renderPair tools pair) =
        tracker.renderPair tools pair := by
      cases found : previous.lookup (tracker.cacheKey pair) with
      | none => rfl
      | some diff => exact right pair diff found
    rw [renderPairs, same]
    exact ih (right.erase _) _

omit [DecidableEq Path] in
theorem renderDiff_nonempty {leftPath rightPath : TrackedPath Path}
    {leftContent rightContent : Option String} {diff : String}
    (rendered : tracker.renderDiff tools leftPath leftContent rightPath rightContent = some diff) :
    diff.toList ≠ [] := by
  unfold renderDiff at rendered
  split at rendered
  · cases rendered
  · cases rendered
    simp

theorem toList_aggregate (aggregated : String) (pair : TrackedPath Path × TrackedPath Path) :
    (aggregate aggregated (tracker.renderPair tools pair)).toList =
      aggregated.toList ++ tracker.pairText tools pair := by
  rw [pairText]
  cases rendered : tracker.renderPair tools pair with
  | none => simp [aggregate]
  | some diff =>
    have nonempty := renderDiff_nonempty rendered
    have last : (aggregated ++ diff).toList.getLast? = diff.toList.getLast? := by
      rw [String.toList_append, getLast?_append_of_ne_nil _ nonempty]
    rw [aggregate]
    simp only [last]
    split
    · rw [String.toList_append]
    · rw [String.toList_append, String.toList_append, append_assoc]
      rfl

/-- What a refresh shows, from its pairs. -/
def diffText (tools : DiffTools Path) (tracker : TurnDiffTracker Path)
    (order : Enumeration Path) : List Char :=
  (tracker.diffPairs tools order).flatMap (tracker.pairText tools)

theorem toList_aggregated (tools : DiffTools Path) (tracker : TurnDiffTracker Path)
    (aggregated : String)
    (pairs : List (TrackedPath Path × TrackedPath Path)) :
    (pairs.foldl (fun aggregated pair =>
        aggregate aggregated (tracker.renderPair tools pair)) aggregated).toList =
      aggregated.toList ++ pairs.flatMap (tracker.pairText tools) := by
  induction pairs generalizing aggregated with
  | nil => simp
  | cons _ _ ih =>
    rw [foldl_cons, ih, toList_aggregate, flatMap_cons, append_assoc]

/-- The pair was rendered by the last refresh. -/
def Paired (tracker : TurnDiffTracker Path) (leftPath rightPath : TrackedPath Path) : Prop :=
  ∃ key ∈ tracker.renderedDiffs, key.leftPath = leftPath ∧ key.rightPath = rightPath

theorem lookup_rendered {diff : Option String} (found : (pairs.foldl (fun cache pair =>
      cache.insert (tracker.cacheKey pair) (tracker.renderPair tools pair)) rendered).lookup key =
        some diff) :
    rendered.lookup key = some diff ∨
      ∃ pair ∈ pairs, key = tracker.cacheKey pair ∧ diff = tracker.renderPair tools pair := by
  induction pairs generalizing rendered with
  | nil => exact .inl found
  | cons pair _ ih =>
    rcases ih found with earlier | ⟨other, mem, same⟩
    · by_cases same : key = tracker.cacheKey pair
      · subst same
        rw [AList.lookup_insert] at earlier
        exact .inr ⟨pair, mem_cons_self, rfl, (some.inj earlier).symm⟩
      · rw [AList.lookup_insert_ne same] at earlier
        exact .inl earlier
    · exact .inr ⟨other, mem_cons_of_mem _ mem, same⟩

theorem mem_rendered : key ∈ pairs.foldl (fun cache pair =>
        cache.insert (tracker.cacheKey pair) (tracker.renderPair tools pair)) rendered ↔
      key ∈ rendered ∨ ∃ pair ∈ pairs, key = tracker.cacheKey pair := by
  induction pairs generalizing rendered with
  | nil => simp
  | cons _ _ ih =>
    rw [foldl_cons, ih, AList.mem_insert]
    simp only [mem_cons, exists_eq_or_imp]
    tauto

/-- A refresh with a right cache. -/
theorem refreshUnifiedDiff_eq (right : Right tools tracker tracker.renderedDiffs)
    (order : Enumeration Path) :
    tracker.refreshUnifiedDiff tools order =
      { tracker with
        renderedDiffs := (tracker.diffPairs tools order).foldl (fun cache pair =>
          cache.insert (tracker.cacheKey pair) (tracker.renderPair tools pair)) ∅
        unifiedDiff :=
          if tracker.diffText tools order = [] then none
          else some (String.ofList (tracker.diffText tools order)) } := by
  have shown := toList_aggregated tools tracker "" (tracker.diffPairs tools order)
  rw [String.toList_empty, nil_append] at shown
  rw [refreshUnifiedDiff, renderPairs_eq right, diffText, ← shown]
  simp

include valid

/-- What a refresh shows and pairs does not depend on the cache. -/
theorem refresh_outcome (order : Enumeration Path) :
    (∀ leftPath rightPath, (tracker.refreshUnifiedDiff tools order).Paired leftPath rightPath ↔
        (leftPath, rightPath) ∈ tracker.diffPairs tools order) ∧
      (tracker.refreshUnifiedDiff tools order).unifiedDiff =
        if tracker.diffText tools order = [] then none
        else some (String.ofList (tracker.diffText tools order)) := by
  obtain ⟨_, cached⟩ := valid
  rw [refreshUnifiedDiff_eq cached.right]
  refine ⟨?_, rfl⟩
  intro leftPath rightPath
  simp only [Paired, mem_rendered, AList.notMem_empty, false_or]
  constructor
  · rintro ⟨_, ⟨_, mem, rfl⟩, rfl, rfl⟩
    exact mem
  · intro mem
    exact ⟨_, ⟨_, mem, rfl⟩, rfl, rfl⟩

theorem cacheValid_refresh (order : Enumeration Path) :
    CacheValid tools (tracker.refreshUnifiedDiff tools order) := by
  obtain ⟨text, cached⟩ := valid
  rw [refreshUnifiedDiff_eq cached.right]
  refine ⟨text, cached.baseline, cached.current, ?_⟩
  intro key diff found
  rcases lookup_rendered found with earlier | ⟨_, _, rfl, rfl⟩
  · rw [AList.lookup_empty] at earlier
    cases earlier
  · refine ⟨cached.baseline.revision_lt _, cached.current.revision_lt _, ?_⟩
    rw [cacheKey, cached.baseline.map_revision, cached.current.map_revision]
    rfl

omit valid

end TurnDiffTracker

end WeaveCodex.TurnDiff
