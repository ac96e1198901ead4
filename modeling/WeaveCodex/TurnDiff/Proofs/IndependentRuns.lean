/-
Purpose: Runs of the tracker over the same deltas that enumerate their hash maps in
  different orders: exactly when the maps at the end are unambiguous, all of them end with
  the same pairs and the same diff.
-/
import WeaveCodex.TurnDiff.Proofs.OrderIndependence

namespace WeaveCodex.TurnDiff

open ApplyPatch List

universe u

variable {Path : Type u} [DecidableEq Path]

namespace TurnDiffTracker

/-- The same pairs and the same diff. -/
structure SameOutcome (first second : TurnDiffTracker Path) : Prop where
  pairs : ∀ leftPath rightPath, first.Paired leftPath rightPath ↔ second.Paired leftPath rightPath
  unifiedDiff : first.unifiedDiff = second.unifiedDiff

/-- Every refresh of a run enumerates the maps that it finds. -/
def Enumerated (tools : DiffTools Path) :
    TurnDiffTracker Path → List (Tracked Path × Enumeration Path) → Prop
  | _, [] => True
  | tracker, (tracked, order) :: calls =>
    order.Of (tracker.applyChanges tracked.environmentId tracked.delta) ∧
      Enumerated tools (tracker.trackDelta tools tracked.environmentId tracked.delta order) calls

/-- The maps after a sequence of deltas. -/
def applyAll (tracker : TurnDiffTracker Path) (deltas : List (Tracked Path)) : TurnDiffTracker Path :=
  deltas.foldl (fun tracker tracked => tracker.applyChanges tracked.environmentId tracked.delta) tracker

/-- The tracker without what the last refresh rendered. -/
def cleared (tracker : TurnDiffTracker Path) : TurnDiffTracker Path :=
  { tracker with renderedDiffs := ∅, unifiedDiff := none }

variable {tools : DiffTools Path} {tracker : TurnDiffTracker Path}

/-! ### Changes do not read the cache -/

theorem recordBaseline_cleared (path : TrackedPath Path) (seen : Option String) :
    tracker.cleared.recordBaseline path seen = (tracker.recordBaseline path seen).cleared := by
  cases seen with
  | none => rfl
  | some =>
    have same : tracker.cleared.isUntracked path = tracker.isUntracked path := rfl
    rw [recordBaseline, recordBaseline, same]
    split <;> rfl

/-- A change does not read what the last refresh rendered. -/
theorem applyChange_cleared (environmentId : String) (change : AppliedPatchChange Path) :
    tracker.cleared.applyChange environmentId change =
      (tracker.applyChange environmentId change).cleared := by
  obtain ⟨path, change⟩ := change
  cases change with
  | add content overwritten =>
    let unlinked := { tracker with
      originByCurrentPath := tracker.originByCurrentPath.erase { environmentId, path } }
    have recorded := unlinked.recordBaseline_cleared { environmentId, path } overwritten
    exact congrArg (fun tracker => tracker.insertCurrent { environmentId, path } content) recorded
  | delete content =>
    have baselines : tracker.cleared.baselineByPath = tracker.baselineByPath := rfl
    have currents : tracker.cleared.currentByPath = tracker.currentByPath := rfl
    simp only [applyChange, applyDelete, baselines, currents]
    split <;> rfl
  | update movePath oldContent overwritten newContent =>
    simp only [applyChange, applyUpdate, recordBaseline_cleared]
    cases movePath with
    | none => rfl
    | some =>
      simp only [Option.map_some]
      rfl

theorem applyChanges_cleared (environmentId : String) (delta : AppliedPatchDelta Path) :
    tracker.cleared.applyChanges environmentId delta =
      (tracker.applyChanges environmentId delta).cleared := by
  rw [applyChanges, applyChanges]
  induction delta.changes generalizing tracker with
  | nil => rfl
  | cons _ _ ih =>
    rw [foldl_cons, foldl_cons, applyChange_cleared]
    exact ih

/-! ### Runs -/

theorem trackAll_concat (calls : List (Tracked Path × Enumeration Path)) (tracked : Tracked Path)
    (order : Enumeration Path) :
    tracker.trackAll tools (calls ++ [(tracked, order)]) =
      (tracker.trackAll tools calls).trackDelta tools tracked.environmentId tracked.delta order := by
  rw [trackAll, trackAll, foldl_append]
  rfl

variable {order : Enumeration Path} {calls : List (Tracked Path × Enumeration Path)}
  {first second : TurnDiffTracker Path} {last : Tracked Path} {earlier : List (Tracked Path)}

theorem enumerated_concat {tracked : Tracked Path} :
    tracker.Enumerated tools (calls ++ [(tracked, order)]) ↔ tracker.Enumerated tools calls ∧
        order.Of ((tracker.trackAll tools calls).applyChanges tracked.environmentId tracked.delta) := by
  induction calls generalizing tracker with
  | nil =>
    constructor
    · rintro ⟨listed, -⟩
      exact ⟨trivial, listed⟩
    · rintro ⟨-, listed⟩
      exact ⟨listed, trivial⟩
  | cons call _ ih =>
    obtain ⟨_, _⟩ := call
    simp only [cons_append, Enumerated, ih, and_assoc]
    rfl

/-- One more delta from the maps of the earlier ones. -/
theorem applyChanges_maps {state : TurnDiffTracker Path} {deltas : List (Tracked Path)}
    (maps : state.cleared = (tracker.applyAll deltas).cleared) (tracked : Tracked Path) :
    (state.applyChanges tracked.environmentId tracked.delta).cleared =
      (tracker.applyAll (deltas ++ [tracked])).cleared := by
  rw [applyAll, foldl_append, ← applyChanges_cleared, maps]
  exact applyChanges_cleared ..

/-- The maps of a run are those of its deltas, and its cache is right. -/
theorem trackAll_maps (valid : tracker.valid = true) (cached : CacheValid tools tracker)
    (calls : List (Tracked Path × Enumeration Path))
    (exact : ∀ call ∈ calls, call.1.delta.exact = true) :
    (tracker.trackAll tools calls).cleared = (tracker.applyAll (calls.map Prod.fst)).cleared ∧
      (tracker.trackAll tools calls).valid = true ∧
      CacheValid tools (tracker.trackAll tools calls) := by
  induction calls using reverseRecOn with
  | nil => exact ⟨rfl, valid, cached⟩
  | append_singleton _ call ih =>
    obtain ⟨tracked, order⟩ := call
    obtain ⟨maps, stillValid, stillCached⟩ := ih fun call mem =>
      exact call (mem_append_left _ mem)
    have step := trackDelta_exact tools stillValid (exact (tracked, order) (by simp))
      tracked.environmentId order
    rw [trackAll_concat, step, map_append, map_cons, map_nil]
    refine ⟨applyChanges_maps maps tracked, ?_,
      cacheValid_refresh (cacheValid_applyChanges stillCached _ _) order⟩
    exact (framed_applyChanges _ tracked.environmentId tracked.delta).valid.trans stillValid

theorem exists_enumerated (tools : DiffTools Path) (tracker : TurnDiffTracker Path)
    (deltas : List (Tracked Path)) :
    ∃ calls, calls.map Prod.fst = deltas ∧ tracker.Enumerated tools calls := by
  induction deltas generalizing tracker with
  | nil => exact ⟨[], rfl, trivial⟩
  | cons tracked _ ih =>
    let order := (tracker.applyChanges tracked.environmentId tracked.delta).ownOrder
    obtain ⟨calls, same, enumerated⟩ := ih
      (tracker.trackDelta tools tracked.environmentId tracked.delta order)
    exact ⟨(tracked, order) :: calls, by rw [map_cons, same], ownOrder_of _, enumerated⟩

/-! ### Outcomes -/

omit [DecidableEq Path] in
theorem cleared_of : order.Of tracker.cleared ↔ order.Of tracker :=
  ⟨fun listed => ⟨listed.origins, listed.baseline, listed.current⟩,
    fun listed => ⟨listed.origins, listed.baseline, listed.current⟩⟩

theorem shown_inj {first second : List Char} :
    (if first = [] then none else some (String.ofList first)) =
        (if second = [] then none else some (String.ofList second)) ↔ first = second := by
  constructor
  · intro same
    by_cases firstEmpty : first = []
    · by_cases secondEmpty : second = []
      · rw [firstEmpty, secondEmpty]
      · simp [firstEmpty, secondEmpty] at same
    · by_cases secondEmpty : second = []
      · simp [firstEmpty, secondEmpty] at same
      · rw [if_neg firstEmpty, if_neg secondEmpty] at same
        exact String.ofList_injective (Option.some.inj same)
  · rintro rfl
    rfl

/-- What is paired and shown depends on the maps only. -/
theorem shown_of_maps (tools : DiffTools Path) (maps : first.cleared = second.cleared)
    (order : Enumeration Path) :
    first.diffPairs tools order = second.diffPairs tools order ∧
      first.diffText tools order = second.diffText tools order := by
  have pairs : ∀ tracker : TurnDiffTracker Path,
      tracker.cleared.diffPairs tools order = tracker.diffPairs tools order := fun _ => rfl
  have text : ∀ tracker : TurnDiffTracker Path,
      tracker.cleared.diffText tools order = tracker.diffText tools order := fun _ => rfl
  exact ⟨by rw [← pairs first, maps, pairs], by rw [← text first, maps, text]⟩

/-- Two refreshes of the same maps, each with a right cache. -/
theorem sameOutcome_iff {maps : TurnDiffTracker Path} (firstMaps : first.cleared = maps.cleared)
    (secondMaps : second.cleared = maps.cleared) (firstCached : CacheValid tools first)
    (secondCached : CacheValid tools second) (one two : Enumeration Path) :
    SameOutcome (first.refreshUnifiedDiff tools one) (second.refreshUnifiedDiff tools two) ↔
      (∀ pair, pair ∈ maps.diffPairs tools one ↔ pair ∈ maps.diffPairs tools two) ∧
        maps.diffText tools one = maps.diffText tools two := by
  obtain ⟨firstPairs, firstText⟩ := refresh_outcome firstCached one
  obtain ⟨secondPairs, secondText⟩ := refresh_outcome secondCached two
  obtain ⟨onePairs, oneText⟩ := shown_of_maps tools firstMaps one
  obtain ⟨twoPairs, twoText⟩ := shown_of_maps tools secondMaps two
  rw [onePairs] at firstPairs
  rw [oneText] at firstText
  rw [twoPairs] at secondPairs
  rw [twoText] at secondText
  constructor
  · rintro ⟨pairs, shown⟩
    constructor
    · rintro ⟨leftPath, rightPath⟩
      rw [← firstPairs, ← secondPairs]
      exact pairs leftPath rightPath
    · rw [firstText, secondText] at shown
      exact shown_inj.mp shown
  · rintro ⟨pairs, text⟩
    constructor
    · intro leftPath rightPath
      rw [firstPairs, secondPairs]
      exact pairs (leftPath, rightPath)
    · rw [firstText, secondText]
      exact shown_inj.mpr text

theorem cacheValid_fresh (tools : DiffTools Path) (displayRoots : HashMap String Path) :
    CacheValid tools (withEnvironmentDisplayRoots displayRoots) := by
  refine ⟨fun _ => "", ?_, ?_, ?_⟩
  · exact nofun
  · exact nofun
  · exact nofun

section Last

variable (valid : tracker.valid = true) (cached : CacheValid tools tracker)
  (exact : ∀ tracked ∈ earlier ++ [last], tracked.delta.exact = true)

include valid cached exact

/-- The last call of a run: a refresh of the maps of all its deltas. -/
theorem trackAll_last (made : calls.map Prod.fst = earlier ++ [last])
    (enumerated : tracker.Enumerated tools calls) :
    ∃ state order, state.cleared = (tracker.applyAll (earlier ++ [last])).cleared ∧
      CacheValid tools state ∧ order.Of (tracker.applyAll (earlier ++ [last])) ∧
      tracker.trackAll tools calls = state.refreshUnifiedDiff tools order := by
  obtain ⟨before, _, rfl, rfl, finalMade⟩ := map_eq_append_iff.mp made
  obtain ⟨call, rfl, rfl⟩ := map_eq_singleton_iff.mp finalMade
  obtain ⟨last, order⟩ := call
  obtain ⟨maps, stillValid, stillCached⟩ := trackAll_maps valid cached before fun call mem =>
    exact call.1 (mem_append_left _ (mem_map_of_mem mem))
  have reached := applyChanges_maps maps last
  refine ⟨_, order, reached, cacheValid_applyChanges stillCached _ _, ?_, ?_⟩
  · rw [← cleared_of, ← reached, cleared_of]
    exact (enumerated_concat.mp enumerated).2
  · rw [trackAll_concat]
    exact trackDelta_exact tools stillValid (exact last (by simp)) last.environmentId order

/-- Every order of the maps at the end is the order of some run. -/
theorem exists_last (orderOf : order.Of (tracker.applyAll (earlier ++ [last]))) :
    ∃ calls state, calls.map Prod.fst = earlier ++ [last] ∧ tracker.Enumerated tools calls ∧
      state.cleared = (tracker.applyAll (earlier ++ [last])).cleared ∧ CacheValid tools state ∧
      tracker.trackAll tools calls = state.refreshUnifiedDiff tools order := by
  obtain ⟨before, rfl, enumerated⟩ := exists_enumerated tools tracker earlier
  obtain ⟨maps, stillValid, stillCached⟩ := trackAll_maps valid cached before fun call mem =>
    exact call.1 (mem_append_left _ (mem_map_of_mem mem))
  have reached := applyChanges_maps maps last
  refine ⟨before ++ [(last, order)], _, by simp, ?_, reached,
    cacheValid_applyChanges stillCached _ _, ?_⟩
  · refine enumerated_concat.mpr ⟨enumerated, ?_⟩
    rw [← cleared_of, reached, cleared_of]
    exact orderOf
  · rw [trackAll_concat]
    exact trackDelta_exact tools stillValid (exact last (by simp)) last.environmentId order

end Last

end TurnDiffTracker

open TurnDiffTracker

/-- Over exact deltas, the pairs and the diff at the end are independent of the orders in
which hash maps are enumerated exactly if the maps at the end are unambiguous. -/
theorem unifiedDiff_independent_iff (tools : DiffTools Path) (displayRoots : HashMap String Path)
    (deltas : List (Tracked Path)) (exact : ∀ tracked ∈ deltas, tracked.delta.exact = true) :
    (∀ first second : List (Tracked Path × Enumeration Path),
        first.map Prod.fst = deltas → second.map Prod.fst = deltas →
        (withEnvironmentDisplayRoots displayRoots).Enumerated tools first →
        (withEnvironmentDisplayRoots displayRoots).Enumerated tools second →
        SameOutcome ((withEnvironmentDisplayRoots displayRoots).trackAll tools first)
          ((withEnvironmentDisplayRoots displayRoots).trackAll tools second)) ↔
      ((withEnvironmentDisplayRoots displayRoots).applyAll deltas).Unambiguous tools := by
  have cached := cacheValid_fresh tools displayRoots
  rcases eq_nil_or_concat deltas with rfl | ⟨_, _, rfl⟩
  · constructor
    · intro _
      constructor
      · intro originPath first second one
        cases one.linked
      · intro first second _ _ known
        rcases known with ⟨one, _⟩ | ⟨⟨one, _⟩, _⟩ <;> exact absurd one (AList.notMem_empty first)
    · intro _ first second firstMade secondMade _ _
      rw [map_eq_nil_iff.mp firstMade, map_eq_nil_iff.mp secondMade]
      exact ⟨fun _ _ => Iff.rfl, rfl⟩
  · rw [concat_eq_append] at exact ⊢
    rw [← orderIndependent_iff]
    constructor
    · intro independent one two oneOf twoOf
      obtain ⟨first, _, firstMade, firstEnumerated, firstMaps, firstCached, firstRun⟩ :=
        exists_last rfl cached exact oneOf
      obtain ⟨second, secondState, secondMade, secondEnumerated, secondMaps, secondCached,
        secondRun⟩ := exists_last rfl cached exact twoOf
      have same := independent first second firstMade secondMade firstEnumerated secondEnumerated
      rw [firstRun, secondRun] at same
      exact (sameOutcome_iff firstMaps secondMaps firstCached secondCached one two).mp same
    · intro independent first second firstMade secondMade firstEnumerated secondEnumerated
      obtain ⟨_, one, firstMaps, firstCached, oneOf, firstRun⟩ :=
        trackAll_last rfl cached exact firstMade firstEnumerated
      obtain ⟨_, two, secondMaps, secondCached, twoOf, secondRun⟩ :=
        trackAll_last rfl cached exact secondMade secondEnumerated
      rw [firstRun, secondRun]
      exact (sameOutcome_iff firstMaps secondMaps firstCached secondCached one two).mpr
        (independent one two oneOf twoOf)

/-- Two new files. -/
def twoFiles : Tracked String :=
  { environmentId := ""
    delta := { changes := [{ path := "x", change := .add "one" none },
      { path := "y", change := .add "two" none }] } }

/-- The two orders of the new files. -/
def fileOrder (first second : String) : Enumeration String where
  origins := []
  baseline := []
  current := [⟨"", first⟩, ⟨"", second⟩]

/-- In both orders of its maps the tracker shows the same diff of the two files. -/
theorem twoFiles_independent :
    ((withEnvironmentDisplayRoots ∅).applyAll [twoFiles]).Unambiguous DiffTools.plain ∧ SameOutcome
        ((withEnvironmentDisplayRoots ∅).trackAll DiffTools.plain [(twoFiles, fileOrder "x" "y")])
        ((withEnvironmentDisplayRoots ∅).trackAll DiffTools.plain [(twoFiles, fileOrder "y" "x")]) := by
  have unambiguous :
      ((withEnvironmentDisplayRoots ∅).applyAll [twoFiles]).Unambiguous DiffTools.plain := by
    constructor
    · intro originPath first second one
      cases one.linked
    · intro first second different tied known
      have listed : ∀ path ∈ ((withEnvironmentDisplayRoots ∅).applyAll [twoFiles]).currentByPath,
          path ∈ [(⟨"", "y"⟩ : TrackedPath String), ⟨"", "x"⟩] := fun _ member => member
      rcases known with ⟨one, _⟩ | ⟨⟨one, _⟩, two, _⟩
      · exact absurd one (AList.notMem_empty first)
      · have oneListed := listed first one
        have twoListed := listed second two
        simp only [mem_cons, not_mem_nil, or_false] at oneListed twoListed
        rcases oneListed with rfl | rfl <;> rcases twoListed with rfl | rfl
        all_goals first | exact absurd rfl different | exact absurd tied (by decide)
  refine ⟨unambiguous, ?_⟩
  exact (unifiedDiff_independent_iff DiffTools.plain ∅ [twoFiles] (by decide)).mpr unambiguous
    _ _ rfl rfl ⟨⟨by decide, by decide, by decide⟩, trivial⟩
    ⟨⟨by decide, by decide, by decide⟩, trivial⟩

/-- `a` is moved to `b`, created again and moved to `c`. -/
def movedTwice : Tracked String :=
  { environmentId := ""
    delta :=
      { changes :=
          [{ path := "a", change := .update (some "b") "one" none "two" },
            { path := "a", change := .add "three" none },
            { path := "a", change := .update (some "c") "three" none "four" }] } }

/-- The two orders of the links from `b` and `c` to `a`. -/
def linkOrder (first second : String) : Enumeration String where
  origins := [(⟨"", first⟩, ⟨"", "a"⟩), (⟨"", second⟩, ⟨"", "a"⟩)]
  baseline := [⟨"", "a"⟩]
  current := [⟨"", "c"⟩, ⟨"", "b"⟩]

/-- With one order `a` is shown as moved to `c` and `b` as new; with the other one `a` is
shown as moved to `b`. -/
theorem movedTwice_ambiguous :
    let fresh : TurnDiffTracker String := withEnvironmentDisplayRoots ∅
    let first := fresh.trackAll DiffTools.plain [(movedTwice, linkOrder "b" "c")]
    let second := fresh.trackAll DiffTools.plain [(movedTwice, linkOrder "c" "b")]
    fresh.Enumerated DiffTools.plain [(movedTwice, linkOrder "b" "c")] ∧
      fresh.Enumerated DiffTools.plain [(movedTwice, linkOrder "c" "b")] ∧
      first.Paired ⟨"", "a"⟩ ⟨"", "c"⟩ ∧ ¬ second.Paired ⟨"", "a"⟩ ⟨"", "c"⟩ ∧
      first.unifiedDiff ≠ second.unifiedDiff := by
  refine ⟨⟨⟨?_, ?_, ?_⟩, trivial⟩, ⟨⟨?_, ?_, ?_⟩, trivial⟩, ?_, ?_, ?_⟩
  · decide
  · decide
  · decide
  · decide
  · decide
  · decide
  · exact ⟨⟨⟨"", "a"⟩, some 0, ⟨"", "c"⟩, some 3⟩, by decide, rfl, rfl⟩
  · have cached := cacheValid_applyChanges (cacheValid_fresh DiffTools.plain ∅)
      movedTwice.environmentId movedTwice.delta
    exact fun paired => absurd (((refresh_outcome cached (linkOrder "c" "b")).1 _ _).mp paired)
      (by decide)
  · decide +kernel

end WeaveCodex.TurnDiff
