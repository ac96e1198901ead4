/-
Purpose: The pairs that a refresh renders, in whatever order the maps are enumerated: every
  baseline entry is the left side of exactly one pair and every current entry the right side
  of exactly one; with it, what the maps of the tracker say about the files.
-/
import WeaveCodex.TurnDiff.Proofs.FileMaps

namespace WeaveCodex.TurnDiff

open Function Bool
open Library KeySort TurnDiffTracker Option List

universe u

variable {Path : Type u} [DecidableEq Path]

/-! ### Visiting -/

theorem unseen_dedup {α : Type*} [DecidableEq α] (seen items : List α) :
    unseen seen (dedup items) = unseen seen items := by
  induction items using dedup.induct generalizing seen with
  | case1 | case2 => rfl
  | case3 _ _ ih =>
    rw [dedup, if_pos rfl, ih]
    conv_rhs => rw [unseen]
    split
    · rfl
    · rename_i fresh
      rw [unseen, if_neg fresh, unseen, if_pos mem_cons_self]
  | case4 _ _ _ apart ih =>
    rw [dedup, if_neg apart, unseen, unseen, ih, ih]

/-- The loop keeps the first occurrence of every path that is no destination. -/
theorem visitPaths_eq {renamed : TrackedPath Path → Option (TrackedPath Path)}
    {isDestination : TrackedPath Path → Bool}
    (closed : ∀ path dest, renamed path = some dest → isDestination dest = true)
    (handled paths : List (TrackedPath Path)) :
    visitPaths renamed isDestination handled paths =
      ((unseen handled paths).filter (!isDestination ·)).map fun path =>
        (path, (renamed path).getD path) := by
  induction paths generalizing handled with
  | nil => rfl
  | cons path paths ih =>
    rw [visitPaths, unseen]
    by_cases known : path ∈ handled
    · rw [if_pos known, if_pos known, ih]
    rw [if_neg known, if_neg known]
    by_cases destination : isDestination path = true
    · rw [if_pos destination, filter_cons_of_neg (by simpa using destination), ih]
    rw [if_neg destination, filter_cons_of_pos (by simpa using destination), map_cons]
    cases target : renamed path with
    | none => rw [ih, getD_none]
    | some dest =>
      -- A destination that is marked as handled would be skipped anyway.
      have skipped : (unseen (dest :: path :: handled) paths).filter (!isDestination ·) =
          (unseen (path :: handled) paths).filter (!isDestination ·) := by
        rw [filter_unseen, filter_unseen]
        apply unseen_congr
        intro item mem
        have apart : item ≠ dest := by
          rintro rfl
          have kept := (mem_filter.mp mem).2
          rw [closed path item target] at kept
          cases kept
        simp [apart]
      simp only [ih, getD_some, skipped]

namespace TurnDiffTracker

variable {tools : DiffTools Path} {tracker : TurnDiffTracker Path} {order : Enumeration Path}

/-! ### Renames -/

variable {destPath originPath : TrackedPath Path} {origins : List (TrackedPath Path × TrackedPath Path)}

theorem isRename_iff : tracker.isRename destPath originPath = true ↔
    destPath ≠ originPath ∧ originPath ∉ tracker.currentByPath ∧
      destPath ∈ tracker.currentByPath ∧ originPath ∈ tracker.baselineByPath ∧
      destPath ∉ tracker.baselineByPath := by
  simp only [isRename, not_eq_true', or_eq_false_iff, decide_eq_false_iff_not,
    isSome_eq_false_iff, isNone_eq_false_iff, isNone_iff_eq_none,
    AList.lookup_eq_none, AList.lookup_isSome]
  tauto

theorem renamed_mem (renamed : tracker.renamePairs origins originPath = some destPath) :
    (destPath, originPath) ∈ origins ∧ tracker.isRename destPath originPath = true := by
  obtain ⟨entry, mem, swapped⟩ := List.mem_map.mp (Dict.mem_of_ofEntries renamed)
  obtain ⟨mem, kept⟩ := mem_filter.mp mem
  obtain ⟨_, _⟩ := entry
  cases swapped
  exact ⟨mem, kept⟩

variable {path : TrackedPath Path}

theorem isPairedDestination_iff : tracker.isPairedDestination origins path = true ↔
    ∃ originPath, tracker.renamePairs origins originPath = some path := by
  rw [isPairedDestination, List.any_eq_true]
  constructor
  · rintro ⟨entry, _, renamed⟩
    exact ⟨entry.2, of_decide_eq_true renamed⟩
  · rintro ⟨originPath, renamed⟩
    exact ⟨(path, originPath), (renamed_mem renamed).1, decide_eq_true renamed⟩

theorem mem_origins (enumerated : order.Of tracker) : (destPath, originPath) ∈ order.origins ↔
    tracker.originByCurrentPath.lookup destPath = some originPath := by
  rw [enumerated.origins.mem_iff, List.mem_map]
  constructor
  · rintro ⟨_, present, same⟩
    cases same
    exact AList.mem_lookup_iff.mpr present
  · intro found
    exact ⟨⟨destPath, originPath⟩, AList.mem_lookup_iff.mp found, rfl⟩

/-! ### Pairs -/

/-- The paths that are the left side of a pair, in their order. -/
def leftPaths (tools : DiffTools Path) (tracker : TurnDiffTracker Path)
    (order : Enumeration Path) : List (TrackedPath Path) :=
  (KeySort.unseen []
    (KeySort.sortByKey (tracker.displayPath tools) (order.baseline ++ order.current))).filter
      (!tracker.isPairedDestination order.origins ·)

/-- The right side for a left side. -/
def rightPath (tracker : TurnDiffTracker Path) (order : Enumeration Path)
    (path : TrackedPath Path) : TrackedPath Path :=
  (tracker.renamePairs order.origins path).getD path

theorem diffPairs_eq : tracker.diffPairs tools order =
    (tracker.leftPaths tools order).map fun path => (path, tracker.rightPath order path) := by
  rw [diffPairs, visitPaths_eq, sortedPaths, unseen_dedup]
  · rfl
  · intro path dest renamed
    exact isPairedDestination_iff.mpr ⟨path, renamed⟩

theorem nodup_leftPaths : (tracker.leftPaths tools order).Nodup :=
  nodup_unseen.filter _

variable (enumerated : order.Of tracker)

include enumerated

theorem mem_leftPaths : path ∈ tracker.leftPaths tools order ↔
    (path ∈ tracker.baselineByPath ∨ path ∈ tracker.currentByPath) ∧
      tracker.isPairedDestination order.origins path = false := by
  rw [leftPaths, mem_filter, mem_unseen, (perm_sortByKey _ _).mem_iff,
    mem_append, enumerated.baseline.mem_iff, enumerated.current.mem_iff, AList.mem_keys,
    AList.mem_keys]
  simp

theorem baseline_mem_leftPaths (known : path ∈ tracker.baselineByPath) :
    path ∈ tracker.leftPaths tools order := by
  refine (mem_leftPaths enumerated).mpr ⟨.inl known, ?_⟩
  rw [← not_eq_true, isPairedDestination_iff]
  rintro ⟨_, renamed⟩
  exact (isRename_iff.mp (renamed_mem renamed).2).2.2.2.2 known

/-- A baseline entry is the left side of exactly one pair. -/
theorem count_left (known : path ∈ tracker.baselineByPath) :
    ((tracker.diffPairs tools order).map Prod.fst).count path = 1 := by
  have lefts : (tracker.diffPairs tools order).map Prod.fst = tracker.leftPaths tools order := by
    simp [diffPairs_eq, comp_def]
  rw [lefts]
  exact count_eq_one_of_mem nodup_leftPaths (baseline_mem_leftPaths enumerated known)

/-- A current entry is the right side of the pair of one left path only. -/
theorem exists_left (tools : DiffTools Path) (known : path ∈ tracker.currentByPath) :
    ∃ left ∈ tracker.leftPaths tools order, tracker.rightPath order left = path ∧
      ∀ other ∈ tracker.leftPaths tools order, tracker.rightPath order other = path → other = left := by
  by_cases destination : ∃ originPath, tracker.renamePairs order.origins originPath = some path
  · obtain ⟨originPath, renamed⟩ := destination
    obtain ⟨mem, rename⟩ := renamed_mem renamed
    have origin := (isRename_iff.mp rename).2.2.2.1
    refine ⟨originPath, baseline_mem_leftPaths enumerated origin, ?_, ?_⟩
    · rw [rightPath, renamed, getD_some]
    · intro other left right
      rw [rightPath] at right
      cases target : tracker.renamePairs order.origins other with
      | none =>
        rw [target, getD_none] at right
        have skipped := ((mem_leftPaths enumerated).mp left).2
        rw [right, isPairedDestination_iff.mpr ⟨originPath, renamed⟩] at skipped
        cases skipped
      | some =>
        rw [target, getD_some] at right
        rw [right] at target
        have first := (mem_origins enumerated).mp (renamed_mem target).1
        have second := (mem_origins enumerated).mp mem
        exact Option.some.inj (first.symm.trans second)
  · have shown : tracker.isPairedDestination order.origins path = false := by
      rw [← not_eq_true, isPairedDestination_iff]
      exact destination
    refine ⟨path, (mem_leftPaths enumerated).mpr ⟨.inr known, shown⟩, ?_, ?_⟩
    · rw [rightPath]
      cases target : tracker.renamePairs order.origins path with
      | none => rfl
      | some => exact absurd known (isRename_iff.mp (renamed_mem target).2).2.1
    · intro other left right
      rw [rightPath] at right
      cases target : tracker.renamePairs order.origins other with
      | none => rwa [target, getD_none] at right
      | some =>
        rw [target, getD_some] at right
        exact absurd ⟨other, right ▸ target⟩ destination

/-- A current entry is the right side of exactly one pair. -/
theorem count_right (known : path ∈ tracker.currentByPath) :
    ((tracker.diffPairs tools order).map Prod.snd).count path = 1 := by
  obtain ⟨left, mem, right, unique⟩ := exists_left enumerated tools known
  have rights : (tracker.diffPairs tools order).map Prod.snd =
      (tracker.leftPaths tools order).map (tracker.rightPath order) := by
    simp [diffPairs_eq, comp_def]
  rw [rights, count, countP_map]
  have same : ∀ other ∈ tracker.leftPaths tools order,
      ((· == path) ∘ tracker.rightPath order) other = true ↔ (other == left) = true := by
    intro other present
    rw [comp_apply, beq_iff_eq, beq_iff_eq]
    exact ⟨unique other present, fun equal => equal ▸ right⟩
  rw [countP_congr same]
  exact count_eq_one_of_mem nodup_leftPaths mem

end TurnDiffTracker

/-! ### The files of a turn -/

/-- At every moment of a turn over consistent exact deltas, for every path: a baseline entry
holds what was there at the start, a current entry what is there now, and a path with
neither has not changed; and however the maps are enumerated, the rendered pairs use every
baseline entry once on the left and every current entry once on the right. -/
theorem tracked_files (tools : DiffTools Path) (displayRoots : HashMap String Path)
    (initial : Files Path) (calls : List (Tracked Path × Enumeration Path))
    (consistent : initial.ConsistentDeltas (calls.map Prod.fst))
    (before : List (Tracked Path × Enumeration Path)) (earlier : before <+: calls) :
    let tracker :=
      (TurnDiffTracker.withEnvironmentDisplayRoots displayRoots).trackAll tools before
    let now := initial.afterDeltas (before.map Prod.fst)
    (∀ path entry, tracker.baselineByPath.lookup path = some entry →
        initial path = some entry.content) ∧
      (∀ path entry, tracker.currentByPath.lookup path = some entry → now path = some entry.content) ∧
      (∀ path, path ∉ tracker.baselineByPath → path ∉ tracker.currentByPath → initial path = now path) ∧
      ∀ order, order.Of tracker → (∀ path ∈ tracker.baselineByPath,
          ((tracker.diffPairs tools order).map Prod.fst).count path = 1) ∧
        ∀ path ∈ tracker.currentByPath,
          ((tracker.diffPairs tools order).map Prod.snd).count path = 1 := by
  obtain ⟨_, rfl⟩ := earlier
  rw [map_append] at consistent
  have fresh : (withEnvironmentDisplayRoots displayRoots).Describes initial initial :=
    fun path => ⟨nofun, nofun, fun _ absent => absurd rfl absent, fun absent => absurd rfl absent,
      fun _ _ => rfl⟩
  have described := describes_trackAll tools rfl fresh consistent.front
  refine ⟨?_, ?_, ?_, ?_⟩
  · intro path entry found
    exact (described path).original _ (by rw [baselineText, found]; rfl)
  · intro path entry found
    exact (described path).latest _ (by rw [currentText, found]; rfl)
  · intro path noBaseline noCurrent
    apply (described path).untouched
    · rw [baselineText, AList.lookup_eq_none.mpr noBaseline, map_none]
    · rw [currentText, AList.lookup_eq_none.mpr noCurrent, map_none]
  · intro order enumerated
    exact ⟨fun path known => count_left enumerated known,
      fun path known => count_right enumerated known⟩

/-- `a` is moved to `b` and changed. -/
def movedFile : Tracked String × Enumeration String :=
  ({ environmentId := ""
     delta := { changes := [{ path := "a", change := .update (some "b") "one" none "two" }] } },
    { origins := [(⟨"", "b"⟩, ⟨"", "a"⟩)], baseline := [⟨"", "a"⟩], current := [⟨"", "b"⟩] })

/-- The files before the move. -/
def beforeMove : Files String := fun path => if path = ⟨"", "a"⟩ then some "one" else none

/-- After the move, the baseline has the old text of `a` and the current map the new text
of `b`, and they are one pair. -/
theorem movedFile_tracked :
    let tracker := (TurnDiffTracker.withEnvironmentDisplayRoots ∅).trackAll DiffTools.plain [movedFile]
    beforeMove ⟨"", "a"⟩ = some "one" ∧ beforeMove.afterDeltas [movedFile.1] ⟨"", "b"⟩ = some "two" ∧
      ((tracker.diffPairs DiffTools.plain movedFile.2).map Prod.snd).count ⟨"", "b"⟩ = 1 := by
  have consistent : beforeMove.ConsistentDeltas ([movedFile].map Prod.fst) := by
    refine ⟨rfl, ⟨⟨rfl, ?_⟩, trivial⟩, trivial⟩
    rintro _ ⟨⟩
    exact ⟨by decide, rfl⟩
  have tracked := tracked_files DiffTools.plain ∅ beforeMove [movedFile] consistent [movedFile]
    (prefix_refl _)
  refine ⟨tracked.1 ⟨"", "a"⟩ ⟨"one", 0⟩ rfl, tracked.2.1 ⟨"", "b"⟩ ⟨"two", 1⟩ rfl, ?_⟩
  exact (tracked.2.2.2 movedFile.2 ⟨.refl _, .refl _, .refl _⟩).2 _ (by decide)

end WeaveCodex.TurnDiff
