/-
Purpose: When the turn diff does not depend on the order in which the hash maps are
  enumerated: no two renames may share an origin, and paths that are displayed alike must
  have diffs that can be exchanged.
-/
import WeaveCodex.TurnDiff.Proofs.DiffCache

namespace WeaveCodex.TurnDiff

open Library KeySort List

universe u

variable {Path : Type u} [DecidableEq Path]

namespace TurnDiffTracker

/-- The maps in the order of their entries. -/
def ownOrder (tracker : TurnDiffTracker Path) : Enumeration Path where
  origins := tracker.originByCurrentPath.entries.map fun entry => (entry.1, entry.2)
  baseline := tracker.baselineByPath.keys
  current := tracker.currentByPath.keys

omit [DecidableEq Path] in
theorem ownOrder_of (tracker : TurnDiffTracker Path) : tracker.ownOrder.Of tracker :=
  ⟨.refl _, .refl _, .refl _⟩

/-- What a refresh shows at a path: nothing for the destination of a rename. -/
def pathText (tools : DiffTools Path) (tracker : TurnDiffTracker Path) (order : Enumeration Path)
    (path : TrackedPath Path) : List Char :=
  if tracker.isPairedDestination order.origins path then []
  else tracker.pairText tools (path, tracker.rightPath order path)

/-- `destPath` is shown as a rename of `originPath`, as far as the maps go. -/
structure Renamed (tracker : TurnDiffTracker Path) (originPath destPath : TrackedPath Path) :
    Prop where
  linked : tracker.originByCurrentPath.lookup destPath = some originPath
  shown : tracker.isRename destPath originPath = true

/-- The order of the maps cannot be seen: no two renames have one origin, and two tracked
paths that are displayed alike, both with a baseline or both without, show texts that can be
exchanged. -/
structure Unambiguous (tools : DiffTools Path) (tracker : TurnDiffTracker Path) : Prop where
  origins : ∀ originPath first second, tracker.Renamed originPath first →
    tracker.Renamed originPath second → first = second
  ties : ∀ first second, first ≠ second →
    tracker.displayPath tools first = tracker.displayPath tools second →
    (first ∈ tracker.baselineByPath ∧ second ∈ tracker.baselineByPath ∨
      (first ∈ tracker.currentByPath ∧ first ∉ tracker.baselineByPath) ∧
        second ∈ tracker.currentByPath ∧ second ∉ tracker.baselineByPath) →
    tracker.pathText tools tracker.ownOrder first ++ tracker.pathText tools tracker.ownOrder second =
      tracker.pathText tools tracker.ownOrder second ++ tracker.pathText tools tracker.ownOrder first

variable {tools : DiffTools Path} {tracker : TurnDiffTracker Path} {order : Enumeration Path}

/-! ### The text of the sorted paths -/

theorem flatMap_filter {α β : Type*} (keep : α → Bool) (spell : α → List β) (items : List α) :
    (items.filter keep).flatMap spell =
      items.flatMap fun item => if keep item then spell item else [] := by
  induction items with
  | nil => rfl
  | cons item _ ih =>
    by_cases kept : keep item = true
    · rw [filter_cons_of_pos kept, flatMap_cons, flatMap_cons, if_pos kept, ih]
    · rw [filter_cons_of_neg kept, flatMap_cons, if_neg kept, ih, nil_append]

variable (enumerated : order.Of tracker)

include enumerated

/-- The tracked paths with a baseline and those without one, sorted, each with its text. -/
theorem diffText_eq : tracker.diffText tools order =
    (sortByKey (tracker.displayPath tools)
      (order.baseline ++ order.current.filter (· ∉ order.baseline))).flatMap
        (tracker.pathText tools order) := by
  have baselines := enumerated.baseline.nodup_iff.mpr tracker.baselineByPath.keys_nodup
  have currents := enumerated.current.nodup_iff.mpr tracker.currentByPath.keys_nodup
  rw [diffText, diffPairs_eq, flatMap_map, leftPaths, flatMap_filter, unseen_sortByKey, unseen_append,
    unseen_of_nodup baselines, unseen_of_nodup currents]
  simp only [not_mem_nil, not_false_eq_true, decide_true, filter_true, append_nil]
  apply flatMap_congr
  intro path _
  rw [pathText]
  cases tracker.isPairedDestination order.origins path with
  | true | false => rfl

variable {originPath destPath : TrackedPath Path}

theorem renamed_of_renamePairs
    (renamed : tracker.renamePairs order.origins originPath = some destPath) :
    tracker.Renamed originPath destPath :=
  ⟨(mem_origins enumerated).mp (renamed_mem renamed).1, (renamed_mem renamed).2⟩

/-- Without shared origins the rename pairs are the renames. -/
theorem renamePairs_eq_some_iff (unique : ∀ originPath first second, tracker.Renamed originPath first →
      tracker.Renamed originPath second → first = second) :
    tracker.renamePairs order.origins originPath = some destPath ↔
      tracker.Renamed originPath destPath := by
  constructor
  · exact renamed_of_renamePairs enumerated
  · intro renamed
    have mem := (mem_origins enumerated).mpr renamed.linked
    cases target : tracker.renamePairs order.origins originPath with
    | none =>
      have absent := Dict.ofEntries_eq_none.mp target
      rw [map_map, mem_map] at absent
      exact absurd ⟨_, mem_filter.mpr ⟨mem, renamed.shown⟩, rfl⟩ absent
    | some other =>
      rw [unique originPath other destPath (renamed_of_renamePairs enumerated target) renamed]

omit enumerated

/-! ### Unambiguous maps -/

section Orders

variable {first second : Enumeration Path} (firstOf : first.Of tracker) (secondOf : second.Of tracker)
  (unique : ∀ originPath first second, tracker.Renamed originPath first →
    tracker.Renamed originPath second → first = second)

include firstOf secondOf unique

theorem renamePairs_order : tracker.renamePairs first.origins = tracker.renamePairs second.origins := by
  funext originPath
  apply Option.ext
  intro destPath
  rw [renamePairs_eq_some_iff firstOf unique, renamePairs_eq_some_iff secondOf unique]

theorem isPairedDestination_order :
    tracker.isPairedDestination first.origins = tracker.isPairedDestination second.origins := by
  funext path
  rw [Bool.eq_iff_iff, isPairedDestination_iff, isPairedDestination_iff,
    renamePairs_order firstOf secondOf unique]

theorem rightPath_order : tracker.rightPath first = tracker.rightPath second := by
  funext path
  rw [rightPath, rightPath, renamePairs_order firstOf secondOf unique]

theorem pathText_order (tools : DiffTools Path) :
    tracker.pathText tools first = tracker.pathText tools second := by
  funext path
  rw [pathText, pathText, isPairedDestination_order firstOf secondOf unique,
    rightPath_order firstOf secondOf unique]

theorem mem_diffPairs_order {pair : TrackedPath Path × TrackedPath Path} :
    pair ∈ tracker.diffPairs tools first ↔ pair ∈ tracker.diffPairs tools second := by
  rw [diffPairs_eq, diffPairs_eq, mem_map, mem_map]
  simp only [mem_leftPaths firstOf, mem_leftPaths secondOf,
    isPairedDestination_order firstOf secondOf unique, rightPath_order firstOf secondOf unique]

end Orders

variable {first second : Enumeration Path} {one two : TrackedPath Path}

/-- Two orders list the same paths without a baseline. -/
theorem new_perm (firstOf : first.Of tracker) (secondOf : second.Of tracker) :
    (first.current.filter (· ∉ first.baseline)).Perm (second.current.filter (· ∉ second.baseline)) := by
  have baselines := firstOf.baseline.trans secondOf.baseline.symm
  simp only [baselines.mem_iff]
  exact (firstOf.current.trans secondOf.current.symm).filter _

/-- The diff of an unambiguous tracker does not show the order of the paths. -/
theorem diffText_order (unambiguous : tracker.Unambiguous tools) (firstOf : first.Of tracker)
    (secondOf : second.Of tracker) :
    tracker.diffText tools first = tracker.diffText tools second := by
  rw [diffText_eq firstOf, diffText_eq secondOf,
    pathText_order firstOf tracker.ownOrder_of unambiguous.origins,
    pathText_order secondOf tracker.ownOrder_of unambiguous.origins]
  have baselines := flatMap_sortByKey_perm (tracker.displayPath tools)
    (tracker.pathText tools tracker.ownOrder) (firstOf.baseline.trans secondOf.baseline.symm) ?_ []
    (first.current.filter (· ∉ first.baseline))
  have currents := flatMap_sortByKey_perm (tracker.displayPath tools)
    (tracker.pathText tools tracker.ownOrder) (new_perm firstOf secondOf) ?_ second.baseline []
  · rw [append_nil, append_nil] at currents
    exact baselines.trans currents
  · intro one oneMem two twoMem different tied
    simp only [mem_filter, firstOf.baseline.mem_iff, firstOf.current.mem_iff, decide_eq_true_eq]
      at oneMem twoMem
    exact unambiguous.ties one two different tied (.inr ⟨oneMem, twoMem⟩)
  · intro one oneMem two twoMem different tied
    rw [firstOf.baseline.mem_iff] at oneMem twoMem
    exact unambiguous.ties one two different tied (.inl ⟨oneMem, twoMem⟩)

/-! ### Ambiguous maps -/

theorem mem_diffPairs {leftPath rightPath : TrackedPath Path} :
    (leftPath, rightPath) ∈ tracker.diffPairs tools order ↔
      leftPath ∈ tracker.leftPaths tools order ∧ tracker.rightPath order leftPath = rightPath := by
  rw [diffPairs_eq, mem_map]
  constructor
  · rintro ⟨_, mem, same⟩
    cases same
    exact ⟨mem, rfl⟩
  · rintro ⟨mem, rfl⟩
    exact ⟨leftPath, mem, rfl⟩

/-- The maps with one link enumerated last. -/
def linkLast (tracker : TurnDiffTracker Path) (originPath destPath : TrackedPath Path) :
    Enumeration Path :=
  { tracker.ownOrder with
    origins := tracker.ownOrder.origins.erase (destPath, originPath) ++ [(destPath, originPath)] }

theorem linkLast_of (renamed : tracker.Renamed originPath destPath) :
    (tracker.linkLast originPath destPath).Of tracker := by
  refine ⟨?_, .refl _, .refl _⟩
  have mem := (mem_origins tracker.ownOrder_of).mpr renamed.linked
  exact perm_append_comm.trans (perm_cons_erase mem).symm

theorem renamePairs_linkLast (renamed : tracker.Renamed originPath destPath) :
    tracker.renamePairs (tracker.linkLast originPath destPath).origins originPath = some destPath := by
  rw [renamePairs, linkLast, filter_append, map_append]
  simp only [filter_cons_of_pos, renamed.shown, filter_nil]
  exact Dict.ofEntries_concat_self _ originPath destPath

/-- The texts of two paths can be exchanged. -/
def Exchangeable (tools : DiffTools Path) (tracker : TurnDiffTracker Path)
    (one two : TrackedPath Path) : Prop :=
  let shown := tracker.pathText tools tracker.ownOrder
  shown one ++ shown two = shown two ++ shown one

/-- Two orders that exchange two tied paths show the same only if the texts can be exchanged. -/
theorem exchangeable_of_texts (before after : List (TrackedPath Path)) (firstOf : first.Of tracker)
    (secondOf : second.Of tracker) (firstOrigins : first.origins = tracker.ownOrder.origins)
    (secondOrigins : second.origins = tracker.ownOrder.origins)
    (firstListed : first.baseline ++ first.current.filter (· ∉ first.baseline) =
      before ++ one :: two :: after)
    (secondListed : second.baseline ++ second.current.filter (· ∉ second.baseline) =
      before ++ two :: one :: after)
    (tied : tracker.displayPath tools one = tracker.displayPath tools two)
    (texts : tracker.diffText tools first = tracker.diffText tools second) :
    tracker.Exchangeable tools one two := by
  have own (order : Enumeration Path) (origins : order.origins = tracker.ownOrder.origins) :
      tracker.pathText tools order = tracker.pathText tools tracker.ownOrder := by
    funext path
    simp only [pathText, rightPath, origins]
  obtain ⟨_, _, inOrder, exchanged⟩ := sortByKey_tied tied before after
  rw [diffText_eq firstOf, diffText_eq secondOf, firstListed, secondListed, inOrder, exchanged,
    own first firstOrigins, own second secondOrigins] at texts
  simp only [flatMap_append, flatMap_cons, append_cancel_left_eq] at texts
  rw [← append_assoc, ← append_assoc] at texts
  exact append_cancel_right texts

/-- Two keys of a map, listed first. -/
theorem exchange_perm {keys : List (TrackedPath Path)} (different : one ≠ two)
    (oneMem : one ∈ keys) (twoMem : two ∈ keys) :
    (one :: two :: (keys.erase one).erase two).Perm keys ∧
      (two :: one :: (keys.erase one).erase two).Perm keys := by
  have left : two ∈ keys.erase one := (mem_erase_of_ne different.symm).mpr twoMem
  have perm : (one :: two :: (keys.erase one).erase two).Perm keys :=
    ((perm_cons_erase left).symm.cons one).trans (perm_cons_erase oneMem).symm
  exact ⟨perm, (List.Perm.swap one two _).trans perm⟩

section Exchange

variable (different : one ≠ two) (tied : tracker.displayPath tools one = tracker.displayPath tools two)
  (texts : ∀ first second : Enumeration Path, first.Of tracker → second.Of tracker →
    tracker.diffText tools first = tracker.diffText tools second)

include different tied texts

theorem commute_baseline (oneKnown : one ∈ tracker.baselineByPath)
    (twoKnown : two ∈ tracker.baselineByPath) :
    tracker.Exchangeable tools one two := by
  obtain ⟨firstPerm, secondPerm⟩ := exchange_perm different oneKnown twoKnown
  let rest := (tracker.baselineByPath.keys.erase one).erase two
  let first : Enumeration Path := { tracker.ownOrder with baseline := one :: two :: rest }
  let second : Enumeration Path := { tracker.ownOrder with baseline := two :: one :: rest }
  have firstOf : first.Of tracker := ⟨.refl _, firstPerm, .refl _⟩
  have secondOf : second.Of tracker := ⟨.refl _, secondPerm, .refl _⟩
  have same (path : TrackedPath Path) : path ∈ second.baseline ↔ path ∈ first.baseline :=
    (secondPerm.trans firstPerm.symm).mem_iff
  refine exchangeable_of_texts [] _ firstOf secondOf rfl rfl rfl ?_ tied
    (texts first second firstOf secondOf)
  simp only [same]
  rfl

theorem commute_current (oneKnown : one ∈ tracker.currentByPath)
    (oneNew : one ∉ tracker.baselineByPath) (twoKnown : two ∈ tracker.currentByPath)
    (twoNew : two ∉ tracker.baselineByPath) :
    tracker.Exchangeable tools one two := by
  obtain ⟨firstPerm, secondPerm⟩ := exchange_perm different oneKnown twoKnown
  let rest := (tracker.currentByPath.keys.erase one).erase two
  let first : Enumeration Path := { tracker.ownOrder with current := one :: two :: rest }
  let second : Enumeration Path := { tracker.ownOrder with current := two :: one :: rest }
  have firstOf : first.Of tracker := ⟨.refl _, .refl _, firstPerm⟩
  have secondOf : second.Of tracker := ⟨.refl _, .refl _, secondPerm⟩
  have kept (path other : TrackedPath Path) (new : path ∉ tracker.ownOrder.baseline)
      (otherNew : other ∉ tracker.ownOrder.baseline) :
      (path :: other :: rest).filter (· ∉ tracker.ownOrder.baseline) =
        path :: other :: rest.filter (· ∉ tracker.ownOrder.baseline) := by
    rw [filter_cons_of_pos (by simpa using new), filter_cons_of_pos (by simpa using otherNew)]
  exact exchangeable_of_texts tracker.ownOrder.baseline _ firstOf secondOf rfl rfl
    (congrArg _ (kept one two oneNew twoNew)) (congrArg _ (kept two one twoNew oneNew)) tied
    (texts first second firstOf secondOf)

end Exchange

/-- Exactly in the unambiguous states the order of the maps is not seen. -/
theorem orderIndependent_iff :
    (∀ first second : Enumeration Path, first.Of tracker → second.Of tracker →
        (∀ pair, pair ∈ tracker.diffPairs tools first ↔ pair ∈ tracker.diffPairs tools second) ∧
          tracker.diffText tools first = tracker.diffText tools second) ↔
      tracker.Unambiguous tools := by
  constructor
  · intro independent
    constructor
    · intro originPath first second one two
      -- Two renames with one origin would give two pairings.
      have known := (isRename_iff.mp one.shown).2.2.2.1
      have firstPair : (originPath, first) ∈
          tracker.diffPairs tools (tracker.linkLast originPath first) := by
        refine mem_diffPairs.mpr ⟨baseline_mem_leftPaths (linkLast_of one) known, ?_⟩
        rw [rightPath, renamePairs_linkLast one, Option.getD_some]
      have secondPair := ((independent _ _ (linkLast_of one) (linkLast_of two)).1 _).mp firstPair
      have right := (mem_diffPairs.mp secondPair).2
      rw [rightPath, renamePairs_linkLast two, Option.getD_some] at right
      exact right.symm
    · intro first second different tied known
      have texts := fun one two oneOf twoOf => (independent one two oneOf twoOf).2
      rcases known with ⟨one, two⟩ | ⟨⟨one, oneNew⟩, two, twoNew⟩
      · exact commute_baseline different tied texts one two
      · exact commute_current different tied texts one oneNew two twoNew
  · intro unambiguous first second firstOf secondOf
    exact ⟨fun pair => mem_diffPairs_order firstOf secondOf unambiguous.origins,
      diffText_order unambiguous firstOf secondOf⟩

end TurnDiffTracker

end WeaveCodex.TurnDiff
