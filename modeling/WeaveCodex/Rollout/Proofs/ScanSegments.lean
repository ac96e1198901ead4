/-
Purpose: The reverse scan against the segments of the rollout: at every item its base is
  the newest surviving checkpoint, and its suffix starts after the checkpoint of the oldest
  segment that has one, whether that segment survives or not.
-/
import WeaveCodex.Rollout.Proofs.HistoryReplay
import WeaveCodex.Rollout.Segments

namespace WeaveCodex.Rollout

open Grouping ReverseScan List Option

universe u

variable {Json : Type u} {tools : HistoryTools Json} {rolloutItems : List (RolloutItem Json)}
  {scan : ReverseScan Json} {grouping : Grouping Json}

/-! ### The abstraction -/

/-- The open segment of the scan and the one of the grouping. -/
structure Matches (segment : ActiveReplaySegment Json) (outline : OpenSegment Json) : Prop where
  turnId : segment.turnId = outline.turnId
  counts : segment.countsAsUserTurn = outline.countsAsUserTurn
  base : segment.baseReplacementHistory = outline.checkpoint.map Checkpoint.replacement

/-- The newest checkpoint of a surviving segment. -/
def survivingCheckpoint (segments : List (ReplaySegment Json)) : Option (Checkpoint Json) :=
  segments.findSome? fun segment => if segment.survives then segment.checkpoint else none

structure Abstracts (rolloutItems : List (RolloutItem Json)) (scan : ReverseScan Json)
    (grouping : Grouping Json) : Prop where
  active : Option.Rel Matches scan.activeSegment grouping.active
  pending : scan.pendingRollbackTurns = grouping.pendingRollbackTurns
  base : scan.baseReplacementHistory = (survivingCheckpoint grouping.closed).map Checkpoint.replacement
  suffix : scan.rolloutSuffix = (grouping.checkpoints.getLast?.map Checkpoint.newer).getD rolloutItems

variable (abstracts : Abstracts rolloutItems scan grouping)

include abstracts in
/-- Both sides have an open segment, or neither has one. -/
theorem Abstracts.active_cases : (scan.activeSegment = none ∧ grouping.active = none) ∨
    ∃ segment outline, scan.activeSegment = some segment ∧ grouping.active = some outline ∧
      Matches segment outline := by
  have related := abstracts.active
  generalize scan.activeSegment = first at related
  generalize grouping.active = second at related
  cases related with
  | some matching => exact .inr ⟨_, _, rfl, rfl, matching⟩
  | none => exact .inl ⟨rfl, rfl⟩

include abstracts in
theorem Abstracts.matching : Matches (scan.activeSegment.getD {}) (grouping.active.getD {}) := by
  rcases abstracts.active_cases with ⟨seen, outlined⟩ | ⟨_, _, seen, outlined, matching⟩
  · rw [seen, outlined]
    exact ⟨rfl, rfl, rfl⟩
  · rw [seen, outlined]
    exact matching

theorem checkpoints_getD : grouping.checkpoints = grouping.closed.filterMap ReplaySegment.checkpoint ++
    (grouping.active.getD {}).checkpoint.toList := by
  rw [checkpoints]
  cases grouping.active with
  | none | some => rfl

theorem checkpoints_update (change : OpenSegment Json → OpenSegment Json)
    (kept : ∀ outline, (change outline).checkpoint = outline.checkpoint) :
    (grouping.update change).checkpoints = grouping.checkpoints := by
  rw [checkpoints_getD, checkpoints_getD]
  exact congrArg (fun checkpoint => _ ++ toList checkpoint) (kept _)

include abstracts in
/-- A change of the open segment that leaves its checkpoint alone. -/
theorem Abstracts.update (change : ActiveReplaySegment Json → ActiveReplaySegment Json)
    (outlined : OpenSegment Json → OpenSegment Json)
    (matching : ∀ segment outline, Matches segment outline →
      Matches (change segment) (outlined outline))
    (kept : ∀ outline, (outlined outline).checkpoint = outline.checkpoint) :
    Abstracts rolloutItems (scan.updateSegment change) (grouping.update outlined) := by
  refine ⟨.some (matching _ _ abstracts.matching), abstracts.pending, abstracts.base, ?_⟩
  rw [checkpoints_update outlined kept]
  exact abstracts.suffix

/-! ### One item -/

theorem survivingCheckpoint_concat (segments : List (ReplaySegment Json))
    (segment : ReplaySegment Json) :
    survivingCheckpoint (segments ++ [segment]) =
      (survivingCheckpoint segments).or (if segment.survives then segment.checkpoint else none) := by
  rw [survivingCheckpoint, findSome?_append]
  simp [survivingCheckpoint]

theorem checkpoints_close : grouping.close.checkpoints = grouping.checkpoints := by
  unfold close
  cases found : grouping.active with
  | none => rfl
  | some segment =>
    simp only [checkpoints, found, filterMap_append, bind_some, bind_none, toList_none, append_nil]
    cases segment.checkpoint with
    | none | some => rfl

include abstracts in
/-- A segment ends: it gives its checkpoint to the base if no rollback is pending. -/
theorem abstracts_finalize : Abstracts rolloutItems scan.finalize grouping.close := by
  have suffix := abstracts.suffix
  rw [← checkpoints_close] at suffix
  rcases abstracts.active_cases with ⟨seen, outlined⟩ | ⟨segment, outline, seen, outlined, matching⟩
  · rw [finalize, close, seen, outlined]
    exact abstracts
  · have closed : grouping.close.closed = grouping.closed ++
        [{ checkpoint := outline.checkpoint
           survives := grouping.pendingRollbackTurns = 0 }] := by
      rw [close, outlined]
    have active : grouping.close.active = none := by
      rw [close, outlined]
    have pending : grouping.close.pendingRollbackTurns =
        if outline.countsAsUserTurn then grouping.pendingRollbackTurns - 1
        else grouping.pendingRollbackTurns := by
      rw [close, outlined]
    rw [finalize, seen]
    simp only [finalizeActiveSegment]
    by_cases waiting : 0 < scan.pendingRollbackTurns
    · have dropped : grouping.pendingRollbackTurns ≠ 0 := abstracts.pending ▸ waiting.ne'
      have base : scan.baseReplacementHistory =
          (survivingCheckpoint grouping.close.closed).map Checkpoint.replacement := by
        rw [closed, survivingCheckpoint_concat, abstracts.base]
        simp [dropped]
      rw [if_pos waiting]
      by_cases counts : segment.countsAsUserTurn = true
      · rw [if_pos counts]
        refine ⟨active ▸ .none, ?_, base, suffix⟩
        rw [pending, ← matching.counts, if_pos counts, ← abstracts.pending]
      · rw [if_neg counts]
        refine ⟨active ▸ .none, ?_, base, suffix⟩
        rw [pending, ← matching.counts, if_neg counts, ← abstracts.pending]
    · have none : scan.pendingRollbackTurns = 0 := Nat.eq_zero_of_not_pos waiting
      have zero : grouping.pendingRollbackTurns = 0 := abstracts.pending ▸ none
      have base : scan.baseReplacementHistory.or segment.baseReplacementHistory =
          (survivingCheckpoint grouping.close.closed).map Checkpoint.replacement := by
        rw [closed, survivingCheckpoint_concat, abstracts.base, matching.base, map_or]
        simp [zero]
      rw [if_neg waiting]
      refine ⟨active ▸ .none, ?_, base, suffix⟩
      rw [pending, zero, none]
      split <;> rfl

theorem checkpoints_seen (tools : HistoryTools Json) (grouping : Grouping Json)
    {compacted : CompactedItem Json} {replacement : List (ResponseItemEnvelope Json)}
    (found : compacted.replacementHistory = some replacement)
    (newer : List (RolloutItem Json)) :
    (grouping.step tools newer (.compacted compacted)).checkpoints =
      if (grouping.active.getD {}).checkpoint.isNone then
        grouping.checkpoints ++ [(⟨replacement, newer⟩ : Checkpoint Json)]
      else grouping.checkpoints := by
  rw [checkpoints_getD, checkpoints_getD]
  simp only [step, update, getD_some, found, map_some]
  cases (grouping.active.getD {}).checkpoint with
  | none | some => simp

include abstracts in
/-- Both take a checkpoint only for a segment without one. -/
theorem abstracts_compacted (newer : List (RolloutItem Json)) (compacted : CompactedItem Json) :
    Abstracts rolloutItems (scan.scanItem tools newer (.compacted compacted))
      (grouping.step tools newer (.compacted compacted)) := by
  have matching := abstracts.matching
  cases found : compacted.replacementHistory with
  | none =>
    have seen := abstracts.update (·.seeCompacted tools compacted) id
      (fun _ _ matching => ⟨matching.turnId, matching.counts, matching.base⟩) fun _ => rfl
    simp only [scanItem, step, found, map_none, or_none]
    exact seen
  | some =>
    have suffix := checkpoints_seen tools grouping found newer
    simp only [scanItem, updateSegment, seeReplacementHistory, found, ActiveReplaySegment.seeCompacted]
    cases held : (grouping.active.getD {}).checkpoint with
    | none =>
      rw [held, isNone_none, if_pos rfl] at suffix
      have empty : (scan.activeSegment.getD {}).baseReplacementHistory = none := by
        rw [matching.base, held, map_none]
      rw [empty, if_pos (isNone_none)]
      refine ⟨.some ⟨matching.turnId, matching.counts, ?_⟩, abstracts.pending, abstracts.base, ?_⟩
      · simp [held, found]
      · rw [suffix, getLast?_concat]
        rfl
    | some checkpoint =>
      rw [held, isNone_some, if_neg (by decide)] at suffix
      have full : (scan.activeSegment.getD {}).baseReplacementHistory =
          some checkpoint.replacement := by
        rw [matching.base, held, map_some]
      rw [full, if_neg (by simp)]
      refine ⟨.some ⟨matching.turnId, matching.counts, ?_⟩, abstracts.pending, abstracts.base, ?_⟩
      · simp [held]
      · rw [suffix]
        exact abstracts.suffix

theorem Matches.named {segment : ActiveReplaySegment Json} {outline : OpenSegment Json}
    (matching : Matches segment outline) (turnId : Option String) :
    Matches (segment.setTurnId turnId) { outline with turnId := outline.turnId.or turnId } :=
  ⟨congrArg (·.or turnId) matching.turnId, matching.counts, matching.base⟩

include abstracts in
theorem Abstracts.named (turnId : Option String) :
    Abstracts rolloutItems (scan.updateSegment (·.setTurnId turnId))
      (grouping.update fun segment => { segment with turnId := segment.turnId.or turnId }) :=
  abstracts.update _ _ (fun _ _ matching => matching.named turnId) fun _ => rfl

include abstracts in
theorem Abstracts.counted : Abstracts rolloutItems
    (scan.updateSegment fun segment => { segment with countsAsUserTurn := true })
    (grouping.update fun segment => { segment with countsAsUserTurn := true }) :=
  abstracts.update _ _ (fun _ _ matching => ⟨matching.turnId, rfl, matching.base⟩) fun _ => rfl

/-- Both end a segment at the start of its turn. -/
theorem abstracts_eventMsg (tools : HistoryTools Json)
    (abstracts : Abstracts rolloutItems scan grouping) (newer : List (RolloutItem Json))
    (event : EventMsg) :
    Abstracts rolloutItems (scan.scanItem tools newer (.eventMsg event))
      (grouping.step tools newer (.eventMsg event)) := by
  cases event with
  | threadRolledBack numTurns =>
    refine ⟨abstracts.active, ?_, abstracts.base, abstracts.suffix⟩
    exact congrArg (saturatingAdd · numTurns.toNat) abstracts.pending
  | turnStarted =>
    have closing := abstracts_finalize abstracts
    simp only [scanItem, step]
    rcases abstracts.active_cases with
      ⟨seen, outlined⟩ | ⟨segment, outline, seen, outlined, matching⟩
    · rw [seen, outlined]
      exact abstracts
    · rw [seen, outlined]
      simp only [matching.turnId]
      split
      · exact closing
      · exact abstracts
  | turnComplete turnId => exact abstracts.named (some turnId)
  | turnAborted turnId =>
    simp only [scanItem, step]
    rcases abstracts.active_cases with
      ⟨seen, outlined⟩ | ⟨segment, outline, seen, outlined, matching⟩
    · rw [seen, outlined]
      cases turnId with
      | none => exact abstracts
      | some turnId => exact abstracts.named (some turnId)
    · rw [seen, outlined]
      exact abstracts.named turnId
  | userMessage => exact abstracts.counted
  | other => exact abstracts

/-- The scan and the grouping take each item alike. -/
theorem abstracts_scanItem (tools : HistoryTools Json)
    (abstracts : Abstracts rolloutItems scan grouping) (newer : List (RolloutItem Json))
    (item : RolloutItem Json) :
    Abstracts rolloutItems (scan.scanItem tools newer item) (grouping.step tools newer item) := by
  cases item with
  | compacted compacted => exact abstracts_compacted abstracts newer compacted
  | eventMsg event => exact abstracts_eventMsg tools abstracts newer event
  | turnContext context =>
    simp only [scanItem, step]
    refine abstracts.update _ _ (fun segment outline matching => ?_) fun _ => rfl
    have named := matching.named context.turnId
    unfold ActiveReplaySegment.seeTurnContext
    simp only
    split
    · exact ⟨named.turnId, named.counts, named.base⟩
    · exact named
  | worldState =>
    simp only [scanItem, step]
    refine abstracts.update _ _ (fun segment outline matching => ?_) fun _ => rfl
    exact ⟨matching.turnId, matching.counts, matching.base⟩
  | responseItem envelope =>
    simp only [scanItem, step]
    refine abstracts.update _ _ (fun segment outline matching => ?_) fun _ => rfl
    exact ⟨matching.turnId,
      congrArg (· || isUserTurnBoundary tools envelope.item) matching.counts, matching.base⟩
  | interAgentCommunication => exact abstracts.counted
  | _ => exact abstracts

/-! ### Where the checkpoints are -/

/-- An item adds at most itself to the checkpoints. -/
theorem checkpoints_step (tools : HistoryTools Json) (grouping : Grouping Json)
    (newer : List (RolloutItem Json)) (item : RolloutItem Json) :
    (grouping.step tools newer item).checkpoints = grouping.checkpoints ∨
      ∃ compacted replacement, item = .compacted compacted ∧
        compacted.replacementHistory = some replacement ∧
        (grouping.step tools newer item).checkpoints =
          grouping.checkpoints ++ [(⟨replacement, newer⟩ : Checkpoint Json)] := by
  cases item with
  | compacted compacted =>
    cases found : compacted.replacementHistory with
    | none =>
      left
      apply checkpoints_update
      intro outline
      simp [found]
    | some replacement =>
      rw [checkpoints_seen tools grouping found newer]
      split
      · exact .inr ⟨compacted, replacement, rfl, found, rfl⟩
      · exact .inl rfl
  | eventMsg event =>
    left
    cases event with
    | threadRolledBack => rfl
    | turnStarted =>
      simp only [step]
      split
      · rfl
      · split
        · exact checkpoints_close
        · rfl
    | turnComplete | userMessage => exact checkpoints_update _ fun _ => rfl
    | turnAborted =>
      simp only [step]
      split
      · rfl
      · exact checkpoints_update _ fun _ => rfl
    | other => rfl
  | sessionMeta | securityRiskScore | interAgentCommunicationMetadata =>
    exact .inl rfl
  | _ => exact .inl (checkpoints_update _ fun _ => rfl)

/-- The checkpoint is a compaction of the rollout. -/
def Checkpoint.In (checkpoint : Checkpoint Json) (rolloutItems : List (RolloutItem Json)) : Prop :=
  ∃ front compacted, rolloutItems = front ++ .compacted compacted :: checkpoint.newer ∧
    compacted.replacementHistory = some checkpoint.replacement

/-- The checkpoints are compactions of the rollout, and each but the newest one has a
checkpoint after it. -/
structure Located (rolloutItems newer : List (RolloutItem Json)) (grouping : Grouping Json) :
    Prop where
  located : ∀ checkpoint ∈ grouping.checkpoints, checkpoint.In rolloutItems
  ordered : grouping.checkpoints.Pairwise fun _ older => older.newer.any isCheckpoint = true
  seen : grouping.checkpoints ≠ [] → newer.any isCheckpoint = true

variable {newer older : List (RolloutItem Json)}

/-- Only the checkpoints matter, and more items behind. -/
theorem Located.of_same {other : Grouping Json} (located : Located rolloutItems newer grouping)
    (same : other.checkpoints = grouping.checkpoints) (items : List (RolloutItem Json)) :
    Located rolloutItems (items ++ newer) other := by
  refine ⟨same ▸ located.located, same ▸ located.ordered, ?_⟩
  rw [same]
  intro nonempty
  rw [any_append, located.seen nonempty, Bool.or_true]

theorem Located.close (located : Located rolloutItems newer grouping) :
    Located rolloutItems newer grouping.close :=
  located.of_same checkpoints_close []

/-- A new checkpoint is the compaction that the scan has reached. -/
theorem located_step (tools : HistoryTools Json) {item : RolloutItem Json}
    (located : Located rolloutItems newer grouping)
    (split : rolloutItems = (item :: older).reverse ++ newer) :
    Located rolloutItems (item :: newer) (grouping.step tools newer item) := by
  rcases checkpoints_step tools grouping newer item with
    same | ⟨compacted, replacement, rfl, found, added⟩
  · exact located.of_same same [item]
  · have marked : isCheckpoint (.compacted compacted) = true :=
      isCheckpoint_iff.mpr ⟨compacted, replacement, rfl, found⟩
    refine ⟨?_, ?_, ?_⟩
    · rw [added, forall_mem_append, forall_mem_singleton]
      refine ⟨located.located, older.reverse, compacted, ?_, found⟩
      rw [split, reverse_cons, append_assoc, singleton_append]
    · rw [added, pairwise_append]
      refine ⟨located.ordered, pairwise_singleton _ _, ?_⟩
      intro earlier mem last new
      rw [mem_singleton.mp new]
      exact located.seen (ne_nil_of_mem mem)
    · intro _
      rw [any_cons, marked, Bool.true_or]

/-! ### The whole scan -/

theorem closed_close : grouping.closed <+: grouping.close.closed := by
  unfold close
  split
  · exact prefix_refl _
  · exact prefix_append _ _

theorem closed_step (newer : List (RolloutItem Json)) (item : RolloutItem Json) :
    grouping.closed <+: (grouping.step tools newer item).closed := by
  cases item with
  | eventMsg event =>
    cases event with
    | turnStarted =>
      simp only [step]
      split
      · exact prefix_refl _
      · split
        · exact closed_close
        · exact prefix_refl _
    | turnAborted =>
      simp only [step]
      split <;> exact prefix_refl _
    | _ => exact prefix_refl _
  | _ => exact prefix_refl _

theorem closed_groupBack (newer older : List (RolloutItem Json)) :
    grouping.closed <+: (grouping.groupBack tools newer older).closed := by
  induction older generalizing grouping newer with
  | nil => exact prefix_refl _
  | cons item _ ih =>
    exact (closed_step newer item).trans (ih (item :: newer))

/-- The scan ends with the segments of the whole rollout, or early with a base. -/
theorem scanBack_abstracts (tools : HistoryTools Json)
    (abstracts : Abstracts rolloutItems scan grouping)
    (located : Located rolloutItems newer grouping) (split : rolloutItems = older.reverse ++ newer) :
    ∃ reached newer', Abstracts rolloutItems (scan.scanBack tools newer older) reached ∧
      Located rolloutItems newer' reached ∧
      (reached = grouping.groupBack tools newer older ∨
        (scan.scanBack tools newer older).baseReplacementHistory.isSome = true ∧
          reached.closed <+: (grouping.groupBack tools newer older).closed) := by
  induction older generalizing scan grouping newer with
  | nil => exact ⟨grouping, newer, abstracts, located, .inl rfl⟩
  | cons item _ ih =>
    have next := abstracts_scanItem tools abstracts newer item
    have nextLocated := located_step tools located split
    rw [scanBack, groupBack]
    by_cases complete : (scan.scanItem tools newer item).isComplete = true
    · simp only [if_pos complete]
      refine ⟨_, _, next, nextLocated, .inr ⟨?_, closed_groupBack _ _⟩⟩
      rw [isComplete, Bool.and_eq_true, Bool.and_eq_true] at complete
      exact complete.1.1
    · simp only [if_neg complete]
      refine ih next nextLocated ?_
      rw [split, reverse_cons, append_assoc, singleton_append]

/-- The scan of a whole rollout, from its newest item. -/
theorem scan_abstracts (tools : HistoryTools Json) (rolloutItems : List (RolloutItem Json)) :
    let scan := { rolloutSuffix := rolloutItems : ReverseScan Json }.scanBack tools []
      rolloutItems.reverse
    let segments := ({} : Grouping Json).groupBack tools [] rolloutItems.reverse
    ∃ reached newer, Abstracts rolloutItems scan reached ∧ Located rolloutItems newer reached ∧
      (reached = segments ∨
        scan.baseReplacementHistory.isSome = true ∧ reached.closed <+: segments.closed) := by
  have initially : Abstracts rolloutItems
      ({ rolloutSuffix := rolloutItems } : ReverseScan Json) {} := ⟨.none, rfl, rfl, rfl⟩
  have empty : Located rolloutItems [] ({} : Grouping Json) :=
    ⟨fun _ mem => absurd mem not_mem_nil, .nil, fun nonempty => absurd rfl nonempty⟩
  have split : rolloutItems = rolloutItems.reverse.reverse ++ [] := by
    rw [reverse_reverse, append_nil]
  exact scanBack_abstracts tools initially empty split

end WeaveCodex.Rollout
