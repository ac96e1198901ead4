/-
Purpose: The rebuilt history against the forward replay of the whole rollout. They agree
  unless the only segment with checkpoints is dropped by a rollback: the scan has then cut
  off everything before its checkpoint, but keeps no base to replay the rest on.
-/
import WeaveCodex.Rollout.Proofs.ScanSegments

namespace WeaveCodex.Rollout

open List Option

universe u

variable {Json : Type u} {rolloutItems : List (RolloutItem Json)}
  {scan : ReverseScan Json} {grouping : Grouping Json}

/-- What the scan kept, replayed. -/
def ReverseScan.replayed (tools : HistoryTools Json) (scan : ReverseScan Json) :
    List (ResponseItemEnvelope Json) :=
  ((Replay.start scan.baseReplacementHistory).replayItems tools scan.rolloutSuffix).history.items

/-- The items after a checkpoint, replayed on a base. -/
def Checkpoint.replayedOn (tools : HistoryTools Json) (checkpoint : Checkpoint Json)
    (base : Option (List (ResponseItemEnvelope Json))) : List (ResponseItemEnvelope Json) :=
  ((Replay.start base).replayItems tools checkpoint.newer).history.items

variable {checkpoint : Checkpoint Json} {segments : List (ReplaySegment Json)}
  (tools : HistoryTools Json)

/-- A forward replay can start at any checkpoint. -/
theorem replayForward_checkpoint (located : checkpoint.In rolloutItems) :
    replayForward tools rolloutItems = checkpoint.replayedOn tools (some checkpoint.replacement) := by
  obtain ⟨front, _, rfl, found⟩ := located
  exact replayItems_checkpoint {} front checkpoint.newer found

theorem map_fst_checkpointed (segments : List (ReplaySegment Json)) :
    (checkpointed segments).map Prod.fst = segments.filterMap ReplaySegment.checkpoint := by
  rw [checkpointed, map_filterMap]
  congr 1
  funext segment
  cases segment.checkpoint with
  | none | some => rfl

theorem survivingCheckpoint_eq (segments : List (ReplaySegment Json)) :
    survivingCheckpoint segments = ((checkpointed segments).find? Prod.snd).map Prod.fst := by
  induction segments with
  | nil => rfl
  | cons segment _ ih =>
    obtain ⟨checkpoint, survives⟩ := segment
    rw [survivingCheckpoint, findSome?_cons, checkpointed, filterMap_cons]
    cases checkpoint with
    | none =>
      cases survives with
      | true | false => exact ih
    | some =>
      cases survives with
      | true => rfl
      | false => exact ih

/-- The segments of the scan decide whether the replay of what it kept is the forward
replay. -/
theorem replayed_iff (abstracts : Abstracts rolloutItems scan grouping)
    {newer : List (RolloutItem Json)} (located : Located rolloutItems newer grouping)
    (finished : grouping.active = none) :
    scan.replayed tools = replayForward tools rolloutItems ↔
      ∀ checkpoint, checkpointed grouping.closed = [(checkpoint, false)] →
        checkpoint.replayedOn tools none =
          checkpoint.replayedOn tools (some checkpoint.replacement) := by
  have checkpoints : grouping.checkpoints = (checkpointed grouping.closed).map Prod.fst := by
    rw [Grouping.checkpoints, finished, map_fst_checkpointed, bind_none, toList_none, append_nil]
  have base := abstracts.base
  have suffix := abstracts.suffix
  have inside := located.located
  have ordered := located.ordered
  rw [survivingCheckpoint_eq] at base
  rw [checkpoints] at suffix inside ordered
  rw [ReverseScan.replayed, base, suffix]
  generalize checkpointed grouping.closed = marks at inside ordered ⊢
  rcases marks with _ | ⟨⟨first, survives⟩, _ | ⟨second, later⟩⟩
  · -- Without a checkpoint the whole rollout is replayed.
    simp [replayForward, Replay.start]
  · have forward := replayForward_checkpoint tools (inside first (by simp))
    rw [forward]
    cases survives with
    | true =>
      constructor
      · intro _ checkpoint alone
        cases alone
      · intro _
        rfl
    | false =>
      constructor
      · intro same checkpoint alone
        cases alone
        exact same
      · intro same
        exact same first rfl
  · -- Two segments have checkpoints: the suffix holds one of them, which resets the replay.
    obtain ⟨last, lastIs⟩ : ∃ last, (second :: later).getLast? = some last :=
      ⟨_, getLast?_eq_some_getLast (by simp)⟩
    have lastMem : last ∈ second :: later := mem_of_getLast? lastIs
    have reset : last.1.newer.any isCheckpoint = true :=
      rel_of_pairwise_cons ordered (mem_map_of_mem lastMem)
    have forward := replayForward_checkpoint tools
      (inside last.1 (mem_map_of_mem (mem_cons_of_mem _ lastMem)))
    have newest : (map Prod.fst ((first, survives) :: second :: later)).getLast? = some last.1 := by
      rw [getLast?_map, getLast?_cons_cons, lastIs, map_some]
    rw [newest, forward]
    constructor
    · intro _ checkpoint alone
      cases alone
    · intro _
      exact replayItems_reset _ _ reset

theorem surviving_mem (surviving : survivingCheckpoint segments = some checkpoint) :
    ∃ segment ∈ segments, segment.survives = true ∧ segment.checkpoint = some checkpoint := by
  obtain ⟨segment, mem, found⟩ := exists_of_findSome?_eq_some surviving
  by_cases survives : segment.survives = true
  · rw [if_pos survives] at found
    exact ⟨segment, mem, survives, found⟩
  · rw [if_neg survives] at found
    cases found

/-- A surviving checkpoint is not the lone dropped one. -/
theorem checkpointed_ne_dropped {segment : ReplaySegment Json} {kept : Checkpoint Json}
    (mem : segment ∈ segments) (survives : segment.survives = true)
    (held : segment.checkpoint = some kept) (checkpoint : Checkpoint Json) :
    checkpointed segments ≠ [(checkpoint, false)] := by
  intro alone
  have listed : (kept, true) ∈ checkpointed segments := by
    refine mem_filterMap.mpr ⟨segment, mem, ?_⟩
    rw [held, survives]
    rfl
  rw [alone, mem_singleton] at listed
  cases listed

theorem close_active : grouping.close.active = none := by
  unfold Grouping.close
  split
  · assumption
  · rfl

/-- The history rebuilt from a rollout is the one that a forward replay gives, exactly if no
lone checkpoint segment is dropped by a rollback, or what follows its checkpoint replays on
an empty history as it does on the replacement history. -/
theorem reconstructed_history_iff (rolloutItems : List (RolloutItem Json)) :
    (reconstructHistoryFromRollout tools rolloutItems).history = replayForward tools rolloutItems ↔
      ∀ checkpoint, checkpointed (replaySegments tools rolloutItems) = [(checkpoint, false)] →
        checkpoint.replayedOn tools none =
          checkpoint.replayedOn tools (some checkpoint.replacement) := by
  obtain ⟨_, _, abstracts, located, ending⟩ := scan_abstracts tools rolloutItems
  have decided := replayed_iff tools (abstracts_finalize abstracts) located.close close_active
  rcases ending with rfl | ⟨found, extended⟩
  · exact decided
  · -- The scan ended early: a surviving segment has a checkpoint.
    rw [abstracts.base, isSome_map] at found
    obtain ⟨_, surviving⟩ := isSome_iff_exists.mp found
    obtain ⟨_, member, survives, held⟩ := surviving_mem surviving
    constructor
    · intro _ checkpoint alone
      refine absurd alone (checkpointed_ne_dropped ?_ survives held checkpoint)
      exact closed_close.mem (extended.mem member)
    · intro _
      refine decided.mpr fun checkpoint alone => ?_
      exact absurd alone (checkpointed_ne_dropped (closed_close.mem member) survives held checkpoint)

/-- No text is contextual, nothing is truncated. -/
def HistoryTools.plain : HistoryTools Unit where
  isContextualUserText _ := false
  isContextualDevText _ := false
  isInterAgentText _ := false
  isModelSwitchText _ := false
  truncateOutput output := output
  userMessage
    | [.inputText text] => some text
    | _ => none
  summaryPrefix := "Summary"
  approxTokenCount text := text.length
  truncateText text _ := text
  parseUuidV7 _ := none
  applyMergePatch _ state := state

def userEnvelope (text : String) : ResponseItemEnvelope Unit := { item := userText text none }

/-- A turn, a turn that compacts the history, and the rollback of that turn. -/
def compactedTurnRolledBack : List (RolloutItem Unit) :=
  [.eventMsg (.turnStarted "1"), .responseItem (userEnvelope "first"), .eventMsg (.turnComplete "1"),
    .eventMsg (.turnStarted "2"), .responseItem (userEnvelope "second"),
    .compacted
      { message := ""
        replacementHistory := some
          [userEnvelope "first", userEnvelope "second", userEnvelope "Summary\nof both"] },
    .eventMsg (.turnComplete "2"),
    .eventMsg (.threadRolledBack 1)]

/-- The forward replay keeps the turns before the summary; the rebuilt history is empty. -/
theorem droppedCheckpoint_loses_history : replayForward HistoryTools.plain compactedTurnRolledBack =
      [userEnvelope "first", userEnvelope "second"] ∧
    (reconstructHistoryFromRollout HistoryTools.plain compactedTurnRolledBack).history = [] := by
  decide

end WeaveCodex.Rollout
