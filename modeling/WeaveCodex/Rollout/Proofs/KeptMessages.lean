/-
Purpose: The turn boundaries that rollbacks leave in a history: all but the last ones, as
  many as the rollbacks count. Without a checkpoint the rebuilt history is the replay of
  the whole rollout, so this holds of it too.
-/
import WeaveCodex.Rollout.Proofs.ReconstructedHistory

namespace WeaveCodex.Rollout

open ContextManager List Replay Bool

universe u

variable {Json : Type u} {tools : HistoryTools Json}

/-! ### Rollouts without a checkpoint -/

/-- Without a replacement history the whole rollout is replayed. -/
theorem history_eq_replayForward {rolloutItems : List (RolloutItem Json)}
    (noCheckpoint : ∀ item ∈ rolloutItems, isCheckpoint item = false) :
    (reconstructHistoryFromRollout tools rolloutItems).history = replayForward tools rolloutItems := by
  obtain ⟨reached, _, abstracts, located, _⟩ := scan_abstracts tools rolloutItems
  apply (replayed_iff tools (abstracts_finalize abstracts) located.close close_active).mpr
  intro checkpoint alone
  have listed : checkpoint ∈ reached.close.checkpoints := by
    rw [Grouping.checkpoints, mem_append, ← map_fst_checkpointed, alone]
    exact .inl (mem_singleton.mpr rfl)
  obtain ⟨_, compacted, whole, found⟩ := located.close.located checkpoint listed
  have marked : isCheckpoint (.compacted compacted) = true :=
    isCheckpoint_iff.mpr ⟨compacted, checkpoint.replacement, rfl, found⟩
  have unmarked := noCheckpoint (.compacted compacted) (by rw [whole]; simp)
  rw [marked] at unmarked
  cases unmarked

/-! ### Boundaries -/

/-- The items of a history at which a turn starts. -/
def boundaries (tools : HistoryTools Json) (items : List (ResponseItemEnvelope Json)) :
    List (ResponseItemEnvelope Json) :=
  items.filter fun envelope => isUserTurnBoundary tools envelope.item

theorem boundaries_append (first second : List (ResponseItemEnvelope Json)) :
    boundaries tools (first ++ second) = boundaries tools first ++ boundaries tools second :=
  filter_append ..

variable {envelope : ResponseItemEnvelope Json} {count : Nat} {items : List (RolloutItem Json)}

theorem boundaries_cons_of_pos (boundary : isUserTurnBoundary tools envelope.item = true)
    (items : List (ResponseItemEnvelope Json)) :
    boundaries tools (envelope :: items) = envelope :: boundaries tools items := by
  simp [boundaries, boundary]

theorem boundaries_cons_of_neg (quiet : isUserTurnBoundary tools envelope.item = false)
    (items : List (ResponseItemEnvelope Json)) :
    boundaries tools (envelope :: items) = boundaries tools items := by
  simp [boundaries, quiet]

theorem length_userMessagePositions (tools : HistoryTools Json) (index : Nat)
    (items : List (ResponseItemEnvelope Json)) :
    (userMessagePositions tools index items).length = (boundaries tools items).length := by
  induction items generalizing index with
  | nil => rfl
  | cons _ _ ih =>
    rw [userMessagePositions]
    split
    · rename_i boundary
      rw [boundaries_cons_of_pos boundary, length_cons, length_cons, ih]
    · rename_i quiet
      rw [boundaries_cons_of_neg (not_eq_true _ ▸ quiet), ih]

/-- Before the position of a boundary stand the boundaries before it. -/
theorem boundaries_take_position {items : List (ResponseItemEnvelope Json)} {index : Nat}
    {position : Nat}
    (found : (userMessagePositions tools index items)[count]? = some position) :
    index ≤ position ∧
      boundaries tools (items.take (position - index)) = (boundaries tools items).take count := by
  induction items generalizing index count with
  | nil => cases found
  | cons envelope _ ih =>
    rw [userMessagePositions] at found
    by_cases boundary : isUserTurnBoundary tools envelope.item = true
    · rw [if_pos boundary] at found
      cases count with
      | zero =>
        cases Option.some.inj found
        simp [boundaries]
      | succ =>
        rw [getElem?_cons_succ] at found
        obtain ⟨_, kept⟩ := ih found
        refine ⟨by omega, ?_⟩
        have shift : position - index = position - (index + 1) + 1 := by omega
        rw [shift, take_succ_cons, boundaries_cons_of_pos boundary,
          boundaries_cons_of_pos boundary, take_succ_cons, kept]
    · rw [if_neg boundary] at found
      rw [not_eq_true] at boundary
      obtain ⟨_, kept⟩ := ih found
      refine ⟨by omega, ?_⟩
      have shift : position - index = position - (index + 1) + 1 := by omega
      rw [shift, take_succ_cons, boundaries_cons_of_neg boundary, boundaries_cons_of_neg boundary, kept]

/-- The cut moves only over messages that start no turn. -/
theorem boundaries_take_trim (manager : ContextManager Json)
    (snapshot : List (ResponseItemEnvelope Json)) (firstInstructionTurnIdx cutIdx : Nat) :
    boundaries tools (snapshot.take (manager.trimPreTurnContextUpdates tools snapshot
        firstInstructionTurnIdx cutIdx).2) =
      boundaries tools (snapshot.take cutIdx) := by
  induction cutIdx generalizing manager with
  | zero => rfl
  | succ cutIdx ih =>
    have skip (id : Option String) (role : String) (content : List ContentItem)
        (phase : Option String) (metadata : Option MessageMetadata)
        (here : (snapshot[cutIdx]?).map ResponseItemEnvelope.item =
          some (.message id role content phase metadata))
        (quiet : isUserTurnBoundary tools
          (.message id role content phase metadata : ResponseItem Json) = false) :
        boundaries tools (snapshot.take (cutIdx + 1)) = boundaries tools (snapshot.take cutIdx) := by
      obtain ⟨_, present, is⟩ := Option.map_eq_some_iff.mp here
      rw [take_add_one, present, boundaries_append, Option.toList_some]
      rw [← is] at quiet
      simp [boundaries, quiet]
    unfold trimPreTurnContextUpdates
    split
    · rfl
    · split
      · rename_i id role content phase metadata here
        split
        · rename_i developer
          rw [ih, skip id role content phase metadata here]
          simp [isUserTurnBoundary, developer.1]
        · split
          · rename_i contextual
            rw [ih, skip id role content phase metadata here]
            simp [isUserTurnBoundary, contextual.1, contextual.2]
          · rfl
      · rfl

/-- A developer message starts no turn, with or without its notes about a model. -/
theorem boundaries_withoutModelSwitch (firstTurnId : String) (envelope : ResponseItemEnvelope Json) :
    boundaries tools (withoutModelSwitch tools firstTurnId envelope).toList =
      boundaries tools [envelope] := by
  rcases envelope with ⟨_, _⟩
  unfold withoutModelSwitch
  split
  · rename_i is
    subst is
    split
    · rename_i developer
      dsimp only
      split <;> simp [boundaries, isUserTurnBoundary, developer.2]
    · rfl
  · rfl

theorem boundaries_filterMap_withoutModelSwitch (firstTurnId : String)
    (items : List (ResponseItemEnvelope Json)) :
    boundaries tools (items.filterMap (withoutModelSwitch tools firstTurnId)) =
      boundaries tools items := by
  rw [filterMap_eq_flatMap_toList]
  induction items with
  | nil => rfl
  | cons _ _ ih =>
    rw [flatMap_cons, boundaries_append, boundaries_withoutModelSwitch, ih, ← boundaries_append]
    rfl

/-- The position at which a rollback cuts is that of the first boundary that it drops. -/
theorem cut_position {positions : List Nat} {firstInstructionTurnIdx : Nat} {later : List Nat}
    (are : positions = firstInstructionTurnIdx :: later) (some_ : 0 < count) :
    positions[positions.length - count]? =
      some (if positions.length ≤ count then firstInstructionTurnIdx
        else positions.getD (positions.length - count) firstInstructionTurnIdx) := by
  split
  · rename_i all
    rw [Nat.sub_eq_zero_of_le all, are, getElem?_cons_zero]
  · have inside : positions.length - count < positions.length := by
      rw [are, length_cons]
      omega
    rw [getD_eq_getElem?_getD, getElem?_eq_getElem inside, Option.getD_some]

/-- A rollback drops the last boundaries, as many as it counts. -/
theorem boundaries_dropLastNUserTurns (tools : HistoryTools Json) (manager : ContextManager Json)
    (numTurns : UInt32) :
    boundaries tools (manager.dropLastNUserTurns tools numTurns).items =
      (boundaries tools manager.items).take
        ((boundaries tools manager.items).length - numTurns.toNat) := by
  have lengths := length_userMessagePositions tools 0 manager.items
  unfold dropLastNUserTurns
  split
  · rename_i nothing
    rw [nothing, UInt32.toNat_zero, Nat.sub_zero, take_length]
  · rename_i something
    have positive : 0 < numTurns.toNat := by
      apply Nat.pos_of_ne_zero
      intro zero
      exact something (UInt32.toNat_inj.mp zero)
    dsimp only
    cases are : userMessagePositions tools 0 manager.items with
    | nil =>
      rw [are, length_nil] at lengths
      have none := eq_nil_of_length_eq_zero lengths.symm
      rw [replaceAnnotated, none, take_nil]
    | cons firstInstructionTurnIdx later =>
      obtain ⟨_, kept⟩ := boundaries_take_position (cut_position are positive)
      rw [are, Nat.sub_zero] at kept
      rw [← lengths, are, ← kept]
      dsimp only [replaceAnnotated]
      generalize (if (firstInstructionTurnIdx :: later).length ≤ numTurns.toNat then
        firstInstructionTurnIdx else _) = cutIdx
      rw [← boundaries_take_trim manager manager.items firstInstructionTurnIdx]
      split
      · split
        · exact boundaries_filterMap_withoutModelSwitch _ _
        · rfl
      · rfl

/-! ### Messages of the user -/

/-- A message of the user, not one that only carries context. -/
def isUserMessage (tools : HistoryTools Json) : ResponseItem Json → Bool
  | .message _ role content _ _ => role = "user" && !isContextualUserMessageContent tools content
  | _ => false

/-- The messages of the user in a history. -/
def userMessages (tools : HistoryTools Json) (items : List (ResponseItemEnvelope Json)) :
    List (ResponseItemEnvelope Json) :=
  items.filter fun envelope => isUserMessage tools envelope.item

theorem isUserTurnBoundary_of_isUserMessage {item : ResponseItem Json}
    (message : isUserMessage tools item = true) : isUserTurnBoundary tools item = true := by
  cases item with
  | message =>
    rw [isUserTurnBoundary, or_eq_true]
    exact .inl message
  | agentMessage => rfl
  | _ => cases message

theorem userMessages_boundaries (items : List (ResponseItemEnvelope Json)) :
    userMessages tools (boundaries tools items) = userMessages tools items := by
  rw [userMessages, boundaries, filter_filter]
  apply filter_congr
  intro envelope _
  cases message : isUserMessage tools envelope.item with
  | true => rw [isUserTurnBoundary_of_isUserMessage message, Bool.and_self]
  | false => rw [Bool.false_and]

/-! ### Replays -/

/-- What an item adds to the history. -/
def recordedItems (tools : HistoryTools Json) : RolloutItem Json → List (ResponseItemEnvelope Json)
  | .responseItem envelope =>
    if isApiMessage envelope.item then
      [{ item := processItem tools envelope.item, metadata := envelope.metadata }]
    else []
  | .interAgentCommunication communication =>
    [{ item := communication.toModelInputItem }]
  | _ => []

/-- The item is neither a compaction nor a rollback. -/
def addsOnly : RolloutItem Json → Bool
  | .compacted _ | .eventMsg (.threadRolledBack _) => false
  | _ => true

theorem items_replayItem (replay : Replay Json) {item : RolloutItem Json}
    (adds : addsOnly item = true) :
    (replay.replayItem tools item).history.items =
      replay.history.items ++ recordedItems tools item := by
  cases item with
  | responseItem envelope =>
    rw [replayItem, recordedItems, recordItem]
    cases isApiMessage envelope.item with
    | true => rfl
    | false => exact (append_nil _).symm
  | interAgentCommunication => rfl
  | compacted => cases adds
  | eventMsg event =>
    cases event with
    | threadRolledBack => cases adds
    | _ => exact (append_nil _).symm
  | _ => exact (append_nil _).symm

theorem items_replayItems (tools : HistoryTools Json) (replay : Replay Json)
    (add : ∀ item ∈ items, addsOnly item = true) :
    (replay.replayItems tools items).history.items =
      replay.history.items ++ items.flatMap (recordedItems tools) := by
  induction items generalizing replay with
  | nil => exact (append_nil _).symm
  | cons _ _ ih =>
    obtain ⟨adds, restAdd⟩ := forall_mem_cons.mp add
    rw [replayItems, foldl_cons, ← replayItems, ih _ restAdd,
      items_replayItem replay adds, flatMap_cons, append_assoc]

/-- The markers of rollbacks. -/
def rollbacks (markers : List UInt32) : List (RolloutItem Json) :=
  markers.map fun numTurns => .eventMsg (.threadRolledBack numTurns)

theorem boundaries_replayItems_rollbacks (replay : Replay Json) (markers : List UInt32) :
    boundaries tools (replay.replayItems tools (rollbacks markers)).history.items =
      (boundaries tools replay.history.items).take
        ((boundaries tools replay.history.items).length - (markers.map UInt32.toNat).sum) := by
  induction markers generalizing replay with
  | nil =>
    rw [map_nil, sum_nil, Nat.sub_zero, take_length]
    rfl
  | cons numTurns _ ih =>
    have dropped := boundaries_dropLastNUserTurns tools replay.history numTurns
    rw [rollbacks, map_cons, ← rollbacks, replayItems, foldl_cons, ← replayItems, ih]
    change take _ (boundaries tools (replay.history.dropLastNUserTurns tools numTurns).items) = _
    rw [replayItem, dropped, length_take, take_take, map_cons, sum_cons]
    congr 1
    omega

end WeaveCodex.Rollout
