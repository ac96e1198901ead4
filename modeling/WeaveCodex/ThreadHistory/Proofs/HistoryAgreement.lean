/-
Purpose: The messages of the user that the turns of a rollout show against those that are
  left in the history of the session. A rollback counts turns on one side and starts of
  turns in the history on the other, so they agree if the turns that go hold the messages
  that go. A compaction without a replacement history writes messages of its own into the
  history.
-/
import WeaveCodex.ThreadHistory.Proofs.ShownMessages

namespace WeaveCodex.ThreadHistory

open Rollout (HistoryTools ResponseItemEnvelope addsOnly isUserMessage userEnvelope userMessages)
open RolloutItem List RecordedTurn Bool

universe u

variable {Json : Type u} {tools : BuilderTools} {historyTools : HistoryTools Json}

/-! ### Messages in the history -/

theorem isUserMessage_processItem (item : Rollout.ResponseItem Json) :
    isUserMessage historyTools (Rollout.processItem historyTools item) =
      isUserMessage historyTools item := by
  cases item <;> rfl

/-- A message of the user is recorded as it is. -/
theorem recordedItems_userMessage {envelope : ResponseItemEnvelope Json}
    (message : isUserMessage historyTools envelope.item = true) :
    Rollout.recordedItems historyTools (.responseItem envelope) = [envelope] := by
  rcases envelope with ⟨item, _⟩
  cases item with
  | message =>
    rw [isUserMessage, and_eq_true, decide_eq_true_eq] at message
    rw [Rollout.recordedItems, Rollout.isApiMessage, message.1]
    rfl
  | _ => cases message

/-- What an item adds to the messages of the user in the history. -/
theorem userMessages_recordedItems (item : RolloutItem Json) :
    userMessages historyTools (Rollout.recordedItems historyTools item.toRollout) =
      (item.messageItem historyTools).toList := by
  cases item with
  | responseItem =>
    rw [toRollout, messageItem]
    split
    · rename_i message
      rw [recordedItems_userMessage message]
      simp [userMessages, message]
    · rename_i other
      rw [Rollout.recordedItems]
      split
      · rw [userMessages, filter_cons_of_neg]
        · rfl
        · rw [isUserMessage_processItem]
          exact other
      · rfl
  | _ => rfl

/-- Among the starts of turns in the history are the messages of the user. -/
theorem userMessages_historyBoundaries (items : List (RolloutItem Json)) :
    userMessages historyTools (historyBoundaries historyTools items) =
      messageItems historyTools items := by
  rw [historyBoundaries, Rollout.userMessages_boundaries, userMessages, filter_flatMap, flatMap_map,
    messageItems, filterMap_eq_flatMap_toList]
  exact flatMap_congr fun item _ => userMessages_recordedItems item

theorem messageItems_append (first second : List (RolloutItem Json)) :
    messageItems historyTools (first ++ second) =
      messageItems historyTools first ++ messageItems historyTools second :=
  filterMap_append

theorem messageItems_outside {items : List (RolloutItem Json)}
    (outside : ∀ item ∈ items, item.standsOutside tools historyTools = true) :
    messageItems historyTools items = [] := by
  rw [messageItems, filterMap_eq_nil_iff]
  intro item mem
  have stands := outside item mem
  cases item with
  | responseItem =>
    rw [standsOutside, and_eq_true, not_eq_true'] at stands
    rw [messageItem, stands.1]
    rfl
  | _ => rfl

theorem messageItems_turn {turn : RecordedTurn Json}
    (before : ∀ item ∈ turn.before, item.standsOutside tools historyTools = true) :
    messageItems historyTools turn.items = messageItems historyTools turn.body := by
  rw [items, messageItems_append, messageItems_append, messageItems_outside before]
  change messageItems historyTools turn.body ++ [] = _
  rw [append_nil]

variable {Records : UserMessageEvent → ResponseItemEnvelope Json → Prop}
  {turns : List (RecordedTurn Json)} {after : List (RolloutItem Json)}
  (recorded : Recorded tools historyTools Records turns after)

include recorded in
theorem messageItems_recordedItems : messageItems historyTools (recordedItems turns after) =
    turns.flatMap fun turn => messageItems historyTools turn.body := by
  rw [recordedItems, messageItems_append, messageItems_outside recorded.after, append_nil,
    messageItems, filterMap_flatMap]
  exact flatMap_congr fun turn mem => messageItems_turn (recorded.before turn mem)

/-! ### Rollouts without compactions -/

theorem addsOnly_of_standsInTurn {item : RolloutItem Json} (stands : item.standsInTurn = true) :
    addsOnly item.toRollout = true := by
  cases item with
  | eventMsg event => cases event <;> first | rfl | cases stands
  | compacted => cases stands
  | _ => rfl

theorem standsInTurn_of_standsOutside {item : RolloutItem Json}
    (stands : item.standsOutside tools historyTools = true) : item.standsInTurn = true := by
  cases item with
  | eventMsg event => cases event <;> first | rfl | cases stands
  | compacted => cases stands
  | _ => rfl

include recorded in
theorem addsOnly_recordedItems : ∀ item ∈ (recordedItems turns after).map toRollout,
    addsOnly item = true := by
  intro item mem
  obtain ⟨source, listed, rfl⟩ := mem_map.mp mem
  rcases mem_append.mp listed with inTurns | isAfter
  · obtain ⟨turn, turnMem, inItems⟩ := mem_flatMap.mp inTurns
    obtain ⟨earlier, later, split⟩ := append_of_mem turnMem
    rw [items, mem_append, mem_append, mem_cons] at inItems
    rcases inItems with (isBefore | rfl | inBody) | isLast
    · exact addsOnly_of_standsInTurn
        (standsInTurn_of_standsOutside (recorded.before turn turnMem source isBefore))
    · rfl
    · exact addsOnly_of_standsInTurn (recorded.body earlier turn later split source inBody).stands
    · rw [mem_singleton.mp isLast]
      rfl
  · exact addsOnly_of_standsInTurn (standsInTurn_of_standsOutside (recorded.after source isAfter))

theorem isCheckpoint_of_addsOnly {item : Rollout.RolloutItem Json}
    (adds : addsOnly item = true) : Rollout.isCheckpoint item = false := by
  cases item with
  | compacted => cases adds
  | _ => rfl

theorem toRollout_rollbackMarkers (markers : List UInt32) :
    (rollbackMarkers markers : List (RolloutItem Json)).map toRollout = Rollout.rollbacks markers := by
  rw [rollbackMarkers, map_map]
  rfl

/-- The history that the session rebuilds of a rollout. -/
def rebuiltHistory (historyTools : HistoryTools Json) (items : List (RolloutItem Json)) :
    List (ResponseItemEnvelope Json) :=
  (Rollout.reconstructHistoryFromRollout historyTools (items.map RolloutItem.toRollout)).history

include recorded in
/-- The messages of the user that are left in the history. -/
theorem userMessages_rebuiltHistory (markers : List UInt32) : userMessages historyTools
      (rebuiltHistory historyTools (recordedItems turns after ++ rollbackMarkers markers)) =
    let starts := historyBoundaries historyTools (recordedItems turns after)
    userMessages historyTools (starts.take (starts.length - (markers.map UInt32.toNat).sum)) := by
  have add := addsOnly_recordedItems recorded
  have replayed := Rollout.items_replayItems historyTools {} add
  rw [nil_append] at replayed
  rw [rebuiltHistory, map_append, toRollout_rollbackMarkers,
    Rollout.history_eq_replayForward, ← Rollout.userMessages_boundaries, Rollout.replayForward,
    Rollout.replayItems_append, Rollout.boundaries_replayItems_rollbacks, replayed]
  · rfl
  · refine forall_mem_append.mpr ⟨fun item mem => isCheckpoint_of_addsOnly (add item mem), ?_⟩
    exact forall_mem_map.mpr fun _ _ => rfl

/-! ### Agreement -/

/-- The messages of the turns, in their order. -/
def eventsOf (turns : List (RecordedTurn Json)) : List UserMessageEvent :=
  turns.flatMap fun turn => messageEvents turn.body

theorem flatMap_shown (turns : List (RecordedTurn Json)) :
    turns.flatMap shown = (eventsOf turns).map UserMessageEvent.shown := by
  rw [eventsOf, map_flatMap]
  rfl

theorem eventsOf_split (turns : List (RecordedTurn Json)) (count : Nat) :
    eventsOf turns = eventsOf (turns.take count) ++ eventsOf (turns.drop count) := by
  rw [eventsOf, eventsOf, eventsOf, ← flatMap_append, take_append_drop]

include recorded in
/-- All messages are recorded as events and as response items, in one order. -/
theorem forall₂_messages : List.Forall₂ Records (eventsOf turns) (userMessages historyTools
    (historyBoundaries historyTools (recordedItems turns after))) := by
  rw [userMessages_historyBoundaries, messageItems_recordedItems recorded]
  have messages := recorded.messages
  clear recorded
  induction turns with
  | nil => exact .nil
  | cons _ _ ih =>
    obtain ⟨turnMessages, restMessages⟩ := forall_mem_cons.mp messages
    rw [eventsOf, flatMap_cons, flatMap_cons]
    exact rel_append turnMessages (ih restMessages)

theorem userMessages_split (starts : List (ResponseItemEnvelope Json)) (count : Nat) :
    userMessages historyTools starts = userMessages historyTools (starts.take count) ++
        userMessages historyTools (starts.drop count) := by
  rw [userMessages, userMessages, userMessages, ← filter_append, take_append_drop]

theorem forall₂_left {α β : Type*} {related : α → β → Prop} {first firstRest : List α}
    {second secondRest : List β}
    (whole : List.Forall₂ related (first ++ firstRest) (second ++ secondRest))
    (same : firstRest.length = secondRest.length) : List.Forall₂ related first second := by
  have lengths := whole.length_eq
  rw [length_append, length_append, same, Nat.add_right_cancel_iff] at lengths
  have left := forall₂_take_append _ second secondRest whole
  rw [← lengths, take_left] at left
  exact left

/-- The message is recorded by the response item, and shown as it is. -/
def ShownAs (Records : UserMessageEvent → ResponseItemEnvelope Json → Prop)
    (shown : ShownMessage) (left : ResponseItemEnvelope Json) : Prop :=
  ∃ payload, Records payload left ∧ payload.shown = shown

/-- The messages of the user that the turns show are those that are left in the history, if
the rollbacks take away the same messages on both sides. -/
theorem shown_correspond (tools : BuilderTools) (historyTools : HistoryTools Json)
    (Records : UserMessageEvent → ResponseItemEnvelope Json → Prop)
    (turns : List (RecordedTurn Json)) (after : List (RolloutItem Json)) (markers : List UInt32)
    (recorded : Recorded tools historyTools Records turns after)
    (agree : RollbacksAgree historyTools turns after markers) :
    List.Forall₂ (ShownAs Records) (shownUserMessages (buildTurnsFromRolloutItems tools
        (recordedItems turns after ++ rollbackMarkers markers)))
      (userMessages historyTools
        (rebuiltHistory historyTools (recordedItems turns after ++ rollbackMarkers markers))) := by
  rw [shownUserMessages_buildTurns recorded, userMessages_rebuiltHistory recorded, flatMap_shown,
    forall₂_map_left_iff]
  have messages := forall₂_messages recorded
  rw [eventsOf_split turns (turns.length - (markers.map UInt32.toNat).sum),
    userMessages_split _ ((historyBoundaries historyTools (recordedItems turns after)).length -
      (markers.map UInt32.toNat).sum)] at messages
  apply (forall₂_left messages agree).imp
  intro payload left records
  exact ⟨payload, records, rfl⟩

/-! ### A thread with a rollback -/

/-- The response item holds the text of the message. -/
def HoldsText (payload : UserMessageEvent) (envelope : ResponseItemEnvelope Unit) : Prop :=
  envelope = userEnvelope payload.message

/-- A message of the user, recorded as an event and as a response item. -/
def recordedMessage (text : String) : List (RolloutItem Unit) :=
  [.responseItem (userEnvelope text), .eventMsg (.userMessage { message := text })]

def twoTurns : List (RecordedTurn Unit) :=
  [{ turnId := "turn-1", body := recordedMessage "first" ++ [.eventMsg (.agentReasoning "so")] },
    { turnId := "turn-2", body := recordedMessage "second" }]

theorem recorded_twoTurns :
    Recorded BuilderTools.plain HistoryTools.plain HoldsText twoTurns [] := by
  refine ⟨?_, ?_, ?_, ?_⟩
  · decide
  · decide
  · intro earlier turn later split item mem
    have listed : turn ∈ twoTurns := split ▸ mem_append_right _ mem_cons_self
    have plain : ∀ turn ∈ twoTurns, ∀ item ∈ turn.body,
        item.standsInTurn = true ∧ item.givenIds = [] ∧ item.reviewedTurnIds = [] := by
      decide
    obtain ⟨stands, given, reviewed⟩ := plain turn listed item mem
    refine ⟨stands, ?_, ?_⟩
    · rw [given]
      exact fun _ never => nomatch never
    · rw [reviewed]
      exact fun _ never => nomatch never
  · refine forall_mem_cons.mpr ⟨?_, forall_mem_singleton.mpr ?_⟩
    · exact .cons rfl .nil
    · exact .cons rfl .nil

/-- The rollback takes the second message from both views. -/
theorem twoTurns_correspond : List.Forall₂ (ShownAs HoldsText)
    (shownUserMessages (buildTurnsFromRolloutItems BuilderTools.plain
      (recordedItems twoTurns [] ++ rollbackMarkers [1])))
    (userMessages HistoryTools.plain (rebuiltHistory HistoryTools.plain
      (recordedItems twoTurns [] ++ rollbackMarkers [1]))) :=
  shown_correspond BuilderTools.plain HistoryTools.plain HoldsText twoTurns [] [1]
    recorded_twoTurns (by unfold RollbacksAgree; decide)

/-! ### Steered turns and compactions -/

/-- One turn with two messages, rolled back. -/
def steeredTurn : List (RolloutItem Unit) :=
  recordedItems
    [{ turnId := "turn-1", body := recordedMessage "first" ++ recordedMessage "second" }] [] ++
    rollbackMarkers [1]

/-- A turn with a message, and a turn that only compacts the history. -/
def compactedThread : List (RolloutItem Unit) :=
  recordedItems [{ turnId := "turn-1", body := recordedMessage "first" },
      { turnId := "turn-2", body := [.compacted { message := "", replacementHistory := none }] }] []

/-- The rollback takes the steered turn from the view, but only its second message from the
history. The compaction leaves a message in the history that nobody wrote. -/
theorem steeredAndCompacted_differ :
    (shownUserMessages (buildTurnsFromRolloutItems BuilderTools.plain steeredTurn) = [] ∧
      userMessages HistoryTools.plain
        (rebuiltHistory HistoryTools.plain steeredTurn) = [userEnvelope "first"]) ∧
    (shownUserMessages (buildTurnsFromRolloutItems BuilderTools.plain compactedThread) =
        [(none, [.text "first" []])] ∧
      userMessages HistoryTools.plain
        (rebuiltHistory HistoryTools.plain compactedThread) =
          [userEnvelope "first", userEnvelope "(no summary available)"]) := by
  decide +kernel

/-! ### The condition is needed -/

include recorded in
/-- Nor do they correspond otherwise: already their numbers differ. -/
theorem rollbacksAgree_of_correspond {markers : List UInt32}
    (correspond : List.Forall₂ (ShownAs Records) (shownUserMessages (buildTurnsFromRolloutItems tools
        (recordedItems turns after ++ rollbackMarkers markers)))
      (userMessages historyTools
        (rebuiltHistory historyTools (recordedItems turns after ++ rollbackMarkers markers)))) :
    RollbacksAgree historyTools turns after markers := by
  have kept := correspond.length_eq
  rw [shownUserMessages_buildTurns recorded, userMessages_rebuiltHistory recorded, flatMap_shown,
    length_map] at kept
  have all := (forall₂_messages recorded).length_eq
  rw [eventsOf_split turns (turns.length - (markers.map UInt32.toNat).sum),
    userMessages_split _ ((historyBoundaries historyTools (recordedItems turns after)).length -
      (markers.map UInt32.toNat).sum), length_append, length_append, kept] at all
  exact Nat.add_left_cancel all

/-- The views correspond after the rollback, so it took one message on either side. -/
theorem twoTurns_agree : RollbacksAgree HistoryTools.plain twoTurns [] [1] :=
  rollbacksAgree_of_correspond recorded_twoTurns (.cons ⟨{ message := "first" }, rfl, rfl⟩ .nil)

end WeaveCodex.ThreadHistory
