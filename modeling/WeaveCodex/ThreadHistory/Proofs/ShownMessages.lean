/-
Purpose: The messages of the user that the turns of a rollout show: an item inside a turn
  leaves them unless it is such a message, which comes last in its turn, and a rollback
  takes them away with the last turns.
-/
import WeaveCodex.ThreadHistory.Proofs.StepChanges

namespace WeaveCodex.ThreadHistory

open Library.KeyedList ThreadHistoryBuilder Turn ThreadItem UserMessageEvent List RolloutItem Nat

universe u

variable {Json : Type u}

/-! ### Items of the user -/

/-- The messages of the user in a turn, with their ids. -/
def Turn.userItems (turn : Turn Json) : List (ThreadItem Json) :=
  turn.items.filter ThreadItem.isUserItem

theorem userMessages_eq (turn : Turn Json) :
    turn.userMessages = turn.userItems.filterMap asUserMessage := by
  rw [userMessages, userItems, filterMap_filter]
  congr 1
  funext item
  rw [isUserItem]
  cases item.asUserMessage <;> rfl

variable {item : ThreadItem Json}

/-- An item that is no message of the user and takes the place of none. -/
theorem filter_upsertTurnItem {items : List (ThreadItem Json)} (notUser : item.isUserItem = false)
    (unclaimed : ∀ other ∈ items.filter isUserItem, other.id ≠ item.id) :
    (upsertTurnItem items item).filter isUserItem = items.filter isUserItem := by
  induction items with
  | nil => simp [upsertTurnItem, upsertBy, notUser]
  | cons first _ ih =>
    rw [upsertTurnItem, upsertBy]
    cases user : first.isUserItem with
    | true =>
      rw [filter_cons_of_pos user] at unclaimed ⊢
      obtain ⟨firstId, restIds⟩ := forall_mem_cons.mp unclaimed
      rw [if_neg firstId, filter_cons_of_pos user]
      exact congrArg (first :: ·) (ih restIds)
    | false =>
      have skipped : ¬first.isUserItem = true := by rw [user]; exact Bool.false_ne_true
      rw [filter_cons_of_neg skipped] at unclaimed ⊢
      split
      · rw [filter_cons_of_neg (by rw [notUser]; exact Bool.false_ne_true)]
      · rw [filter_cons_of_neg skipped]
        exact ih unclaimed

/-! ### Quiet steps -/

/-- A step that leaves the current turn open and the messages of the user as they are. -/
structure Quiet (before after : ThreadHistoryBuilder Json) : Prop where
  current : after.currentTurn.map (fun turn => (turn.id, turn.openedExplicitly)) =
    before.currentTurn.map fun turn => (turn.id, turn.openedExplicitly)
  shown : after.view.map (fun turn => (turn.id, turn.userItems)) =
    before.view.map fun turn => (turn.id, turn.userItems)
  numbering : before.nextItemIndex ≤ after.nextItemIndex

theorem Quiet.refl (builder : ThreadHistoryBuilder Json) : Quiet builder builder :=
  ⟨rfl, rfl, le_refl _⟩

theorem Quiet.trans {first second third : ThreadHistoryBuilder Json} (one : Quiet first second)
    (two : Quiet second third) : Quiet first third :=
  ⟨two.current.trans one.current, two.shown.trans one.shown, one.numbering.trans two.numbering⟩

variable {builder : ThreadHistoryBuilder Json} {tools : BuilderTools}

theorem quiet_nextItemId (builder : ThreadHistoryBuilder Json) : Quiet builder builder.nextItemId.2 :=
  ⟨rfl, rfl, le_succ _⟩

theorem quiet_advanceRolloutIndex (builder : ThreadHistoryBuilder Json) :
    Quiet builder builder.advanceRolloutIndex :=
  ⟨rfl, rfl, le_refl _⟩

variable {turn : PendingTurn Json} (current : builder.currentTurn = some turn)
include current

theorem quiet_setCurrentItems {items : List (ThreadItem Json)} (item : ThreadItem Json)
    (same : items.filter isUserItem = turn.userItems) :
    Quiet builder (builder.setCurrentItems turn items item) := by
  refine ⟨?_, ?_, le_refl _⟩
  · rw [current]
    rfl
  · rw [view_setCurrentItems, view_of_current current, map_append, map_append]
    exact congrArg (fun last => _ ++ [(turn.id, last)]) same

variable (notUser : item.isUserItem = false)

include notUser

theorem quiet_pushItemInCurrentTurn : Quiet builder (builder.pushItemInCurrentTurn tools item) := by
  rw [pushItemInCurrentTurn_of_current current]
  apply quiet_setCurrentItems current
  rw [filter_append, filter_cons_of_neg (by rw [notUser]; exact Bool.false_ne_true),
    filter_nil, append_nil]
  rfl

/-- No message of the user has the id. -/
def Unclaimed (builder : ThreadHistoryBuilder Json) (id : String) : Prop :=
  ∀ turn ∈ builder.view, ∀ item ∈ turn.userItems, item.id ≠ id

variable (free : Unclaimed builder item.id)

include free

theorem quiet_upsertItemInCurrentTurn : Quiet builder (builder.upsertItemInCurrentTurn tools item) := by
  have same : builder.upsertItemInCurrentTurn tools item =
      builder.setCurrentItems turn (upsertTurnItem turn.items item) item := by
    rw [upsertItemInCurrentTurn, ensureTurn, current]
  rw [same]
  apply quiet_setCurrentItems current
  apply filter_upsertTurnItem notUser
  exact free turn.toTurn (by rw [view_of_current current]; simp)

omit current

variable {turnId : String}

theorem quiet_upsertItemInFinishedTurn :
    Quiet builder (builder.upsertItemInFinishedTurn turnId item) := by
  rw [upsertItemInFinishedTurn]
  split
  · refine ⟨rfl, ?_, le_refl _⟩
    change (updateFirst Turn.id turnId (Turn.putItem item) builder.turns ++ _).map _ =
      (builder.turns ++ _).map _
    rw [map_append, map_append, map_updateFirst]
    · rfl
    · intro turn mem
      have mine := free turn (mem_append_left _ mem)
      exact congrArg (Prod.mk turn.id) (filter_upsertTurnItem notUser mine)
  · exact .refl builder

theorem quiet_upsertItemInTurnId : Quiet builder (builder.upsertItemInTurnId turnId item) := by
  rw [upsertItemInTurnId]
  split
  · rename_i turn current
    split
    · apply quiet_setCurrentItems current
      apply filter_upsertTurnItem notUser
      exact free turn.toTurn (by rw [view_of_current current]; simp)
    · exact quiet_upsertItemInFinishedTurn notUser free
  · exact quiet_upsertItemInFinishedTurn notUser free

include current

omit notUser free

theorem quiet_amendCurrentTurn {change : Turn Json → Turn Json} (onlyMetadata : OnlyMetadata change) :
    Quiet builder (builder.amendCurrentTurn turn change) := by
  obtain ⟨sameId, sameItems⟩ := onlyMetadata turn.toTurn
  refine ⟨?_, ?_, le_refl _⟩
  · rw [current]
    exact congrArg (fun id => some (id, turn.openedExplicitly)) sameId
  · rw [view_of_current current]
    change (builder.turns ++ [change turn.toTurn]).map _ = _
    rw [map_append, map_append]
    simp only [map_cons, map_nil, userItems, sameId, sameItems]

omit current

theorem quiet_amendFinishedTurn (turn : Turn Json) {change : Turn Json → Turn Json}
    (onlyMetadata : OnlyMetadata change) :
    Quiet builder (builder.amendFinishedTurn turn change) := by
  refine ⟨rfl, ?_, le_refl _⟩
  change (updateFirst Turn.id turn.id change builder.turns ++ _).map _ = (builder.turns ++ _).map _
  rw [map_append, map_append, map_updateFirst]
  · rfl
  · intro other _
    obtain ⟨sameId, sameItems⟩ := onlyMetadata other
    simp only [userItems, sameId, sameItems]

/-! ### Items inside a turn -/

/-- The builder has numbered the messages of the user itself. -/
def Numbered (builder : ThreadHistoryBuilder Json) : Prop :=
  ∀ turn ∈ builder.view, ∀ item ∈ turn.userItems,
    ∃ index < builder.nextItemIndex, item.id = "item-" ++ toString index

theorem Numbered.unclaimed (numbered : Numbered builder) {id : String}
    (given : ∀ index : Nat, id ≠ "item-" ++ toString index) : Unclaimed builder id := by
  intro turn mem item listed same
  obtain ⟨index, _, named⟩ := numbered turn mem item listed
  exact given index (same.symm.trans named)

theorem itemId_injective {first second : Nat}
    (same : "item-" ++ toString first = "item-" ++ toString second) : first = second := by
  have numbers := (String.append_right_inj _).mp same
  rw [toString_eq_ofList_toDigits, toString_eq_ofList_toDigits, String.ofList_inj] at numbers
  rw [← @ofDigitChars_ten_toDigits first, numbers, ofDigitChars_ten_toDigits]

variable {after : ThreadHistoryBuilder Json}

theorem Numbered.of_quiet (numbered : Numbered builder) (quiet : Quiet builder after) :
    Numbered after := by
  intro turn mem item listed
  have shown : (turn.id, turn.userItems) ∈ after.view.map fun turn => (turn.id, turn.userItems) :=
    mem_map_of_mem mem
  rw [quiet.shown] at shown
  obtain ⟨old, oldMem, same⟩ := mem_map.mp shown
  rw [← (Prod.mk.inj same).2] at listed
  obtain ⟨index, below, named⟩ := numbered old oldMem item listed
  exact ⟨index, lt_of_lt_of_le below quiet.numbering, named⟩

/-- A review that names a turn that is there opens none. -/
theorem openedForReview_of_mem (known : turnId ∈ builder.view.map Turn.id) :
    builder.openedForReview tools turnId = builder := by
  rw [openedForReview, if_neg]
  intro lacks
  exact lacksTurn_iff.mp lacks known

theorem isUserItem_extendReasoning {isSummary : Bool} {text : String}
    {item extended : ThreadItem Json} (extends_ : item.extendReasoning isSummary text = some extended) :
    item.isUserItem = false ∧ extended.isUserItem = false := by
  cases item with
  | reasoning =>
    cases isSummary <;> cases extends_ <;> exact ⟨rfl, rfl⟩
  | _ => cases extends_

variable {source item : RolloutItem Json} {last : List ShownMessage} {turns : List (RecordedTurn Json)}
  {prepare step : Handler Json} (notMessage : source.messageEvent = none)

include notMessage

theorem prepared_unchanged (prepared : Preparation source prepare) :
    Quiet builder (prepare builder) ∧ (prepare builder).currentTurn = builder.currentTurn ∧
      (prepare builder).view = builder.view := by
  cases prepared with
  | none => exact ⟨.refl builder, rfl, rfl⟩
  | numbered => exact ⟨quiet_nextItemId builder, rfl, rfl⟩
  | closed message => exact absurd notMessage message

variable (numbered : Numbered builder) (inTurn : InTurn (builder.view.map Turn.id) source)

include numbered inTurn current

/-- Inside a turn only a message of the user changes what the turns show of the user. -/
theorem quiet_step (taken : Step tools builder source step) : Quiet builder (step builder) := by
  obtain ⟨stands, given, reviewed⟩ := inTurn
  have unclaimed {item : ThreadItem Json} (named : Named builder source item) :
      Unclaimed builder item.id := by
    rcases named.2 with isGiven | is
    · exact numbered.unclaimed (given item.id isGiven)
    · intro turn mem other listed same
      obtain ⟨_, _, named⟩ := numbered turn mem other listed
      have equal := itemId_injective ((is.symm.trans same.symm).trans named)
      omega
  cases taken with
  | kept => exact .refl builder
  | pushed prepared _ notUser =>
    obtain ⟨quiet, sameCurrent, _⟩ := prepared_unchanged notMessage prepared
    exact quiet.trans (quiet_pushItemInCurrentTurn (sameCurrent.trans current) (notUser notMessage))
  | upserted prepared named =>
    obtain ⟨quiet, sameCurrent, sameView⟩ := prepared_unchanged notMessage prepared
    refine quiet.trans (quiet_upsertItemInCurrentTurn (sameCurrent.trans current) named.1 ?_)
    rw [Unclaimed, sameView]
    exact unclaimed named
  | upsertedIn turnId named => exact quiet_upsertItemInTurnId named.1 (unclaimed named)
  | reviewed prepared reviews named =>
    obtain ⟨quiet, _, sameView⟩ := prepared_unchanged notMessage prepared
    dsimp only
    rw [openedForReview_of_mem (by rw [sameView]; exact reviewed _ reviews)]
    refine quiet.trans (quiet_upsertItemInTurnId named.1 ?_)
    rw [Unclaimed, sameView]
    exact unclaimed named
  | @extended turn last _ _ _ current isLast extends_ =>
    obtain ⟨lastNotUser, itemNotUser⟩ := isUserItem_extendReasoning extends_
    apply quiet_setCurrentItems current
    rw [userItems, ← dropLast_append_getLast? last isLast, dropLast_concat, filter_append,
      filter_append]
    simp [lastNotUser, itemNotUser]
  | amended current onlyMetadata => exact quiet_amendCurrentTurn current onlyMetadata
  | amendedFinished _ onlyMetadata => exact quiet_amendFinishedTurn _ onlyMetadata
  | completed outside | started outside | compacted outside | rolledBack outside =>
    cases stands.symm.trans outside

theorem quiet_handleRolloutItem : Quiet builder (builder.handleRolloutItem tools source) := by
  obtain ⟨_, taken, same⟩ := takesStep_handleItem tools builder.advanceRolloutIndex source
  rw [show builder.handleRolloutItem tools source = _ from same _]
  have advancedCurrent : builder.advanceRolloutIndex.currentTurn = some turn := current
  apply (quiet_advanceRolloutIndex builder).trans
  exact quiet_step advancedCurrent notMessage numbered inTurn taken

omit notMessage numbered inTurn current

/-! ### Turns -/

/-- The turns that the builder shows, by their ids and the messages of the user. -/
structure Shows (builder : ThreadHistoryBuilder Json) (turnIds : List String)
    (messages : List (List ShownMessage)) : Prop where
  turnIds : builder.view.map Turn.id = turnIds
  messages : builder.view.map Turn.userMessages = messages
  numbered : Numbered builder

variable {turnIds : List String} {messages : List (List ShownMessage)}

theorem Shows.of_quiet (shows_ : Shows builder turnIds messages) (quiet : Quiet builder after) :
    Shows after turnIds messages := by
  obtain ⟨ids, shown, numbered⟩ := shows_
  refine ⟨?_, ?_, numbered.of_quiet quiet⟩
  · have first := congrArg (map Prod.fst) quiet.shown
    rw [map_map, map_map] at first
    exact first.trans ids
  · have second := congrArg (map fun shown => shown.2.filterMap asUserMessage) quiet.shown
    rw [map_map, map_map] at second
    simp only [← shown, map_congr_left fun turn _ => userMessages_eq turn]
    exact second

/-- The last turn that the builder shows is open, and was started. -/
def Started (builder : ThreadHistoryBuilder Json) (turnId : String) : Prop :=
  ∃ turn, builder.currentTurn = some turn ∧ turn.id = turnId ∧ turn.openedExplicitly = true

theorem Started.of_quiet (started : Started builder turnId) (quiet : Quiet builder after) :
    Started after turnId := by
  obtain ⟨_, current, named, explicit⟩ := started
  have same := quiet.current
  rw [current, Option.map_some] at same
  obtain ⟨later, laterCurrent, equal⟩ := Option.map_eq_some_iff.mp same
  obtain ⟨sameId, sameExplicit⟩ := Prod.mk.inj equal
  exact ⟨later, laterCurrent, sameId.trans named, sameExplicit.trans explicit⟩

/-- A message in a turn that was started stays in the turn. -/
theorem handleUserMessage_of_started (current : builder.currentTurn = some turn)
    (explicit : turn.openedExplicitly = true) (payload : UserMessageEvent) :
    builder.handleUserMessage tools payload = builder.nextItemId.2.setCurrentItems turn
        (turn.items ++ [.userMessage builder.nextItemId.1 payload.clientId (buildUserInputs payload)])
        (.userMessage builder.nextItemId.1 payload.clientId (buildUserInputs payload)) := by
  have open_ : builder.closedForUserMessage = builder := by
    rw [closedForUserMessage, current]
    dsimp only
    rw [if_neg]
    simp [closesForUserMessage, explicit]
  have numberedCurrent : builder.nextItemId.2.currentTurn = some turn := current
  rw [handleUserMessage_eq, open_, pushItemInCurrentTurn_of_current numberedCurrent]

/-- A message of the user comes last in the turn that is open. -/
theorem shows_message (started : Started builder turnId)
    (shows_ : Shows builder turnIds (messages ++ [last])) (payload : UserMessageEvent) :
    Started (builder.handleUserMessage tools payload) turnId ∧
      Shows (builder.handleUserMessage tools payload) turnIds
        (messages ++ [last ++ [payload.shown]]) := by
  obtain ⟨turn, current, named, explicit⟩ := started
  obtain ⟨ids, shown, numbered⟩ := shows_
  rw [handleUserMessage_of_started current explicit]
  refine ⟨⟨_, rfl, named, explicit⟩, ?_, ?_, ?_⟩
  · rw [view_setCurrentItems, ← ids, view_of_current current, map_append, map_append]
    rfl
  · rw [view_of_current current, map_append, map_singleton] at shown
    obtain ⟨earlier, lastIs⟩ := append_inj' shown rfl
    rw [view_setCurrentItems, map_append, map_singleton]
    change builder.turns.map userMessages ++ _ = _
    rw [earlier, ← singleton_inj.mp lastIs, userMessages, filterMap_append]
    rfl
  · intro shownTurn mem item listed
    rw [view_setCurrentItems] at mem
    rcases mem_append.mp mem with earlier | isLast
    · obtain ⟨index, below, isNamed⟩ := numbered shownTurn
        (by rw [view_of_current current]; exact mem_append_left _ earlier) item listed
      exact ⟨index, lt_succ_of_lt below, isNamed⟩
    · rw [mem_singleton.mp isLast, userItems, filter_append] at listed
      rcases mem_append.mp listed with old | new
      · obtain ⟨index, below, isNamed⟩ := numbered turn.toTurn
          (by rw [view_of_current current]; simp) item old
        exact ⟨index, lt_succ_of_lt below, isNamed⟩
      · have is := mem_singleton.mp (mem_of_mem_filter new)
        exact ⟨builder.nextItemIndex, lt_succ_self _, by rw [is]; rfl⟩

theorem messageEvent_eq_some {payload : UserMessageEvent} (event : item.messageEvent = some payload) :
    item = .eventMsg (.userMessage payload) := by
  unfold messageEvent at event
  split at event
  · cases event
    rfl
  · cases event

/-- The items of a turn add its messages of the user, in their order. -/
theorem shows_body (tools : BuilderTools) (started : Started builder turnId)
    (shows_ : Shows builder turnIds (messages ++ [last])) {body : List (RolloutItem Json)}
    (inTurn : ∀ item ∈ body, InTurn turnIds item) :
    Started (builder.handleRolloutItems tools body) turnId ∧
      Shows (builder.handleRolloutItems tools body) turnIds
        (messages ++ [last ++ (messageEvents body).map shown]) := by
  induction body generalizing builder last with
  | nil =>
    refine ⟨started, ?_⟩
    rw [messageEvents, filterMap_nil, map_nil, append_nil]
    exact shows_
  | cons item body ih =>
    obtain ⟨itemIn, restIn⟩ := forall_mem_cons.mp inTurn
    have stepped : Started (builder.handleRolloutItem tools item) turnId ∧
        Shows (builder.handleRolloutItem tools item) turnIds
          (messages ++ [last ++ item.messageEvent.toList.map shown]) := by
      cases event : item.messageEvent with
      | none =>
        have ⟨turn, current, _⟩ := started
        rw [← shows_.turnIds] at itemIn
        have quiet : Quiet builder (builder.handleRolloutItem tools item) :=
          quiet_handleRolloutItem current event shows_.numbered itemIn
        rw [Option.toList_none, map_nil, append_nil]
        exact ⟨started.of_quiet quiet, shows_.of_quiet quiet⟩
      | some payload =>
        rw [messageEvent_eq_some event]
        have advanced := quiet_advanceRolloutIndex builder
        exact shows_message (started.of_quiet advanced) (shows_.of_quiet advanced) payload
    obtain ⟨nowStarted, nowShows⟩ := stepped
    have split : messageEvents (item :: body) = item.messageEvent.toList ++ messageEvents body := by
      rw [messageEvents, filterMap_cons]
      cases item.messageEvent <;> rfl
    rw [split, map_append, ← append_assoc]
    exact ih nowStarted nowShows restIn

/-! ### Rollouts -/

theorem Shows.of_view (shows_ : Shows builder turnIds messages)
    (sameView : after.view = builder.view) (sameIndex : after.nextItemIndex = builder.nextItemIndex) :
    Shows after turnIds messages := by
  obtain ⟨ids, shown, numbered⟩ := shows_
  refine ⟨sameView ▸ ids, sameView ▸ shown, ?_⟩
  rw [Numbered, sameView, sameIndex]
  exact numbered

variable {historyTools : Rollout.HistoryTools Json}

/-- An item outside of turns only counts. -/
theorem handleRolloutItem_outside (outside : item.standsOutside tools historyTools = true) :
    builder.handleRolloutItem tools item = builder.advanceRolloutIndex := by
  cases item with
  | eventMsg event => cases event <;> first | rfl | cases outside
  | compacted => cases outside
  | responseItem envelope =>
    rcases envelope with ⟨item, metadata⟩
    cases item with
    | message id role content phase metadata =>
      rw [standsOutside, Bool.and_eq_true] at outside
      change builder.advanceRolloutIndex.handleResponseItem tools
        (.message id role content phase metadata) = _
      rw [handleResponseItem]
      split
      · rfl
      · rename_i user
        rw [ne_eq, not_not] at user
        have notPrompt := outside.2
        simp only [isHookPrompt, user, decide_true, Bool.true_and, ne_eq, decide_not,
          Bool.not_not, decide_eq_true_eq] at notPrompt
        have unparsed : (parseHookPromptMessage tools
            builder.advanceRolloutIndex.currentRolloutIndex id content :
              Option (ThreadItem Json)) = none := by
          rw [parseHookPromptMessage]
          cases parsed : content.mapM (hookPromptFragmentOf tools) with
          | none => rfl
          | some =>
            rw [parsed, Option.getD_some] at notPrompt
            rw [notPrompt]
        rw [unparsed]
    | _ => rfl
  | _ => rfl

theorem quiet_outside {items : List (RolloutItem Json)}
    (outside : ∀ item ∈ items, item.standsOutside tools historyTools = true) :
    Quiet builder (builder.handleRolloutItems tools items) := by
  induction items generalizing builder with
  | nil => exact .refl builder
  | cons _ _ ih =>
    obtain ⟨itemOutside, restOutside⟩ := forall_mem_cons.mp outside
    rw [handleRolloutItems, foldl_cons, handleRolloutItem_outside itemOutside]
    exact (quiet_advanceRolloutIndex builder).trans (ih restOutside)

theorem no_turn_of_quiet (noTurn : builder.currentTurn = none) (quiet : Quiet builder after) :
    after.currentTurn = none := by
  have same := quiet.current
  rw [noTurn, Option.map_none, Option.map_eq_none_iff] at same
  exact same

/-- A started turn is shown last, with no message yet. -/
theorem shows_started (tools : BuilderTools) (noTurn : builder.currentTurn = none)
    (shows_ : Shows builder turnIds messages) (turnId : String) (startedAt : Option Int) :
    Started (builder.handleTurnStarted tools turnId startedAt) turnId ∧
      Shows (builder.handleTurnStarted tools turnId startedAt) (turnIds ++ [turnId])
        (messages ++ [[]]) := by
  obtain ⟨ids, shown, numbered⟩ := shows_
  have unfinished : builder.finishCurrentTurn = builder := by
    rw [finishCurrentTurn, noTurn]
  rw [view_of_no_turn noTurn] at ids shown
  rw [handleTurnStarted, unfinished]
  refine ⟨⟨_, rfl, rfl, rfl⟩, ?_, ?_, ?_⟩
  · rw [view_of_current rfl, map_append, ← ids]
    rfl
  · rw [view_of_current rfl, map_append, ← shown]
    rfl
  · intro turn mem item listed
    rw [view_of_current rfl] at mem
    rcases mem_append.mp mem with earlier | last
    · exact numbered turn (by rw [view_of_no_turn noTurn]; exact earlier) item listed
    · rw [mem_singleton.mp last] at listed
      cases listed

theorem shows_completed (started : Started builder turnId) (shows_ : Shows builder turnIds messages)
    (error : Option (ErrorEvent Json)) (completedAt durationMs : Option Int) :
    (builder.handleTurnComplete turnId error completedAt durationMs).currentTurn = none ∧
      Shows (builder.handleTurnComplete turnId error completedAt durationMs) turnIds messages := by
  obtain ⟨turn, current, named, explicit⟩ := started
  have onlyMetadata :=
    onlyMetadata_complete (error.map ErrorEvent.toTurnError) completedAt durationMs
  have target : builder.eventTarget (some turnId) = .current turn := by
    rw [eventTarget, current]
    dsimp only
    rw [if_pos (congrArg some named)]
  have amended := shows_.of_quiet (quiet_amendCurrentTurn current onlyMetadata)
  rw [handleTurnComplete, target]
  refine ⟨currentTurn_finishCurrentTurn _, amended.of_view ?_ (nextItemIndex_finishCurrentTurn _)⟩
  apply view_finishCurrentTurn
  exact live_of_kept rfl (.inr (.inl explicit))

/-- A recorded turn adds a turn with its messages of the user. -/
theorem shows_turn (noTurn : builder.currentTurn = none) (shows_ : Shows builder turnIds messages)
    {turn : RecordedTurn Json}
    (before : ∀ item ∈ turn.before, item.standsOutside tools historyTools = true)
    (body : ∀ item ∈ turn.body, InTurn (turnIds ++ [turn.turnId]) item) :
    (builder.handleRolloutItems tools turn.items).currentTurn = none ∧
      Shows (builder.handleRolloutItems tools turn.items) (turnIds ++ [turn.turnId])
        (messages ++ [(messageEvents turn.body).map shown]) := by
  have quietBefore : Quiet builder (builder.handleRolloutItems tools turn.before) :=
    quiet_outside before
  have split : builder.handleRolloutItems tools turn.items =
      ((((builder.handleRolloutItems tools turn.before).handleRolloutItem tools
        turn.started).handleRolloutItems tools turn.body).handleRolloutItem tools turn.completed) := by
    rw [RecordedTurn.items, handleRolloutItems, foldl_append, foldl_append]
    rfl
  rw [split]
  have quietStart := quietBefore.trans
    (quiet_advanceRolloutIndex (builder.handleRolloutItems tools turn.before))
  obtain ⟨started, startShows⟩ := shows_started tools
    (no_turn_of_quiet noTurn quietStart) (shows_.of_quiet quietStart) turn.turnId turn.startedAt
  obtain ⟨bodyStarted, bodyShows⟩ := shows_body tools started startShows body
  have quietEnd := quiet_advanceRolloutIndex
    (((builder.handleRolloutItems tools turn.before).handleRolloutItem tools
      turn.started).handleRolloutItems tools turn.body)
  exact shows_completed (bodyStarted.of_quiet quietEnd) (bodyShows.of_quiet quietEnd) turn.error
    turn.completedAt turn.durationMs

/-- The messages of the user that a turn records. -/
def RecordedTurn.shown (turn : RecordedTurn Json) : List ShownMessage :=
  (messageEvents turn.body).map UserMessageEvent.shown

/-- Each recorded turn is shown with its own messages. -/
theorem shows_turns (noTurn : builder.currentTurn = none) (shows_ : Shows builder turnIds messages)
    (before : ∀ turn ∈ turns, ∀ item ∈ turn.before, item.standsOutside tools historyTools = true)
    (body : ∀ earlier turn later, turns = earlier ++ turn :: later → ∀ item ∈ turn.body,
      InTurn (turnIds ++ (earlier ++ [turn]).map RecordedTurn.turnId) item) :
    (builder.handleRolloutItems tools (turns.flatMap RecordedTurn.items)).currentTurn = none ∧
      Shows (builder.handleRolloutItems tools (turns.flatMap RecordedTurn.items))
        (turnIds ++ turns.map RecordedTurn.turnId) (messages ++ turns.map RecordedTurn.shown) := by
  induction turns generalizing builder turnIds messages with
  | nil =>
    refine ⟨noTurn, ?_⟩
    rw [map_nil, map_nil, append_nil, append_nil]
    exact shows_
  | cons turn turns ih =>
    obtain ⟨turnBefore, restBefore⟩ := forall_mem_cons.mp before
    obtain ⟨nowNone, nowShows⟩ := shows_turn noTurn shows_ turnBefore (body [] turn turns rfl)
    have rest := ih nowNone nowShows restBefore (by
      intro earlier later_ later split item mem
      have inTurn := body (turn :: earlier) later_ later (by rw [split]; rfl) item mem
      rw [append_assoc]
      exact inTurn)
    rw [flatMap_cons, handleRolloutItems, foldl_append, map_cons, map_cons]
    rw [append_assoc, append_assoc] at rest
    exact rest

/-- Rollback markers drop as many of the last turns as they say in all. -/
theorem turns_rollbackMarkers (tools : BuilderTools) (noTurn : builder.currentTurn = none)
    (markers : List UInt32) :
    (builder.handleRolloutItems tools (rollbackMarkers markers)).finish =
      builder.turns.take (builder.turns.length - (markers.map UInt32.toNat).sum) := by
  induction markers generalizing builder with
  | nil =>
    rw [map_nil, sum_nil, Nat.sub_zero, take_length]
    exact (finish_eq_view (live_of_no_turn noTurn)).trans (view_of_no_turn noTurn)
  | cons numTurns _ ih =>
    have unfinished : builder.advanceRolloutIndex.finishCurrentTurn =
        builder.advanceRolloutIndex := by
      rw [finishCurrentTurn, show builder.advanceRolloutIndex.currentTurn = none from noTurn]
    have rolledBack : (builder.handleRolloutItem tools (.eventMsg (.threadRolledBack numTurns))).turns =
          builder.turns.take (builder.turns.length - numTurns.toNat) := by
      change (builder.advanceRolloutIndex.handleThreadRollback numTurns).turns = _
      rw [handleThreadRollback, unfinished]
      exact remainingTurns_eq builder.turns numTurns.toNat
    have stillNone : (builder.handleRolloutItem tools
        (.eventMsg (.threadRolledBack numTurns))).currentTurn = none := by
      change (builder.advanceRolloutIndex.handleThreadRollback numTurns).currentTurn = none
      rw [handleThreadRollback, unfinished]
      exact noTurn
    rw [rollbackMarkers, map_cons, handleRolloutItems, foldl_cons]
    have rest := ih stillNone
    rw [rolledBack, length_take, take_take] at rest
    rw [map_cons, sum_cons]
    refine rest.trans ?_
    congr 1
    omega

/-- The turns show the messages of the user of all turns but the last ones, as many as the
rollbacks count. -/
theorem shownUserMessages_buildTurns
    {Records : UserMessageEvent → Rollout.ResponseItemEnvelope Json → Prop}
    {after : List (RolloutItem Json)} (recorded : Recorded tools historyTools Records turns after)
    (markers : List UInt32) :
    shownUserMessages (buildTurnsFromRolloutItems tools
        (recordedItems turns after ++ rollbackMarkers markers)) =
      (turns.take (turns.length - (markers.map UInt32.toNat).sum)).flatMap RecordedTurn.shown := by
  have newShows : Shows ({} : ThreadHistoryBuilder Json) [] [] :=
    ⟨rfl, rfl, fun _ mem => nomatch mem⟩
  obtain ⟨noTurn, shown⟩ := shows_turns rfl newShows recorded.before recorded.body
  have quiet : Quiet _ ((({} : ThreadHistoryBuilder Json).handleRolloutItems tools
      (turns.flatMap RecordedTurn.items)).handleRolloutItems tools after) :=
    quiet_outside recorded.after
  have shownAfter := shown.of_quiet quiet
  have noTurnAfter := no_turn_of_quiet noTurn quiet
  have messages := shownAfter.messages
  rw [view_of_no_turn noTurnAfter, nil_append] at messages
  have lengths := congrArg length messages
  rw [length_map, length_map] at lengths
  rw [buildTurnsFromRolloutItems, recordedItems, handleRolloutItems, foldl_append, foldl_append]
  have taken := turns_rollbackMarkers tools noTurnAfter markers
  rw [handleRolloutItems] at taken
  refine (congrArg shownUserMessages taken).trans ?_
  rw [shownUserMessages, flatMap_def, map_take, messages, lengths, ← map_take, flatMap_def]

end WeaveCodex.ThreadHistory
