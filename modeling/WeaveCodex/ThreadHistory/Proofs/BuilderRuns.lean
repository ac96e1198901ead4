/-
Purpose: What holds of the builder in every run: recording changes does not alter what it
  builds, and between two items its current turn is one that finishing it keeps.
-/
import WeaveCodex.ThreadHistory.RecordedTurns

namespace WeaveCodex.ThreadHistory

open Library.KeyedList List Option

universe u

variable {Json : Type u}

def ThreadItem.isUserItem (item : ThreadItem Json) : Bool :=
  item.asUserMessage.isSome

theorem isUserItem_upserted {item : TurnItem Json} {upserted : ThreadItem Json}
    (is : item.upserted = some upserted) : upserted.isUserItem = false := by
  cases item with
  | plan =>
    rw [TurnItem.upserted] at is
    split at is
    · cases is
    · cases is
      rfl
  | userMessage | agentMessage | reasoning | webSearch | imageView | imageGeneration
  | fileChange | mcpToolCall | contextCompaction => cases is
  | _ => cases is; rfl

namespace ThreadHistoryBuilder

variable (builder : ThreadHistoryBuilder Json) (tools : BuilderTools)

/-! ### Recording changes -/

/-- The builder with its recorded changes taken out. -/
def untracked : ThreadHistoryBuilder Json :=
  { builder with activeChangeSet := none }

@[simp]
theorem untracked_finishCurrentTurn :
    builder.finishCurrentTurn.untracked = builder.untracked.finishCurrentTurn := by
  rcases builder with ⟨_, _ | _, _, _, _, _⟩
  · rfl
  · dsimp only [finishCurrentTurn, untracked]
    split <;> rfl

@[simp]
theorem untracked_openTurn (turn : PendingTurn Json) :
    (builder.openTurn turn).untracked = builder.untracked.openTurn turn :=
  rfl

@[simp]
theorem newTurn_untracked (id : Option String) :
    builder.untracked.newTurn tools id = builder.newTurn tools id :=
  rfl

theorem ensureTurn_untracked : builder.untracked.ensureTurn tools =
    ((builder.ensureTurn tools).1, (builder.ensureTurn tools).2.untracked) := by
  rcases builder with ⟨_, _ | _, _, _, _, _⟩ <;> rfl

@[simp]
theorem untracked_pushItemInCurrentTurn (item : ThreadItem Json) :
    (builder.pushItemInCurrentTurn tools item).untracked =
      builder.untracked.pushItemInCurrentTurn tools item := by
  rw [pushItemInCurrentTurn, pushItemInCurrentTurn, ensureTurn_untracked]
  rfl

@[simp]
theorem untracked_upsertItemInCurrentTurn (item : ThreadItem Json) :
    (builder.upsertItemInCurrentTurn tools item).untracked =
      builder.untracked.upsertItemInCurrentTurn tools item := by
  rw [upsertItemInCurrentTurn, upsertItemInCurrentTurn, ensureTurn_untracked]
  rfl

variable (turnId : String) (item : ThreadItem Json)

@[simp]
theorem untracked_upsertItemInFinishedTurn : (builder.upsertItemInFinishedTurn turnId item).untracked =
    builder.untracked.upsertItemInFinishedTurn turnId item := by
  dsimp only [upsertItemInFinishedTurn, untracked]
  split <;> rfl

@[simp]
theorem untracked_upsertItemInTurnId : (builder.upsertItemInTurnId turnId item).untracked =
    builder.untracked.upsertItemInTurnId turnId item := by
  rcases builder with ⟨_, _ | _, _, _, _, _⟩
  · exact untracked_upsertItemInFinishedTurn _ turnId item
  · dsimp only [upsertItemInTurnId, untracked]
    split
    · rfl
    · exact untracked_upsertItemInFinishedTurn _ turnId item

/-- The builder that a user message meets, with the turn before it closed. -/
def closedForUserMessage : ThreadHistoryBuilder Json :=
  match builder.currentTurn with
  | some turn => if closesForUserMessage turn then builder.finishCurrentTurn else builder
  | none => builder

theorem handleUserMessage_eq (payload : UserMessageEvent) : builder.handleUserMessage tools payload =
    builder.closedForUserMessage.nextItemId.2.pushItemInCurrentTurn tools
      (.userMessage builder.closedForUserMessage.nextItemId.1 payload.clientId
        (buildUserInputs payload)) :=
  rfl

/-- Neither the current turn nor a finished one has the id. -/
def lacksTurn (turnId : String) : Bool :=
  !(builder.currentTurn.any fun turn => turn.id = turnId) &&
    !builder.turns.any fun turn => turn.id = turnId

/-- The builder that an item of a review meets, with the turn that it names. -/
def openedForReview (turnId : String) : ThreadHistoryBuilder Json :=
  if builder.lacksTurn turnId then
    builder.finishCurrentTurn.openTurn (builder.finishCurrentTurn.newTurn tools (some turnId))
  else builder

theorem untracked_openedForReview : (builder.openedForReview tools turnId).untracked =
    builder.untracked.openedForReview tools turnId := by
  rw [openedForReview, openedForReview, ← untracked_finishCurrentTurn, newTurn_untracked,
    ← untracked_openTurn]
  change _ = if builder.lacksTurn turnId then _ else _
  cases builder.lacksTurn turnId <;> rfl

/-! ### Turns that finishing keeps -/

end ThreadHistoryBuilder

/-- Finishing the turn keeps it. -/
def PendingTurn.Kept (turn : PendingTurn Json) : Prop :=
  turn.items ≠ [] ∨ turn.openedExplicitly = true ∨ turn.sawCompaction = true

theorem PendingTurn.not_kept_iff {turn : PendingTurn Json} :
    (turn.items.isEmpty && !turn.openedExplicitly && !turn.sawCompaction) = true ↔ ¬turn.Kept := by
  simp [PendingTurn.Kept, and_assoc]

/-- The change of a turn leaves its id and its items. -/
def OnlyMetadata (change : Turn Json → Turn Json) : Prop :=
  ∀ turn, (change turn).id = turn.id ∧ (change turn).items = turn.items

theorem onlyMetadata_complete (terminalError : Option (TurnError Json))
    (completedAt durationMs : Option Int) :
    OnlyMetadata (Turn.complete terminalError completedAt durationMs) := by
  intro turn
  cases terminalError with
  | some => exact ⟨rfl, rfl⟩
  | none =>
    dsimp only [Turn.complete]
    split <;> exact ⟨rfl, rfl⟩

namespace ThreadHistoryBuilder

variable {builder : ThreadHistoryBuilder Json} {tools : BuilderTools}

/-- The current turn, if there is one, is kept when it is finished. -/
def Live (builder : ThreadHistoryBuilder Json) : Prop :=
  ∀ turn, builder.currentTurn = some turn → turn.Kept

/-- What the builder shows: the finished turns and the current one. -/
def view (builder : ThreadHistoryBuilder Json) : List (Turn Json) :=
  builder.turns ++ (builder.currentTurn.map PendingTurn.toTurn).toList

theorem live_of_no_turn (none : builder.currentTurn = none) : builder.Live := by
  intro turn current
  rw [none] at current
  cases current

variable {turn : PendingTurn Json}

theorem live_of_kept (current : builder.currentTurn = some turn) (kept : turn.Kept) :
    builder.Live := by
  intro other otherCurrent
  rw [current] at otherCurrent
  exact some.inj otherCurrent ▸ kept

theorem currentTurn_finishCurrentTurn (builder : ThreadHistoryBuilder Json) :
    builder.finishCurrentTurn.currentTurn = none := by
  rw [finishCurrentTurn]
  split
  · assumption
  · split <;> rfl

variable (live : builder.Live)
include live

theorem turns_finishCurrentTurn : builder.finishCurrentTurn.turns = builder.view := by
  rw [finishCurrentTurn, view]
  split
  · rename_i none
    rw [none, map_none, toList_none, append_nil]
  · rename_i turn current
    rw [if_neg (fun dropped => PendingTurn.not_kept_iff.mp dropped (live turn current)), current]
    rfl

theorem view_finishCurrentTurn : builder.finishCurrentTurn.view = builder.view := by
  rw [view, currentTurn_finishCurrentTurn, turns_finishCurrentTurn live, map_none,
    toList_none, append_nil]

/-- Finishing shows what the builder shows. -/
theorem finish_eq_view : builder.finish = builder.view :=
  turns_finishCurrentTurn live

omit live

theorem live_setCurrentItems {items : List (ThreadItem Json)} {item : ThreadItem Json}
    (filled : items ≠ []) : (builder.setCurrentItems turn items item).Live :=
  live_of_kept rfl (.inl filled)

theorem upsertTurnItem_ne_nil (items : List (ThreadItem Json)) (item : ThreadItem Json) :
    upsertTurnItem items item ≠ [] := by
  cases items with
  | nil => exact cons_ne_nil _ _
  | cons =>
    rw [upsertTurnItem, upsertBy]
    split <;> exact cons_ne_nil _ _

section

variable (builder : ThreadHistoryBuilder Json) (tools : BuilderTools) (item : ThreadItem Json)

theorem live_pushItemInCurrentTurn : (builder.pushItemInCurrentTurn tools item).Live :=
  live_setCurrentItems (append_ne_nil_of_right_ne_nil _ (cons_ne_nil _ _))

theorem live_upsertItemInCurrentTurn : (builder.upsertItemInCurrentTurn tools item).Live :=
  live_setCurrentItems (upsertTurnItem_ne_nil _ item)

end

/-- An item for a turn keeps the current turn, also one that is kept only because of it. -/
theorem live_upsertItemInTurnId {turnId : String} {item : ThreadItem Json}
    (live : ∀ turn, builder.currentTurn = some turn → turn.id ≠ turnId → turn.Kept) :
    (builder.upsertItemInTurnId turnId item).Live := by
  have elsewhere : (builder.upsertItemInFinishedTurn turnId item).currentTurn =
      builder.currentTurn := by
    rw [upsertItemInFinishedTurn]
    split <;> rfl
  rw [upsertItemInTurnId]
  split
  · rename_i turn current
    split
    · exact live_setCurrentItems (upsertTurnItem_ne_nil _ item)
    · rename_i apart
      exact live_of_kept (elsewhere.trans current) (live turn current apart)
  · rename_i none
    exact live_of_no_turn (elsewhere.trans none)

theorem live_amendCurrentTurn {change : Turn Json → Turn Json} (kept : turn.Kept)
    (onlyMetadata : OnlyMetadata change) :
    (builder.amendCurrentTurn turn change).Live := by
  apply live_of_kept rfl
  rcases kept with filled | rest
  · exact .inl ((onlyMetadata turn.toTurn).2.symm ▸ filled)
  · exact .inr rest

theorem current_of_eventTarget {turnId : Option String}
    (target : builder.eventTarget turnId = .current turn) : builder.currentTurn = some turn := by
  rw [eventTarget] at target
  split at target
  · rename_i currentIs
    split at target
    · cases target
      exact currentIs
    · split at target
      · cases target
      · cases target
        exact currentIs
  · split at target <;> cases target

/-! ### What an item can do -/

/-- A finished turn that an event goes to is the first of its id. -/
theorem find?_of_eventTarget {turnId : Option String} {turn : Turn Json}
    (target : builder.eventTarget turnId = .finished turn) :
    (builder.turns.find? fun other => other.id = turn.id) = some turn := by
  have found : (builder.turns.find? fun other => some other.id = turnId) = some turn := by
    rw [eventTarget] at target
    split at target
    · split at target
      · cases target
      · split at target
        · rename_i found
          cases target
          exact found
        · cases target
    · split at target
      · rename_i found
        cases target
        exact found
      · cases target
  have named := find?_some found
  rw [decide_eq_true_eq] at named
  subst named
  simpa using found

/-- The text of a reasoning item stays with the item's id. -/
theorem id_extendReasoning {isSummary : Bool} {text : String} {item extended : ThreadItem Json}
    (extends_ : item.extendReasoning isSummary text = some extended) : extended.id = item.id := by
  cases item with
  | reasoning =>
    cases isSummary <;> cases extends_ <;> rfl
  | _ => cases extends_

theorem nextItemIndex_finishCurrentTurn (builder : ThreadHistoryBuilder Json) :
    builder.finishCurrentTurn.nextItemIndex = builder.nextItemIndex := by
  rw [finishCurrentTurn]
  split
  · rfl
  · split <;> rfl

/-- What handles an item. -/
abbrev Handler (Json : Type u) :=
  ThreadHistoryBuilder Json → ThreadHistoryBuilder Json

section

variable (tools : BuilderTools) (builder : ThreadHistoryBuilder Json) (source : RolloutItem Json)

/-- What is done before an item is put: it is numbered, and a message of the user closes the
turn before it. -/
inductive Preparation : Handler Json → Prop
  | none : Preparation id
  | numbered : Preparation (·.nextItemId.2)
  | closed (message : source.messageEvent ≠ none) : Preparation (·.finishCurrentTurn.nextItemId.2)

/-- An item other than a message of the user, with an id of the rollout or the next number. -/
def Named (item : ThreadItem Json) : Prop :=
  item.isUserItem = false ∧ (item.id ∈ source.givenIds ∨ item.id = builder.nextItemId.1)

/-- What an item of the rollout can do to the builder. -/
inductive Step : Handler Json → Prop
  | kept : Step id
  | pushed {prepare} (prepared : Preparation source prepare) (item : ThreadItem Json)
      (notUser : source.messageEvent = none → item.isUserItem = false) :
      Step fun builder => (prepare builder).pushItemInCurrentTurn tools item
  | upserted {prepare item} (prepared : Preparation source prepare)
      (named : Named builder source item) :
      Step fun builder => (prepare builder).upsertItemInCurrentTurn tools item
  | upsertedIn {item} (turnId : String) (named : Named builder source item) :
      Step (·.upsertItemInTurnId turnId item)
  | reviewed {prepare turnId item} (prepared : Preparation source prepare)
      (reviews : turnId ∈ source.reviewedTurnIds) (named : Named builder source item) :
      Step fun builder =>
        ((prepare builder).openedForReview tools turnId).upsertItemInTurnId turnId item
  | extended {turn last item isSummary text} (current : builder.currentTurn = some turn)
      (isLast : turn.items.getLast? = some last)
      (extends_ : last.extendReasoning isSummary text = some item) :
      Step (·.setCurrentItems turn (turn.items.dropLast ++ [item]) item)
  | amended {turn change} (current : builder.currentTurn = some turn)
      (onlyMetadata : OnlyMetadata change) : Step (·.amendCurrentTurn turn change)
  | completed {turn change} (ends : source.standsInTurn = false)
      (current : builder.currentTurn = some turn) (onlyMetadata : OnlyMetadata change) :
      Step fun builder => (builder.amendCurrentTurn turn change).finishCurrentTurn
  | amendedFinished {turn change}
      (found : (builder.turns.find? fun other => other.id = turn.id) = some turn)
      (onlyMetadata : OnlyMetadata change) : Step (·.amendFinishedTurn turn change)
  | started (ends : source.standsInTurn = false) (turnId : String) (startedAt : Option Int) :
      Step (·.handleTurnStarted tools turnId startedAt)
  | compacted (ends : source.standsInTurn = false) : Step (·.handleCompacted tools)
  | rolledBack (ends : source.standsInTurn = false) (numTurns : UInt32) :
      Step (·.handleThreadRollback numTurns)

/-- The handler takes one step, the same one whatever has been recorded. -/
def TakesStep (handle : Handler Json) : Prop :=
  ∃ step, Step tools builder source step ∧ ∀ changes,
    handle { builder with activeChangeSet := changes } = step { builder with activeChangeSet := changes }

end

variable {source : RolloutItem Json}

@[simp]
theorem eventTarget_recording (turnId : Option String)
    (changes : Option (ThreadHistoryChangeSet Json)) :
    ({ builder with activeChangeSet := changes } : ThreadHistoryBuilder Json).eventTarget turnId =
      builder.eventTarget turnId :=
  rfl

variable {item : ThreadItem Json} (named : Named builder source item)
include named

theorem takesStep_upsertItemByRoute (route : ItemRoute) (turnId : String) :
    TakesStep tools builder source (·.upsertItemByRoute tools route turnId item) := by
  cases route with
  | currentTurn => exact ⟨_, .upserted .none named, fun _ => rfl⟩
  | turnId => exact ⟨_, .upsertedIn turnId named, fun _ => rfl⟩
  | turnIdIfAny =>
    by_cases unnamed : turnId = ""
    · exact ⟨_, .upserted .none named, fun _ => if_pos unnamed⟩
    · exact ⟨_, .upsertedIn turnId named, fun _ => if_neg unnamed⟩

variable {prepare : Handler Json}

theorem takesStep_upsertReviewModeItem (prepared : Preparation source prepare)
    {turnId : Option String} (reviews : turnId.toList ⊆ source.reviewedTurnIds) :
    TakesStep tools builder source fun builder =>
      (prepare builder).upsertReviewModeItem tools turnId item := by
  cases turnId with
  | none => exact ⟨_, .upserted prepared named, fun _ => rfl⟩
  | some => exact ⟨_, .reviewed prepared (reviews mem_cons_self) named, fun _ => rfl⟩

omit named

/-- An item of a review with the id that it carries or the next one. -/
theorem takesStep_reviewEvent {turnId itemId : Option String} (make : String → ThreadItem Json)
    (notUser : ∀ id, (make id).isUserItem = false ∧ (make id).id = id)
    (reviews : turnId.toList ⊆ source.reviewedTurnIds) (given : itemId.toList ⊆ source.givenIds) :
    TakesStep tools builder source fun builder =>
      (builder.itemIdOr itemId).2.upsertReviewModeItem tools turnId (make (builder.itemIdOr itemId).1) := by
  cases itemId with
  | none =>
    obtain ⟨other, is⟩ := notUser builder.nextItemId.1
    exact takesStep_upsertReviewModeItem ⟨other, .inr is⟩ .numbered reviews
  | some id =>
    obtain ⟨other, is⟩ := notUser id
    have named : Named builder source (make id) := ⟨other, .inl (is.symm ▸ given mem_cons_self)⟩
    exact takesStep_upsertReviewModeItem named .none reviews

theorem takesStep_handleUserMessage (payload : UserMessageEvent) (message : source.messageEvent ≠ none) :
    TakesStep tools builder source (·.handleUserMessage tools payload) := by
  have pushed {prepare} (prepared : Preparation source prepare) : Step tools builder source _ :=
    .pushed prepared (.userMessage builder.nextItemId.1 payload.clientId (buildUserInputs payload))
      fun other => absurd other message
  cases current : builder.currentTurn with
  | none => exact ⟨_, pushed .numbered, fun _ => by simp only [handleUserMessage, current]; rfl⟩
  | some turn =>
    cases closes : closesForUserMessage turn with
    | true =>
      refine ⟨_, pushed (.closed message), fun _ => ?_⟩
      simp only [handleUserMessage, current, closes, if_true, nextItemId,
        nextItemIndex_finishCurrentTurn]
    | false =>
      refine ⟨_, pushed .numbered, fun _ => ?_⟩
      simp only [handleUserMessage, current, closes]
      rfl

theorem takesStep_handleReasoning (isSummary : Bool) (text : String) :
    TakesStep tools builder source (·.handleReasoning tools isSummary text) := by
  by_cases empty : text = ""
  · exact ⟨_, .kept, fun _ => if_pos empty⟩
  have pushed : Step tools builder source _ := .pushed .numbered
    (if isSummary then .reasoning builder.nextItemId.1 [text] []
      else .reasoning builder.nextItemId.1 [] [text]) fun _ => by cases isSummary <;> rfl
  cases current : builder.currentTurn with
  | none =>
    refine ⟨_, pushed, fun _ => ?_⟩
    simp only [handleReasoning, empty, if_false, ensureTurn, current]
    simp only [pushItemInCurrentTurn, ensureTurn, nextItemId, current]
    rfl
  | some turn =>
    cases extended : turn.items.getLast?.bind (ThreadItem.extendReasoning isSummary text) with
    | none =>
      refine ⟨_, pushed, fun _ => ?_⟩
      simp only [handleReasoning, empty, if_false, ensureTurn, current, extended]
      rfl
    | some item =>
      obtain ⟨_, isLast, extends_⟩ := bind_eq_some_iff.mp extended
      refine ⟨_, .extended current isLast extends_, fun _ => ?_⟩
      simp only [handleReasoning, empty, if_false, ensureTurn, current, extended]

/-- Every event takes one step of the history. -/
theorem takesStep_handleEvent (event : EventMsg Json) :
    TakesStep tools builder (.eventMsg event) (·.handleEvent tools event) := by
  cases event with
  | userMessage payload => exact takesStep_handleUserMessage payload (some_ne_none payload)
  | agentMessage text phase memoryCitation =>
    by_cases empty : text = ""
    · exact ⟨_, .kept, fun _ => if_pos empty⟩
    · exact ⟨_, .pushed .numbered (.agentMessage builder.nextItemId.1 text phase memoryCitation)
        fun _ => rfl, fun _ => if_neg empty⟩
  | agentReasoning text => exact takesStep_handleReasoning true text
  | agentReasoningRawContent text => exact takesStep_handleReasoning false text
  | tool event turnId item =>
    exact takesStep_upsertItemByRoute ⟨rfl, .inl mem_cons_self⟩ event.route turnId
  | guardianAssessment status turnId item =>
    cases status <;> cases item <;> first
      | exact ⟨_, .kept, fun _ => rfl⟩
      | exact takesStep_upsertItemByRoute ⟨rfl, .inl mem_cons_self⟩ .turnIdIfAny turnId
  | contextCompacted =>
    exact ⟨_, .pushed .numbered (.contextCompaction builder.nextItemId.1) fun _ => rfl, fun _ => rfl⟩
  | enteredReviewMode _ _ userFacingHint =>
    exact takesStep_reviewEvent (.enteredReviewMode · (userFacingHint.getD "Review requested."))
      (fun _ => ⟨rfl, rfl⟩) (Subset.refl _) (Subset.refl _)
  | exitedReviewMode _ _ review =>
    exact takesStep_reviewEvent (.exitedReviewMode · review) (fun _ => ⟨rfl, rfl⟩) (Subset.refl _)
      (Subset.refl _)
  | itemStarted turnId item | itemCompleted turnId item =>
    simp only [handleEvent, handleMaterializedItemLifecycle]
    cases is : item.upserted with
    | none => exact ⟨_, .kept, fun _ => rfl⟩
    | some upserted =>
      have named {source : RolloutItem Json}
          (given : source.givenIds = item.upserted.toList.map ThreadItem.id) :
          Named builder source upserted :=
        ⟨isUserItem_upserted is, .inl (by simp [given, is])⟩
      cases review : item.isReviewModeItem with
      | true =>
        refine ⟨_, .reviewed .none ?_ (named rfl), fun _ => rfl⟩
        simp [RolloutItem.reviewedTurnIds, review]
      | false => exact ⟨_, .upsertedIn turnId (named rfl), fun _ => rfl⟩
  | error payload =>
    simp only [handleEvent, handleError]
    cases payload.affectsTurnStatus with
    | false => exact ⟨_, .kept, fun _ => rfl⟩
    | true =>
      cases current : builder.currentTurn with
      | none => exact ⟨_, .kept, fun _ => by simp [current]⟩
      | some =>
        have onlyMetadata : OnlyMetadata (Turn.fail payload.toTurnError) := fun _ => ⟨rfl, rfl⟩
        exact ⟨_, .amended current onlyMetadata, fun _ => by simp [current]⟩
  | threadRolledBack numTurns => exact ⟨_, .rolledBack rfl numTurns, fun _ => rfl⟩
  | turnAborted turnId completedAt durationMs =>
    have onlyMetadata : @OnlyMetadata Json (Turn.abort completedAt durationMs) := fun _ => ⟨rfl, rfl⟩
    simp only [handleEvent, handleTurnAborted]
    cases target : builder.eventTarget turnId with
    | current =>
      exact ⟨_, .amended (current_of_eventTarget target) onlyMetadata, fun _ => by simp [target]⟩
    | finished =>
      exact ⟨_, .amendedFinished (find?_of_eventTarget target) onlyMetadata, fun _ => by simp [target]⟩
    | missing => exact ⟨_, .kept, fun _ => by simp [target]⟩
  | turnStarted turnId startedAt => exact ⟨_, .started rfl turnId startedAt, fun _ => rfl⟩
  | turnComplete turnId error completedAt durationMs =>
    have onlyMetadata :=
      onlyMetadata_complete (error.map ErrorEvent.toTurnError) completedAt durationMs
    simp only [handleEvent, handleTurnComplete]
    cases target : builder.eventTarget (some turnId) with
    | current =>
      exact ⟨_, .completed rfl (current_of_eventTarget target) onlyMetadata, fun _ => by simp [target]⟩
    | finished =>
      exact ⟨_, .amendedFinished (find?_of_eventTarget target) onlyMetadata, fun _ => by simp [target]⟩
    | missing => exact ⟨_, .kept, fun _ => by simp [target]⟩
  | other => exact ⟨_, .kept, fun _ => rfl⟩

/-- So does every item of a rollout. -/
theorem takesStep_handleItem (tools : BuilderTools) (builder : ThreadHistoryBuilder Json)
    (item : RolloutItem Json) : TakesStep tools builder item (·.handleItem tools item) := by
  cases item with
  | eventMsg event => exact takesStep_handleEvent event
  | compacted => exact ⟨_, .compacted rfl, fun _ => rfl⟩
  | responseItem envelope =>
    simp only [handleItem]
    cases envelope.item with
    | message id role content =>
      simp only [handleResponseItem]
      by_cases user : role = "user"
      · cases parsed : (parseHookPromptMessage tools builder.currentRolloutIndex id content :
          Option (ThreadItem Json)) with
        | none => exact ⟨_, .kept, fun _ => by simp [user, parsed]⟩
        | some item =>
          refine ⟨_, .pushed .none item fun _ => ?_, fun _ => by simp [user, parsed]⟩
          rw [parseHookPromptMessage] at parsed
          split at parsed
          · cases parsed
          · cases parsed
          · cases parsed
            rfl
      · exact ⟨_, .kept, fun _ => if_pos user⟩
    | _ => exact ⟨_, .kept, fun _ => rfl⟩
  | _ => exact ⟨_, .kept, fun _ => rfl⟩

/-! ### What holds after every item -/

variable {step : Handler Json}

theorem Preparation.untracked (prepared : Preparation source prepare) :
    (prepare builder).untracked = prepare builder.untracked := by
  cases prepared with
  | none | numbered => rfl
  | closed => exact congrArg (fun closed => closed.nextItemId.2) (untracked_finishCurrentTurn builder)

/-- Recording changes does not alter a step. -/
theorem Step.untracked (taken : Step tools builder source step) :
    (step builder).untracked = step builder.untracked := by
  cases taken with
  | pushed prepared => rw [untracked_pushItemInCurrentTurn, prepared.untracked]
  | upserted prepared => rw [untracked_upsertItemInCurrentTurn, prepared.untracked]
  | upsertedIn => exact untracked_upsertItemInTurnId _ _ _
  | reviewed prepared =>
    rw [untracked_upsertItemInTurnId, untracked_openedForReview, prepared.untracked]
  | completed => exact untracked_finishCurrentTurn _
  | started | rolledBack =>
    dsimp only [handleTurnStarted, handleThreadRollback]
    rw [← untracked_finishCurrentTurn]
    rfl
  | compacted =>
    dsimp only [handleCompacted]
    rw [ensureTurn_untracked]
    rfl
  | kept | extended | amended | amendedFinished => rfl

theorem untracked_handleItem (item : RolloutItem Json) :
    (builder.handleItem tools item).untracked = builder.untracked.handleItem tools item := by
  obtain ⟨_, taken, same⟩ := takesStep_handleItem tools builder item
  have tracked := congrArg untracked (same builder.activeChangeSet)
  exact tracked.trans (taken.untracked.trans (same none).symm)

theorem live_prepared (prepared : Preparation source prepare) (live : builder.Live) :
    (prepare builder).Live := by
  cases prepared with
  | none | numbered => exact live
  | closed => exact live_of_no_turn (currentTurn_finishCurrentTurn builder)

theorem live_step (taken : Step tools builder source step) (live : builder.Live) :
    (step builder).Live := by
  cases taken with
  | kept | amendedFinished => exact live
  | pushed => exact live_pushItemInCurrentTurn _ tools _
  | upserted => exact live_upsertItemInCurrentTurn _ tools _
  | upsertedIn => exact live_upsertItemInTurnId fun turn current _ => live turn current
  | reviewed prepared =>
    apply live_upsertItemInTurnId
    intro turn current apart
    rw [openedForReview] at current
    split at current
    · -- The turn that the item opens has the id, so that the item goes there.
      exact absurd (congrArg (fun turn => turn.id) (some.inj current)).symm apart
    · exact live_prepared prepared live turn current
  | extended => exact live_setCurrentItems (append_ne_nil_of_right_ne_nil _ (cons_ne_nil _ _))
  | @amended turn _ current onlyMetadata =>
    exact live_amendCurrentTurn (live turn current) onlyMetadata
  | completed | rolledBack => exact live_of_no_turn (currentTurn_finishCurrentTurn _)
  | started => exact live_of_kept rfl (.inr (.inl rfl))
  | compacted => exact live_of_kept rfl (.inr (.inr rfl))

/-- Between two items the current turn is one that finishing it keeps. -/
theorem live_handleRolloutItem (live : builder.Live) (item : RolloutItem Json) :
    (builder.handleRolloutItem tools item).Live := by
  obtain ⟨_, taken, same⟩ := takesStep_handleItem tools builder.advanceRolloutIndex item
  rw [show builder.handleRolloutItem tools item = _ from same _]
  exact live_step taken live

theorem live_handleRolloutItems (live : builder.Live) (items : List (RolloutItem Json)) :
    (builder.handleRolloutItems tools items).Live := by
  induction items generalizing builder with
  | nil => exact live
  | cons item _ ih =>
    exact ih (live_handleRolloutItem live item)

theorem live_new : ({} : ThreadHistoryBuilder Json).Live :=
  live_of_no_turn rfl

end ThreadHistoryBuilder

end WeaveCodex.ThreadHistory
