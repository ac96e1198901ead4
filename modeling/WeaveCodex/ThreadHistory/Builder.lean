/-
Purpose: The builder that turns the items of a rollout into turns: opening and finishing
  turns, adding and updating their items, completing, aborting and rolling back turns, and
  recording what each item changed.
Trusted boundary: translation of `ThreadHistoryBuilder` in
  `app-server-protocol/src/protocol/thread_history.rs`; an event about a tool carries the item
  that the item builders make of its payload; the XML parser of hook prompts and fresh ids are
  parameters; counters do not overflow
-/
import WeaveCodex.ApplyPatch.TextFile
import WeaveCodex.Library.KeyedList
import WeaveCodex.Rollout.Reconstruction

namespace WeaveCodex.ThreadHistory

open Library.KeyedList

universe u

/-! ### Items and turns -/

inductive UserInput where
  | text (text : String) (textElements : List String)
  | image (url : String) (detail : Option String)
  | localImage (path : String) (detail : Option String)
  | audio (url : String)
  | localAudio (path : String)
deriving DecidableEq, Repr

structure HookPromptFragment where
  text : String
  hookRunId : String
deriving DecidableEq, Repr

/-- The items whose contents only the item builders know. -/
inductive ToolItemKind where
  | commandExecution | fileChange | mcpToolCall | dynamicToolCall | collabAgentToolCall
  | subAgentActivity | webSearch | imageView | imageGeneration | sleep
deriving DecidableEq, Repr

structure ToolItem (Json : Type u) where
  kind : ToolItemKind
  id : String
  body : Json
deriving DecidableEq, Repr

inductive ThreadItem (Json : Type u) where
  | userMessage (id : String) (clientId : Option String) (content : List UserInput)
  | hookPrompt (id : String) (fragments : List HookPromptFragment)
  | agentMessage (id : String) (text : String) (phase : Option String)
      (memoryCitation : Option Json)
  | plan (id : String) (text : String)
  | reasoning (id : String) (summary content : List String)
  | enteredReviewMode (id : String) (review : String)
  | exitedReviewMode (id : String) (review : String)
  | contextCompaction (id : String)
  | tool (item : ToolItem Json)
deriving DecidableEq, Repr

variable {Json : Type u}

def ThreadItem.id : ThreadItem Json → String
  | .userMessage id _ _ | .hookPrompt id _ | .agentMessage id _ _ _ | .plan id _
  | .reasoning id _ _ | .enteredReviewMode id _ | .exitedReviewMode id _
  | .contextCompaction id => id
  | .tool item => item.id

inductive TurnStatus where
  | completed | interrupted | failed | inProgress
deriving DecidableEq, Repr

structure TurnError (Json : Type u) where
  message : String
  codexErrorInfo : Option Json
  additionalDetails : Option String := none
deriving DecidableEq, Repr

structure Turn (Json : Type u) where
  id : String
  items : List (ThreadItem Json) := []
  error : Option (TurnError Json) := none
  status : TurnStatus := .completed
  startedAt : Option Int := none
  completedAt : Option Int := none
  durationMs : Option Int := none
deriving DecidableEq, Repr

/-- A turn that is still open. -/
structure PendingTurn (Json : Type u) extends Turn Json where
  openedExplicitly : Bool := false
  sawCompaction : Bool := false
  rolloutStartIndex : Nat
deriving DecidableEq, Repr

/-! ### Events -/

structure UserMessageEvent where
  clientId : Option String := none
  message : String
  images : Option (List String) := none
  imageDetails : List (Option String) := []
  localImages : List String := []
  localImageDetails : List (Option String) := []
  audio : Option (List String) := none
  localAudio : List String := []
  textElements : List String := []
deriving DecidableEq, Repr

/-- The events about tools. -/
inductive ToolEvent where
  | webSearchBegin | webSearchEnd | execCommandBegin | execCommandEnd | applyPatchApprovalRequest
  | patchApplyBegin | patchApplyEnd | dynamicToolCallRequest | dynamicToolCallResponse
  | mcpToolCallBegin | mcpToolCallEnd | viewImageToolCall | imageGenerationBegin
  | imageGenerationEnd | collabAgentSpawnBegin | collabAgentSpawnEnd | collabAgentInteractionBegin
  | collabAgentInteractionEnd | subAgentActivity | collabWaitingBegin | collabWaitingEnd
  | collabCloseBegin | collabCloseEnd | collabResumeBegin | collabResumeEnd
deriving DecidableEq, Repr

/-- Where the item of an event about a tool goes. -/
inductive ItemRoute where
  | currentTurn | turnId
  /-- The turn that the event names, or the current turn if it names none. -/
  | turnIdIfAny
deriving DecidableEq, Repr

def ToolEvent.route : ToolEvent → ItemRoute
  | .execCommandBegin | .execCommandEnd => .turnId
  | .applyPatchApprovalRequest | .patchApplyBegin | .patchApplyEnd
  | .dynamicToolCallRequest | .dynamicToolCallResponse => .turnIdIfAny
  | .webSearchBegin | .webSearchEnd | .mcpToolCallBegin | .mcpToolCallEnd
  | .viewImageToolCall | .imageGenerationBegin | .imageGenerationEnd
  | .collabAgentSpawnBegin | .collabAgentSpawnEnd | .collabAgentInteractionBegin
  | .collabAgentInteractionEnd | .subAgentActivity | .collabWaitingBegin
  | .collabWaitingEnd | .collabCloseBegin | .collabCloseEnd | .collabResumeBegin
  | .collabResumeEnd => .currentTurn

inductive GuardianAssessmentStatus where
  | inProgress | denied | aborted | timedOut | approved
deriving DecidableEq, Repr

/-- `codex_protocol::items::TurnItem`, with what the builder reads of it. -/
inductive TurnItem (Json : Type u) where
  | userMessage
  | hookPrompt (id : String) (fragments : List HookPromptFragment)
  | agentMessage
  | plan (id : String) (text : String)
  | reasoning
  | commandExecution (id : String) (body : Json)
  | dynamicToolCall (id : String) (body : Json)
  | collabAgentToolCall (id : String) (body : Json)
  | subAgentActivity (id : String) (body : Json)
  | webSearch | imageView
  /-- The kind is that of an image generation, a sleep or a web search. -/
  | «extension» (item : ToolItem Json)
  | imageGeneration
  | enteredReviewMode (id : String) (userFacingHint : String)
  /-- With the text of `review_output_text`. -/
  | exitedReviewMode (id : String) (review : String)
  | fileChange | mcpToolCall | contextCompaction
deriving DecidableEq, Repr

structure ErrorEvent (Json : Type u) where
  message : String
  codexErrorInfo : Option Json
  /-- `affects_turn_status()`. -/
  affectsTurnStatus : Bool
deriving DecidableEq, Repr

inductive EventMsg (Json : Type u) where
  | userMessage (payload : UserMessageEvent)
  | agentMessage (message : String) (phase : Option String) (memoryCitation : Option Json)
  | agentReasoning (text : String)
  | agentReasoningRawContent (text : String)
  | tool (event : ToolEvent) (turnId : String) (item : ToolItem Json)
  /-- The item is what `build_item_from_guardian_event` returns. -/
  | guardianAssessment (status : GuardianAssessmentStatus) (turnId : String)
      (item : Option (ToolItem Json))
  | contextCompacted
  | enteredReviewMode (turnId itemId userFacingHint : Option String)
  /-- With the text of `review_output_text`. -/
  | exitedReviewMode (turnId itemId : Option String) (review : String)
  | itemStarted (turnId : String) (item : TurnItem Json)
  | itemCompleted (turnId : String) (item : TurnItem Json)
  | error (payload : ErrorEvent Json)
  | threadRolledBack (numTurns : UInt32)
  | turnAborted (turnId : Option String) (completedAt durationMs : Option Int)
  | turnStarted (turnId : String) (startedAt : Option Int)
  | turnComplete (turnId : String) (error : Option (ErrorEvent Json))
      (completedAt durationMs : Option Int)
  /-- The events that the builder does not read. -/
  | other
deriving DecidableEq, Repr

inductive RolloutItem (Json : Type u) where
  | eventMsg (event : EventMsg Json)
  | compacted (compacted : Rollout.CompactedItem Json)
  | responseItem (envelope : Rollout.ResponseItemEnvelope Json)
  | interAgentCommunication (communication : Rollout.InterAgentCommunication)
  | interAgentCommunicationMetadata (triggerTurn : Bool)
  | turnContext (context : Rollout.TurnContextItem)
  | worldState (worldState : Rollout.WorldStateItem Json)
  | securityRiskScore
  | sessionMeta (contextWindow : Option String)
deriving DecidableEq, Repr

/-! ### Changes -/

structure ThreadHistoryItemChange (Json : Type u) where
  turnId : String
  item : ThreadItem Json
  startedAtMs : Option Int := none
  completedAtMs : Option Int := none
deriving DecidableEq, Repr

structure ThreadHistoryTurnChange (Json : Type u) where
  turnId : String
  status : TurnStatus
  error : Option (TurnError Json)
  startedAt : Option Int
  completedAt : Option Int
  durationMs : Option Int
deriving DecidableEq, Repr

structure ThreadHistoryChangeSet (Json : Type u) where
  changedItems : List (ThreadHistoryItemChange Json) := []
  changedTurns : List (ThreadHistoryTurnChange Json) := []
  removedTurnIds : List String := []
deriving DecidableEq, Repr

/-- `from_turn` and `from_pending_turn`. -/
def ThreadHistoryTurnChange.fromTurn (turn : Turn Json) : ThreadHistoryTurnChange Json :=
  { turnId := turn.id
    status := turn.status
    error := turn.error
    startedAt := turn.startedAt
    completedAt := turn.completedAt
    durationMs := turn.durationMs }

/-! ### The builder -/

structure ThreadHistoryBuilder (Json : Type u) where
  turns : List (Turn Json) := []
  currentTurn : Option (PendingTurn Json) := none
  nextItemIndex : Nat := 1
  currentRolloutIndex : Nat := 0
  nextRolloutIndex : Nat := 0
  activeChangeSet : Option (ThreadHistoryChangeSet Json) := none

/-- What the builder does not compute itself. -/
structure BuilderTools where
  /-- `from_xml_str::<HookPromptXml>`. -/
  parseHookPromptXml : String → Option HookPromptFragment
  /-- `new_item_id()`, at an index of the rollout. -/
  newItemId : Nat → String
  /-- `Uuid::now_v7()`, for a turn that no item of the rollout opens. -/
  freshTurnId : String

/-- No text is a hook prompt. -/
def BuilderTools.plain : BuilderTools where
  parseHookPromptXml _ := none
  newItemId index := "hook-" ++ toString index
  freshTurnId := "fresh"

def parseHookPromptFragment (tools : BuilderTools) (text : String) : Option HookPromptFragment :=
  (tools.parseHookPromptXml (ApplyPatch.trim text)).filter fun fragment =>
    ApplyPatch.trim fragment.hookRunId ≠ ""

/-- The prompt that one part of a message holds. -/
def hookPromptFragmentOf (tools : BuilderTools) : Rollout.ContentItem → Option HookPromptFragment
  | .inputText text => parseHookPromptFragment tools text
  | _ => none

/-- `parse_hook_prompt_message`: every part of the message is a prompt, and there is one. -/
def parseHookPromptMessage (tools : BuilderTools) (rolloutIndex : Nat) (id : Option String)
    (content : List Rollout.ContentItem) : Option (ThreadItem Json) :=
  match content.mapM (hookPromptFragmentOf tools) with
  | none | some [] => none
  | some fragments => some (.hookPrompt (id.getD (tools.newItemId rolloutIndex)) fragments)

/-- `upsert_turn_item`. -/
def upsertTurnItem (items : List (ThreadItem Json)) (item : ThreadItem Json) : List (ThreadItem Json) :=
  upsertBy ThreadItem.id items item

namespace ThreadHistoryBuilder

variable (builder : ThreadHistoryBuilder Json) (turnId : String) (tools : BuilderTools)
  (item : ThreadItem Json)

def recordChangedItem : ThreadHistoryBuilder Json :=
  { builder with
    activeChangeSet := builder.activeChangeSet.map fun changes =>
      { changes with changedItems := changes.changedItems ++ [{ turnId, item }] } }

def recordChangedTurn (turn : Turn Json) : ThreadHistoryBuilder Json :=
  { builder with
    activeChangeSet := builder.activeChangeSet.map fun changes =>
      { changes with
        changedTurns := changes.changedTurns ++ [ThreadHistoryTurnChange.fromTurn turn] } }

def recordRemovedTurnIds (turnIds : List String) : ThreadHistoryBuilder Json :=
  { builder with
    activeChangeSet := builder.activeChangeSet.map fun changes =>
      { changes with removedTurnIds := changes.removedTurnIds ++ turnIds } }

/-- A turn without items stays if it was opened explicitly or holds a compaction. -/
def finishCurrentTurn : ThreadHistoryBuilder Json :=
  match builder.currentTurn with
  | none => builder
  | some turn =>
    if turn.items.isEmpty && !turn.openedExplicitly && !turn.sawCompaction then
      { builder with currentTurn := none }
    else { builder with currentTurn := none, turns := builder.turns ++ [turn.toTurn] }

def newTurn (id : Option String) : PendingTurn Json :=
  { id := id.getD
      (if builder.nextRolloutIndex = 0 then tools.freshTurnId
        else "rollout-" ++ toString builder.currentRolloutIndex)
    rolloutStartIndex := builder.currentRolloutIndex }

/-- A new turn is recorded and becomes the current one. -/
def openTurn (turn : PendingTurn Json) : ThreadHistoryBuilder Json :=
  { builder.recordChangedTurn turn.toTurn with currentTurn := some turn }

/-- The builder with its current turn, which is opened if there is none. -/
def ensureTurn : PendingTurn Json × ThreadHistoryBuilder Json :=
  match builder.currentTurn with
  | some turn => (turn, builder)
  | none =>
    let turn := builder.newTurn tools none
    (turn, builder.openTurn turn)

/-- The items of the current turn become `items`, because of `item`. -/
def setCurrentItems (turn : PendingTurn Json) (items : List (ThreadItem Json))
    (item : ThreadItem Json) : ThreadHistoryBuilder Json :=
  { builder with currentTurn := some { turn with items } }.recordChangedItem turn.id item

def pushItemInCurrentTurn : ThreadHistoryBuilder Json :=
  let (turn, builder) := builder.ensureTurn tools
  builder.setCurrentItems turn (turn.items ++ [item]) item

def upsertItemInCurrentTurn : ThreadHistoryBuilder Json :=
  let (turn, builder) := builder.ensureTurn tools
  builder.setCurrentItems turn (upsertTurnItem turn.items item) item

/-- The first finished turn with the id is changed. -/
def updateFinishedTurn (change : Turn Json → Turn Json) : ThreadHistoryBuilder Json :=
  { builder with turns := updateFirst Turn.id turnId change builder.turns }

def upsertItemInFinishedTurn : ThreadHistoryBuilder Json :=
  if builder.turns.any fun turn => turn.id = turnId then
    (builder.updateFinishedTurn turnId fun turn =>
      { turn with items := upsertTurnItem turn.items item }).recordChangedItem turnId item
  else builder

/-- An item for a turn that is not known is dropped. -/
def upsertItemInTurnId : ThreadHistoryBuilder Json :=
  match builder.currentTurn with
  | some turn =>
    if turn.id = turnId then
      builder.setCurrentItems turn (upsertTurnItem turn.items item) item
    else builder.upsertItemInFinishedTurn turnId item
  | none => builder.upsertItemInFinishedTurn turnId item

/-- `next_item_id`: the id and the builder that has used it. -/
def nextItemId : String × ThreadHistoryBuilder Json :=
  ("item-" ++ toString builder.nextItemIndex,
    { builder with nextItemIndex := builder.nextItemIndex + 1 })

end ThreadHistoryBuilder

/-! ### Messages -/

/-- `build_user_inputs`. -/
def buildUserInputs (payload : UserMessageEvent) : List UserInput :=
  (if ApplyPatch.trim payload.message = "" then []
    else [.text payload.message payload.textElements]) ++
  ((payload.images.getD []).zipIdx.map fun image =>
    .image image.1 (payload.imageDetails[image.2]?).join) ++
  (payload.localImages.zipIdx.map fun path =>
    .localImage path.1 (payload.localImageDetails[path.2]?).join) ++
  ((payload.audio.getD []).map .audio) ++
  payload.localAudio.map .localAudio

/-- A reasoning item with one more text. -/
def ThreadItem.extendReasoning (isSummary : Bool) (text : String) :
    ThreadItem Json → Option (ThreadItem Json)
  | .reasoning id summary content =>
    some (if isSummary then .reasoning id (summary ++ [text]) content
      else .reasoning id summary (content ++ [text]))
  | _ => none

namespace ThreadHistoryBuilder

variable (builder : ThreadHistoryBuilder Json) (tools : BuilderTools)

def handleResponseItem : Rollout.ResponseItem Json → ThreadHistoryBuilder Json
  | .message id role content _ _ =>
    if role ≠ "user" then builder
    else
      match parseHookPromptMessage tools builder.currentRolloutIndex id content with
      | none => builder
      | some item => builder.pushItemInCurrentTurn tools item
  | _ => builder

/-- A turn that a user message closes: it was not opened explicitly, and is more than a
compaction. -/
def closesForUserMessage (turn : PendingTurn Json) : Bool :=
  !turn.openedExplicitly && !(turn.sawCompaction && turn.items.isEmpty)

def handleUserMessage (payload : UserMessageEvent) : ThreadHistoryBuilder Json :=
  let builder :=
    match builder.currentTurn with
    | some turn => if closesForUserMessage turn then builder.finishCurrentTurn else builder
    | none => builder
  let (id, builder) := builder.nextItemId
  builder.pushItemInCurrentTurn tools (.userMessage id payload.clientId (buildUserInputs payload))

def handleAgentMessage (text : String) (phase : Option String) (memoryCitation : Option Json) :
    ThreadHistoryBuilder Json :=
  if text = "" then builder
  else
    let (id, builder) := builder.nextItemId
    builder.pushItemInCurrentTurn tools (.agentMessage id text phase memoryCitation)

/-- `handle_agent_reasoning` for a summary, `handle_agent_reasoning_raw_content` otherwise:
the text goes to the last item if that is a reasoning item. -/
def handleReasoning (isSummary : Bool) (text : String) : ThreadHistoryBuilder Json :=
  if text = "" then builder
  else
    let (turn, builder) := builder.ensureTurn tools
    match turn.items.getLast?.bind (ThreadItem.extendReasoning isSummary text) with
    | some item => builder.setCurrentItems turn (turn.items.dropLast ++ [item]) item
    | none =>
      let (id, builder) := builder.nextItemId
      builder.pushItemInCurrentTurn tools
        (if isSummary then .reasoning id [text] [] else .reasoning id [] [text])

def handleAgentReasoning (text : String) : ThreadHistoryBuilder Json :=
  builder.handleReasoning tools true text

def handleAgentReasoningRawContent (text : String) : ThreadHistoryBuilder Json :=
  builder.handleReasoning tools false text

def handleContextCompacted : ThreadHistoryBuilder Json :=
  let (id, builder) := builder.nextItemId
  builder.pushItemInCurrentTurn tools (.contextCompaction id)

/-! ### Items of tools and reviews -/

def upsertItemByRoute (route : ItemRoute) (turnId : String) (item : ThreadItem Json) :
    ThreadHistoryBuilder Json :=
  match route with
  | .currentTurn => builder.upsertItemInCurrentTurn tools item
  | .turnId => builder.upsertItemInTurnId turnId item
  | .turnIdIfAny =>
    if turnId = "" then builder.upsertItemInCurrentTurn tools item
    else builder.upsertItemInTurnId turnId item

def handleGuardianAssessment (status : GuardianAssessmentStatus) (turnId : String)
    (item : Option (ToolItem Json)) : ThreadHistoryBuilder Json :=
  match status, item with
  | .approved, _ | _, none => builder
  | _, some item => builder.upsertItemByRoute tools .turnIdIfAny turnId (.tool item)

/-- An item of a review opens the turn that it names, if the turn is not known. -/
def upsertReviewModeItem (turnId : Option String) (item : ThreadItem Json) :
    ThreadHistoryBuilder Json :=
  match turnId with
  | none => builder.upsertItemInCurrentTurn tools item
  | some turnId =>
    let currentTurnMatches := builder.currentTurn.any fun turn => turn.id = turnId
    let builder :=
      if !currentTurnMatches && !builder.turns.any fun turn => turn.id = turnId then
        let builder := builder.finishCurrentTurn
        builder.openTurn (builder.newTurn tools (some turnId))
      else builder
    builder.upsertItemInTurnId turnId item

/-- The id that a payload carries, or the next one. -/
def itemIdOr (itemId : Option String) : String × ThreadHistoryBuilder Json :=
  match itemId with
  | some id => (id, builder)
  | none => builder.nextItemId

def handleEnteredReviewMode (turnId itemId userFacingHint : Option String) :
    ThreadHistoryBuilder Json :=
  let (id, builder) := builder.itemIdOr itemId
  builder.upsertReviewModeItem tools turnId
    (.enteredReviewMode id (userFacingHint.getD "Review requested."))

def handleExitedReviewMode (turnId itemId : Option String) (review : String) :
    ThreadHistoryBuilder Json :=
  let (id, builder) := builder.itemIdOr itemId
  builder.upsertReviewModeItem tools turnId (.exitedReviewMode id review)

end ThreadHistoryBuilder

def TurnItem.isReviewModeItem : TurnItem Json → Bool
  | .enteredReviewMode .. | .exitedReviewMode .. => true
  | _ => false

/-- What `ThreadItem::from` makes of an item with `should_upsert`: the other items are built
from other events. -/
def TurnItem.upserted : TurnItem Json → Option (ThreadItem Json)
  | .plan id text => if text = "" then none else some (.plan id text)
  | .hookPrompt id fragments => some (.hookPrompt id fragments)
  | .commandExecution id body => some (.tool { kind := .commandExecution, id, body })
  | .dynamicToolCall id body => some (.tool { kind := .dynamicToolCall, id, body })
  | .collabAgentToolCall id body => some (.tool { kind := .collabAgentToolCall, id, body })
  | .subAgentActivity id body => some (.tool { kind := .subAgentActivity, id, body })
  | .extension item => some (.tool item)
  | .enteredReviewMode id userFacingHint => some (.enteredReviewMode id userFacingHint)
  | .exitedReviewMode id review => some (.exitedReviewMode id review)
  | .userMessage | .agentMessage | .reasoning | .webSearch | .imageView | .imageGeneration
  | .fileChange | .mcpToolCall | .contextCompaction => none

/-! ### The life of a turn -/

/-- The error of an event, as a turn holds it. -/
def ErrorEvent.toTurnError (payload : ErrorEvent Json) : TurnError Json :=
  { message := payload.message, codexErrorInfo := payload.codexErrorInfo }

def Turn.fail (error : TurnError Json) (turn : Turn Json) : Turn Json :=
  { turn with status := .failed, error := some error }

/-- `apply_abort`. -/
def Turn.abort (completedAt durationMs : Option Int) (turn : Turn Json) : Turn Json :=
  { turn with status := .interrupted, completedAt, durationMs }

/-- `apply_completion`. -/
def Turn.complete (terminalError : Option (TurnError Json)) (completedAt durationMs : Option Int)
    (turn : Turn Json) : Turn Json :=
  let turn : Turn Json :=
    match terminalError with
    | some error => turn.fail error
    | none =>
      if turn.status = .completed ∨ turn.status = .inProgress then
        { turn with status := .completed }
      else turn
  { turn with completedAt, durationMs }

namespace ThreadHistoryBuilder

variable (builder : ThreadHistoryBuilder Json) (tools : BuilderTools)

def handleMaterializedItemLifecycle (turnId : String) (item : TurnItem Json) :
    ThreadHistoryBuilder Json :=
  match item.upserted with
  | none => builder
  | some upserted =>
    if item.isReviewModeItem then builder.upsertReviewModeItem tools (some turnId) upserted
    else builder.upsertItemInTurnId turnId upserted

/-- The metadata of the current turn changes, and the change is recorded. -/
def amendCurrentTurn (turn : PendingTurn Json) (change : Turn Json → Turn Json) :
    ThreadHistoryBuilder Json :=
  { builder with
    currentTurn := some { turn with toTurn := change turn.toTurn } }.recordChangedTurn
      (change turn.toTurn)

/-- The metadata of a finished turn changes, and the change is recorded. -/
def amendFinishedTurn (turn : Turn Json) (change : Turn Json → Turn Json) : ThreadHistoryBuilder Json :=
  (builder.updateFinishedTurn turn.id change).recordChangedTurn (change turn)

def handleError (payload : ErrorEvent Json) : ThreadHistoryBuilder Json :=
  if !payload.affectsTurnStatus then builder
  else
    match builder.currentTurn with
    | some turn => builder.amendCurrentTurn turn (Turn.fail payload.toTurnError)
    | none => builder

/-- The turn that an event is about: the current one or a finished one with the id, or else
the current one. -/
inductive EventTarget (Json : Type u) where
  | current (turn : PendingTurn Json)
  | finished (turn : Turn Json)
  | missing

def eventTarget (turnId : Option String) : EventTarget Json :=
  match builder.currentTurn with
  | some turn =>
    if some turn.id = turnId then .current turn
    else
      match builder.turns.find? fun finished => some finished.id = turnId with
      | some finished => .finished finished
      | none => .current turn
  | none =>
    match builder.turns.find? fun finished => some finished.id = turnId with
    | some finished => .finished finished
    | none => .missing

def handleTurnAborted (turnId : Option String) (completedAt durationMs : Option Int) :
    ThreadHistoryBuilder Json :=
  match builder.eventTarget turnId with
  | .current turn => builder.amendCurrentTurn turn (Turn.abort completedAt durationMs)
  | .finished turn => builder.amendFinishedTurn turn (Turn.abort completedAt durationMs)
  | .missing => builder

def handleTurnStarted (turnId : String) (startedAt : Option Int) : ThreadHistoryBuilder Json :=
  let builder := builder.finishCurrentTurn
  builder.openTurn
    { builder.newTurn tools (some turnId) with
      status := .inProgress, startedAt, openedExplicitly := true }

def handleTurnComplete (turnId : String) (error : Option (ErrorEvent Json))
    (completedAt durationMs : Option Int) : ThreadHistoryBuilder Json :=
  let change := Turn.complete (error.map ErrorEvent.toTurnError) completedAt durationMs
  match builder.eventTarget (some turnId) with
  | .current turn => (builder.amendCurrentTurn turn change).finishCurrentTurn
  | .finished turn => builder.amendFinishedTurn turn change
  | .missing => builder

def handleCompacted : ThreadHistoryBuilder Json :=
  let (turn, builder) := builder.ensureTurn tools
  { builder with currentTurn := some { turn with sawCompaction := true } }

def handleThreadRollback (numTurns : UInt32) : ThreadHistoryBuilder Json :=
  let builder := builder.finishCurrentTurn
  let n := numTurns.toNat
  let removedTurnIds :=
    if builder.turns.length ≤ n then builder.turns.map Turn.id
    else if n = 0 then []
    else (builder.turns.drop (builder.turns.length - n)).map Turn.id
  let turns :=
    if builder.turns.length ≤ n then [] else builder.turns.take (builder.turns.length - n)
  let itemCount := (turns.map fun turn => turn.items.length).sum
  { builder.recordRemovedTurnIds removedTurnIds with turns, nextItemIndex := itemCount + 1 }

/-! ### Rollouts -/

def handleEvent : EventMsg Json → ThreadHistoryBuilder Json
  | .userMessage payload => builder.handleUserMessage tools payload
  | .agentMessage message phase memoryCitation =>
    builder.handleAgentMessage tools message phase memoryCitation
  | .agentReasoning text => builder.handleAgentReasoning tools text
  | .agentReasoningRawContent text => builder.handleAgentReasoningRawContent tools text
  | .tool event turnId item => builder.upsertItemByRoute tools event.route turnId (.tool item)
  | .guardianAssessment status turnId item =>
    builder.handleGuardianAssessment tools status turnId item
  | .contextCompacted => builder.handleContextCompacted tools
  | .enteredReviewMode turnId itemId userFacingHint =>
    builder.handleEnteredReviewMode tools turnId itemId userFacingHint
  | .exitedReviewMode turnId itemId review =>
    builder.handleExitedReviewMode tools turnId itemId review
  | .itemStarted turnId item
  | .itemCompleted turnId item => builder.handleMaterializedItemLifecycle tools turnId item
  | .error payload => builder.handleError payload
  | .threadRolledBack numTurns => builder.handleThreadRollback numTurns
  | .turnAborted turnId completedAt durationMs =>
    builder.handleTurnAborted turnId completedAt durationMs
  | .turnStarted turnId startedAt => builder.handleTurnStarted tools turnId startedAt
  | .turnComplete turnId error completedAt durationMs =>
    builder.handleTurnComplete turnId error completedAt durationMs
  | .other => builder

/-- `handle_rollout_item` after the indices have moved on. -/
def handleItem : RolloutItem Json → ThreadHistoryBuilder Json
  | .eventMsg event => builder.handleEvent tools event
  | .compacted _ => builder.handleCompacted tools
  | .responseItem envelope => builder.handleResponseItem tools envelope.item
  | _ => builder

def advanceRolloutIndex : ThreadHistoryBuilder Json :=
  { builder with
    currentRolloutIndex := builder.nextRolloutIndex
    nextRolloutIndex := builder.nextRolloutIndex + 1 }

def handleRolloutItem (item : RolloutItem Json) : ThreadHistoryBuilder Json :=
  builder.advanceRolloutIndex.handleItem tools item

def handleRolloutItems (items : List (RolloutItem Json)) : ThreadHistoryBuilder Json :=
  items.foldl (fun builder item => builder.handleRolloutItem tools item) builder

/-- `finish`. -/
def finish : List (Turn Json) :=
  builder.finishCurrentTurn.turns

end ThreadHistoryBuilder

def buildTurnsFromRolloutItems (tools : BuilderTools) (items : List (RolloutItem Json)) :
    List (Turn Json) :=
  (({} : ThreadHistoryBuilder Json).handleRolloutItems tools items).finish

end WeaveCodex.ThreadHistory
