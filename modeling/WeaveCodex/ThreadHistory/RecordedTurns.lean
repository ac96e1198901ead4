/-
Purpose: Rollouts whose turns are started and completed, with the messages of the user in
  them: what such a rollout may hold inside and outside its turns, and the messages that
  the turns show and the history keeps.
Trusted boundary: the rollout items of the builder and those of the session's
  reconstruction are two readings of one file, related by `toRollout`
-/
import WeaveCodex.Rollout.Proofs.KeptMessages
import WeaveCodex.ThreadHistory.Builder

namespace WeaveCodex.ThreadHistory

open Rollout (HistoryTools ResponseItemEnvelope)

universe u

variable {Json : Type u}

/-! ### One file, two readers -/

/-- What the reconstruction of a session reads of an event. -/
def EventMsg.toRollout : EventMsg Json → Rollout.EventMsg
  | .threadRolledBack numTurns => .threadRolledBack numTurns
  | .turnStarted turnId _ => .turnStarted turnId
  | .turnComplete turnId .. => .turnComplete turnId
  | .turnAborted turnId .. => .turnAborted turnId
  | .userMessage _ => .userMessage
  | _ => .other

def RolloutItem.toRollout : RolloutItem Json → Rollout.RolloutItem Json
  | .eventMsg event => .eventMsg event.toRollout
  | .compacted item => .compacted item
  | .responseItem envelope => .responseItem envelope
  | .interAgentCommunication communication => .interAgentCommunication communication
  | .interAgentCommunicationMetadata triggerTurn => .interAgentCommunicationMetadata triggerTurn
  | .turnContext context => .turnContext context
  | .worldState state => .worldState state
  | .securityRiskScore => .securityRiskScore
  | .sessionMeta contextWindow => .sessionMeta contextWindow

/-! ### Messages -/

/-- A message of the user as a turn shows it, with the id that the client gave it. -/
abbrev ShownMessage := Option String × List UserInput

def ThreadItem.asUserMessage : ThreadItem Json → Option ShownMessage
  | .userMessage _ clientId content => some (clientId, content)
  | _ => none

def Turn.userMessages (turn : Turn Json) : List ShownMessage :=
  turn.items.filterMap ThreadItem.asUserMessage

/-- The messages of the user in the turns that are shown. -/
def shownUserMessages (turns : List (Turn Json)) : List ShownMessage :=
  turns.flatMap Turn.userMessages

/-- What a turn shows of a message. -/
def UserMessageEvent.shown (payload : UserMessageEvent) : ShownMessage :=
  (payload.clientId, buildUserInputs payload)

def RolloutItem.messageEvent : RolloutItem Json → Option UserMessageEvent
  | .eventMsg (.userMessage payload) => some payload
  | _ => none

/-- The messages of the user that are recorded as events. -/
def messageEvents (items : List (RolloutItem Json)) : List UserMessageEvent :=
  items.filterMap RolloutItem.messageEvent

def RolloutItem.messageItem (tools : HistoryTools Json) :
    RolloutItem Json → Option (ResponseItemEnvelope Json)
  | .responseItem envelope =>
    if Rollout.isUserMessage tools envelope.item then some envelope else none
  | _ => none

/-- The messages of the user that are recorded as response items. -/
def messageItems (tools : HistoryTools Json) (items : List (RolloutItem Json)) :
    List (ResponseItemEnvelope Json) :=
  items.filterMap (RolloutItem.messageItem tools)

/-! ### Items inside and outside of turns -/

/-- The item may stand between the start and the completion of a turn. -/
def RolloutItem.standsInTurn : RolloutItem Json → Bool
  | .eventMsg (.turnStarted ..) | .eventMsg (.turnComplete ..)
  | .eventMsg (.threadRolledBack _) | .compacted _ => false
  | _ => true

/-- The ids that the rollout itself gives to items of a turn. -/
def RolloutItem.givenIds : RolloutItem Json → List String
  | .eventMsg (.tool _ _ item) => [item.id]
  | .eventMsg (.guardianAssessment _ _ item) => item.toList.map ToolItem.id
  | .eventMsg (.enteredReviewMode _ itemId _)
  | .eventMsg (.exitedReviewMode _ itemId _) => itemId.toList
  | .eventMsg (.itemStarted _ item)
  | .eventMsg (.itemCompleted _ item) => item.upserted.toList.map ThreadItem.id
  | _ => []

/-- The turn that an item of a review names. -/
def RolloutItem.reviewedTurnIds : RolloutItem Json → List String
  | .eventMsg (.enteredReviewMode turnId _ _)
  | .eventMsg (.exitedReviewMode turnId _ _) => turnId.toList
  | .eventMsg (.itemStarted turnId item)
  | .eventMsg (.itemCompleted turnId item) => if item.isReviewModeItem then [turnId] else []
  | _ => []

/-- The item stands in a turn: it opens and closes none, and takes no id that the builder
numbers itself. -/
structure InTurn (startedTurnIds : List String) (item : RolloutItem Json) : Prop where
  stands : item.standsInTurn = true
  given : ∀ id ∈ item.givenIds, ∀ index : Nat, id ≠ "item-" ++ toString index
  reviewed : ∀ turnId ∈ item.reviewedTurnIds, turnId ∈ startedTurnIds

/-- A prompt of a hook, which turns show as an item. -/
def isHookPrompt (tools : BuilderTools) : Rollout.ResponseItem Json → Bool
  | .message _ role content _ _ =>
    role = "user" && ((content.mapM (hookPromptFragmentOf tools)).getD []) ≠ []
  | _ => false

/-- The item may stand between turns: it belongs to none. -/
def RolloutItem.standsOutside (builderTools : BuilderTools) (tools : HistoryTools Json) :
    RolloutItem Json → Bool
  | .eventMsg .other => true
  | .eventMsg _ | .compacted _ => false
  | .responseItem envelope =>
    !Rollout.isUserMessage tools envelope.item && !isHookPrompt builderTools envelope.item
  | _ => true

/-! ### Recorded turns -/

/-- A turn as a rollout records it, with the items before it that belong to no turn. -/
structure RecordedTurn (Json : Type u) where
  before : List (RolloutItem Json) := []
  turnId : String
  startedAt : Option Int := none
  body : List (RolloutItem Json)
  error : Option (ErrorEvent Json) := none
  completedAt : Option Int := none
  durationMs : Option Int := none

def RecordedTurn.started (turn : RecordedTurn Json) : RolloutItem Json :=
  .eventMsg (.turnStarted turn.turnId turn.startedAt)

def RecordedTurn.completed (turn : RecordedTurn Json) : RolloutItem Json :=
  .eventMsg (.turnComplete turn.turnId turn.error turn.completedAt turn.durationMs)

def RecordedTurn.items (turn : RecordedTurn Json) : List (RolloutItem Json) :=
  turn.before ++ turn.started :: turn.body ++ [turn.completed]

/-- The markers of rollbacks. -/
def rollbackMarkers (markers : List UInt32) : List (RolloutItem Json) :=
  markers.map fun numTurns => .eventMsg (.threadRolledBack numTurns)

/-- The turns of a rollout and the items after them, where each message of the user is
recorded as an event and as a response item. -/
structure Recorded (builderTools : BuilderTools) (tools : HistoryTools Json)
    (Records : UserMessageEvent → ResponseItemEnvelope Json → Prop)
    (turns : List (RecordedTurn Json)) (after : List (RolloutItem Json)) : Prop where
  before : ∀ turn ∈ turns, ∀ item ∈ turn.before, item.standsOutside builderTools tools = true
  after : ∀ item ∈ after, item.standsOutside builderTools tools = true
  body : ∀ earlier turn later, turns = earlier ++ turn :: later → ∀ item ∈ turn.body,
    InTurn ((earlier ++ [turn]).map RecordedTurn.turnId) item
  messages : ∀ turn ∈ turns,
    List.Forall₂ Records (messageEvents turn.body) (messageItems tools turn.body)

/-- The items of a rollout before its rollbacks. -/
def recordedItems (turns : List (RecordedTurn Json)) (after : List (RolloutItem Json)) :
    List (RolloutItem Json) :=
  turns.flatMap RecordedTurn.items ++ after

/-- The starts of turns in the history, of which a rollback drops the last ones. -/
def historyBoundaries (tools : HistoryTools Json) (items : List (RolloutItem Json)) :
    List (ResponseItemEnvelope Json) :=
  Rollout.boundaries tools ((items.map RolloutItem.toRollout).flatMap (Rollout.recordedItems tools))

/-- The last turns hold as many messages of the user as the last starts of turns in the
history are messages of the user, if both are counted back as far as the rollbacks go. -/
def RollbacksAgree (tools : HistoryTools Json) (turns : List (RecordedTurn Json))
    (after : List (RolloutItem Json)) (markers : List UInt32) : Prop :=
  let count := (markers.map UInt32.toNat).sum
  let starts := historyBoundaries tools (recordedItems turns after)
  ((turns.drop (turns.length - count)).flatMap fun turn => messageEvents turn.body).length =
    (Rollout.userMessages tools (starts.drop (starts.length - count))).length

end WeaveCodex.ThreadHistory
