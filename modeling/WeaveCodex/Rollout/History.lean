/-
Purpose: The conversation history: recording items, dropping user turns at a rollback, and
  the history that a legacy compaction rebuilds.
Trusted boundary: translation of `core/src/context_manager/history.rs`
  (`record_items_with_metadata`, `replace_annotated`, `drop_last_n_user_turns`),
  `core/src/event_mapping.rs` and `core/src/compact.rs` (`build_compacted_history`); the
  recognisers of contextual texts, token counts and truncation are parameters, item bodies that
  no modelled function reads are one value
-/
import Mathlib.Algebra.GroupWithZero.Nat
import Mathlib.Data.String.Basic

namespace WeaveCodex.Rollout

universe u

/-! ### Items -/

inductive ContentItem where
  | inputText (text : String)
  | inputImage (imageUrl : String) (detail : Option String)
  | inputAudio (audioUrl : String)
  | outputText (text : String)
deriving DecidableEq, Repr

inductive AgentMessageInputContent where
  | inputText (text : String)
  | encryptedContent (encryptedContent : String)
deriving DecidableEq, Repr

/-- `InternalChatMessageMetadataPassthrough`, as far as it is read. -/
structure MessageMetadata where
  turnId : Option String
deriving DecidableEq, Repr

/-- The items that are neither messages nor outputs of tools. -/
inductive PlainItemKind where
  | additionalTools | reasoning | localShellCall | functionCall | toolSearchCall | toolSearchOutput
  | webSearchCall | imageGenerationCall | customToolCall | compaction | compactionTrigger
  | contextCompaction | other
deriving DecidableEq, Repr

inductive ResponseItem (Json : Type u) where
  | message (id : Option String) (role : String) (content : List ContentItem)
      (phase : Option String) (metadata : Option MessageMetadata)
  | agentMessage (id : Option String) (author recipient : String)
      (content : List AgentMessageInputContent) (metadata : Option MessageMetadata)
  | functionCallOutput (id : Option String) (callId : String) (output : Json)
      (metadata : Option MessageMetadata)
  | customToolCallOutput (id : Option String) (callId : String) (name : Option String)
      (output : Json) (metadata : Option MessageMetadata)
  | plain (kind : PlainItemKind) (body : Json) (metadata : Option MessageMetadata)
deriving DecidableEq, Repr

structure CodexHarnessMetadata where
  clientAuthored : Bool
deriving DecidableEq, Repr

structure ResponseItemEnvelope (Json : Type u) where
  item : ResponseItem Json
  metadata : Option CodexHarnessMetadata := none
deriving DecidableEq, Repr

structure TurnContextItem where
  turnId : Option String
  model : String
  compHash : Option String
  realtimeActive : Option Bool
deriving DecidableEq, Repr

/-- What is known about texts, tool outputs, ids and world states. -/
structure HistoryTools (Json : Type u) where
  /-- `is_contextual_user_fragment`, on an input text. -/
  isContextualUserText : String → Bool
  /-- `is_contextual_dev_fragment`, on an input text. -/
  isContextualDevText : String → Bool
  /-- The text is a serialised `InterAgentCommunication`. -/
  isInterAgentText : String → Bool
  /-- `ModelSwitchInstructions::matches_text`. -/
  isModelSwitchText : String → Bool
  /-- `truncate_function_output_payload` with the policy of the turn. -/
  truncateOutput : Json → Json
  /-- The text of a user message that `parse_turn_item` accepts as one. -/
  userMessage : List ContentItem → Option String
  summaryPrefix : String
  approxTokenCount : String → Nat
  /-- `truncate_text(text, TruncationPolicy::Tokens(limit))`. -/
  truncateText : String → Nat → String
  parseUuidV7 : String → Option String
  applyMergePatch : Json → Json → Json

def u64Max : Nat := 2 ^ 64 - 1

def saturatingAdd (left right : Nat) : Nat := min (left + right) u64Max

variable {Json : Type u}

/-- `turn_id()`: the turn id stamped on an item, unless it is empty. -/
def ResponseItem.turnId (item : ResponseItem Json) : Option String :=
  let metadata :=
    match item with
    | .message _ _ _ _ metadata | .agentMessage _ _ _ _ metadata
    | .functionCallOutput _ _ _ metadata | .customToolCallOutput _ _ _ _ metadata
    | .plain _ _ metadata => metadata
  (metadata.bind MessageMetadata.turnId).filter (· ≠ "")

section Recognisers

variable (tools : HistoryTools Json)

def isContextualUserFragment : ContentItem → Bool
  | .inputText text => tools.isContextualUserText text
  | _ => false

variable (message : List ContentItem)

def isContextualUserMessageContent : Bool :=
  message.any (isContextualUserFragment tools)

def isContextualDevFragment : ContentItem → Bool
  | .inputText text => tools.isContextualDevText text
  | _ => false

def isContextualDevMessageContent : Bool :=
  message.any (isContextualDevFragment tools)

def hasNonContextualDevMessageContent : Bool :=
  message.any fun content => !isContextualDevFragment tools content

/-- `InterAgentCommunication::is_message_content`. -/
def isInterAgentInstructionContent : List ContentItem → Bool
  | [.inputText text] | [.outputText text] => tools.isInterAgentText text
  | _ => false

def isUserTurnBoundary : ResponseItem Json → Bool
  | .agentMessage .. => true
  | .message _ role content _ _ =>
    (role = "user" && !isContextualUserMessageContent tools content) ||
      (role = "assistant" && isInterAgentInstructionContent tools content)
  | _ => false

end Recognisers

def isApiMessage : ResponseItem Json → Bool
  | .message _ role _ _ _ => role ≠ "system"
  | .plain .compactionTrigger _ _ | .plain .other _ _ => false
  | _ => true

def processItem (tools : HistoryTools Json) : ResponseItem Json → ResponseItem Json
  | .functionCallOutput id callId output metadata =>
    .functionCallOutput id callId (tools.truncateOutput output) metadata
  | .customToolCallOutput id callId name output metadata =>
    .customToolCallOutput id callId name (tools.truncateOutput output) metadata
  | item => item

/-! ### The context manager -/

structure ContextManager (Json : Type u) where
  items : List (ResponseItemEnvelope Json) := []
  historyVersion : Nat := 0
  referenceContextItem : Option TurnContextItem := none
  worldStateBaseline : Option Json := none

namespace ContextManager

variable (tools : HistoryTools Json) (manager : ContextManager Json)

/-- `record_items_with_metadata` for one item. -/
def recordItem (envelope : ResponseItemEnvelope Json) : ContextManager Json :=
  if !isApiMessage envelope.item then manager
  else
    { manager with
      items := manager.items ++
        [{ item := processItem tools envelope.item, metadata := envelope.metadata }] }

def replaceAnnotated (items : List (ResponseItemEnvelope Json)) : ContextManager Json :=
  { manager with
    items
    historyVersion := saturatingAdd manager.historyVersion 1
    worldStateBaseline := none }

/-- The loop of `user_message_positions` from an index on. -/
def userMessagePositions (tools : HistoryTools Json) (index : Nat) :
    List (ResponseItemEnvelope Json) → List Nat
  | [] => []
  | envelope :: envelopes =>
    let later := userMessagePositions tools (index + 1) envelopes
    if isUserTurnBoundary tools envelope.item then index :: later else later

/-- The loop of `trim_pre_turn_context_updates`: the cut moves up over contextual messages,
never beyond the first instruction turn. -/
def trimPreTurnContextUpdates (tools : HistoryTools Json)
    (snapshot : List (ResponseItemEnvelope Json)) (firstInstructionTurnIdx : Nat) :
    ContextManager Json → Nat → ContextManager Json × Nat
  | manager, 0 => (manager, 0)
  | manager, cutIdx + 1 =>
    if cutIdx + 1 ≤ firstInstructionTurnIdx then (manager, cutIdx + 1)
    else
      match (snapshot[cutIdx]?).map ResponseItemEnvelope.item with
      | some (.message _ role content _ _) =>
        if role = "developer" ∧ isContextualDevMessageContent tools content = true then
          let manager :=
            if hasNonContextualDevMessageContent tools content then
              { manager with referenceContextItem := none }
            else manager
          trimPreTurnContextUpdates tools snapshot firstInstructionTurnIdx manager cutIdx
        else if role = "user" ∧ isContextualUserMessageContent tools content = true then
          trimPreTurnContextUpdates tools snapshot firstInstructionTurnIdx manager cutIdx
        else (manager, cutIdx + 1)
      | _ => (manager, cutIdx + 1)

/-- A developer message of the first turn loses its notes about a switch of the model, and
is dropped if nothing is left of it. -/
def withoutModelSwitch (firstTurnId : String)
    (envelope : ResponseItemEnvelope Json) : Option (ResponseItemEnvelope Json) :=
  match envelope.item with
  | .message id role content phase metadata =>
    if envelope.item.turnId = some firstTurnId ∧ role = "developer" then
      let content := content.filter fun
        | .inputText text => !tools.isModelSwitchText text
        | _ => true
      if content = [] then none
      else some { envelope with item := .message id role content phase metadata }
    else some envelope
  | _ => some envelope

def dropLastNUserTurns (numTurns : UInt32) : ContextManager Json :=
  if numTurns = 0 then manager
  else
    let snapshot := manager.items
    let userPositions := userMessagePositions tools 0 snapshot
    match userPositions with
    | [] => manager.replaceAnnotated snapshot
    | firstInstructionTurnIdx :: _ =>
      let nFromEnd := numTurns.toNat
      let cutIdx :=
        if userPositions.length ≤ nFromEnd then firstInstructionTurnIdx
        else userPositions.getD (userPositions.length - nFromEnd) firstInstructionTurnIdx
      let (manager, cutIdx) :=
        manager.trimPreTurnContextUpdates tools snapshot firstInstructionTurnIdx cutIdx
      let retainedItems := snapshot.take cutIdx
      let firstTurnId :=
        ((snapshot[firstInstructionTurnIdx]?).map ResponseItemEnvelope.item).bind ResponseItem.turnId
      let retainedItems :=
        match firstTurnId with
        | some firstTurnId =>
          if cutIdx = firstInstructionTurnIdx then
            retainedItems.filterMap (withoutModelSwitch tools firstTurnId)
          else retainedItems
        | none => retainedItems
      manager.replaceAnnotated retainedItems

end ContextManager

/-! ### Legacy compactions -/

structure CompactedUserMessage where
  message : String
  metadata : Option MessageMetadata
  harnessMetadata : Option CodexHarnessMetadata
deriving DecidableEq, Repr

variable (tools : HistoryTools Json)

/-- `is_summary_message`. -/
def isSummaryMessage (message : String) : Bool :=
  (tools.summaryPrefix ++ "\n").toList.isPrefixOf message.toList

def compactedUserMessage (envelope : ResponseItemEnvelope Json) : Option CompactedUserMessage :=
  match envelope.item with
  | .message _ role content _ metadata =>
    if role = "user" then
      match tools.userMessage content with
      | none => none
      | some message =>
        if isSummaryMessage tools message then none
        else some { message, metadata, harnessMetadata := envelope.metadata }
    else none
  | _ => none

def collectAnnotatedUserMessages
    (items : List (ResponseItemEnvelope Json)) : List CompactedUserMessage :=
  items.filterMap (compactedUserMessage tools)

def compactUserMessageMaxTokens : Nat := 20000

/-- The loop over the user messages, newest first, with the tokens that remain; the
messages come newest first. -/
def selectMessages (tools : HistoryTools Json) :
    Nat → List CompactedUserMessage → List CompactedUserMessage
  | _, [] => []
  | remaining, message :: messages =>
    if remaining = 0 then []
    else
      let tokens := tools.approxTokenCount message.message
      if tokens ≤ remaining then message :: selectMessages tools (remaining - tokens) messages
      else [{ message with message := tools.truncateText message.message remaining }]

/-- A user message with one text. -/
def userText (text : String) (metadata : Option MessageMetadata) : ResponseItem Json :=
  .message none "user" [.inputText text] none metadata

/-- `build_compacted_history`. -/
def buildCompactedHistory
    (initialContext : List (ResponseItemEnvelope Json)) (userMessages : List CompactedUserMessage)
    (summaryText : String) : List (ResponseItemEnvelope Json) :=
  let selected :=
    (selectMessages tools compactUserMessageMaxTokens userMessages.reverse).reverse
  let summaryText := if summaryText = "" then "(no summary available)" else summaryText
  initialContext ++ (selected.map fun message =>
      { item := userText message.message message.metadata, metadata := message.harnessMetadata }) ++
    [{ item := userText summaryText none }]

end WeaveCodex.Rollout
