/-
Purpose: Rebuilding a session from its rollout: the scan from the newest item back, which
  groups items into turn segments, drops rolled back ones and looks for the newest
  surviving checkpoint, and the replay of the items that the scan kept.
Trusted boundary: translation of `core/src/session/rollout_reconstruction.rs`; events that
  neither loop reads are one constructor, of a turn context and an event the fields that are
  read
-/
import WeaveCodex.Rollout.History

namespace WeaveCodex.Rollout

universe u

/-! ### Rollout items -/

structure InterAgentCommunication where
  id : Option String
  author : String
  recipient : String
  content : String
  encryptedContent : Option String
  metadata : Option MessageMetadata
  triggerTurn : Bool
deriving DecidableEq, Repr

structure CompactedItem (Json : Type u) where
  message : String
  replacementHistory : Option (List (ResponseItemEnvelope Json))
  windowNumber : Option Nat := none
  firstWindowId : Option String := none
  previousWindowId : Option String := none
  windowId : Option String := none
deriving DecidableEq, Repr

structure WorldStateItem (Json : Type u) where
  full : Bool
  state : Json
deriving DecidableEq, Repr

inductive EventMsg where
  | threadRolledBack (numTurns : UInt32)
  | turnStarted (turnId : String)
  | turnComplete (turnId : String)
  | turnAborted (turnId : Option String)
  | userMessage | other
deriving DecidableEq, Repr

inductive RolloutItem (Json : Type u) where
  /-- With the window id of its context window. -/
  | sessionMeta (contextWindow : Option String)
  | responseItem (envelope : ResponseItemEnvelope Json)
  | interAgentCommunication (communication : InterAgentCommunication)
  | interAgentCommunicationMetadata (triggerTurn : Bool)
  | compacted (compacted : CompactedItem Json)
  | turnContext (context : TurnContextItem)
  | worldState (worldState : WorldStateItem Json)
  | securityRiskScore
  | eventMsg (event : EventMsg)
deriving DecidableEq, Repr

variable {Json : Type u}

/-- `to_model_input_item`. -/
def InterAgentCommunication.toModelInputItem (communication : InterAgentCommunication) :
    ResponseItem Json :=
  let content :=
    match communication.encryptedContent with
    | some encryptedContent =>
      let messageType := if communication.triggerTurn then "NEW_TASK" else "MESSAGE"
      [.inputText ("Message Type: " ++ messageType ++ "\nTask name: " ++ communication.recipient ++
          "\nSender: " ++ communication.author ++ "\nPayload:\n"),
        .encryptedContent encryptedContent]
    | none => [.inputText communication.content]
  .agentMessage communication.id communication.author communication.recipient content
    communication.metadata

/-! ### The reverse scan -/

structure PreviousTurnSettings where
  model : String
  compHash : Option String
  realtimeActive : Option Bool
deriving DecidableEq, Repr

structure ReconstructedWindow where
  number : Nat
  firstId : Option String
  previousId : Option String
  id : Option String
deriving DecidableEq, Repr

inductive TurnReferenceContextItem where
  | neverSet | cleared
  | latest (context : TurnContextItem)
deriving DecidableEq, Repr

structure ActiveReplaySegment (Json : Type u) where
  turnId : Option String := none
  countsAsUserTurn : Bool := false
  previousTurnSettings : Option PreviousTurnSettings := none
  referenceContextItem : TurnReferenceContextItem := .neverSet
  worldStateReplay : List (RolloutItem Json) := []
  baseReplacementHistory : Option (List (ResponseItemEnvelope Json)) := none
  window : Option ReconstructedWindow := none

/-- The variables of the reverse loop. -/
structure ReverseScan (Json : Type u) where
  baseReplacementHistory : Option (List (ResponseItemEnvelope Json)) := none
  previousTurnSettings : Option PreviousTurnSettings := none
  referenceContextItem : TurnReferenceContextItem := .neverSet
  worldStateReplay : List (RolloutItem Json) := []
  window : Option ReconstructedWindow := none
  pendingRollbackTurns : Nat := 0
  rolloutSuffix : List (RolloutItem Json)
  activeSegment : Option (ActiveReplaySegment Json) := none

def turnIdsAreCompatible (activeTurnId itemTurnId : Option String) : Bool :=
  match activeTurnId, itemTurnId with
  | some activeTurnId, some itemTurnId => itemTurnId = activeTurnId
  | _, _ => true

namespace ReverseScan

variable (scan : ReverseScan Json)

def finalizeActiveSegment (segment : ActiveReplaySegment Json) : ReverseScan Json :=
  if 0 < scan.pendingRollbackTurns then
    if segment.countsAsUserTurn then
      { scan with pendingRollbackTurns := scan.pendingRollbackTurns - 1 }
    else scan
  else
    { scan with
      worldStateReplay := scan.worldStateReplay ++ segment.worldStateReplay
      baseReplacementHistory := scan.baseReplacementHistory.or segment.baseReplacementHistory
      window := scan.window.or segment.window
      previousTurnSettings :=
        if scan.previousTurnSettings.isNone && segment.countsAsUserTurn then
          segment.previousTurnSettings
        else scan.previousTurnSettings
      referenceContextItem :=
        if scan.referenceContextItem = .neverSet ∧
            (segment.countsAsUserTurn = true ∨ segment.referenceContextItem = .cleared) then
          segment.referenceContextItem
        else scan.referenceContextItem }

/-- `active_segment.take()` and its finalisation. -/
def finalize : ReverseScan Json :=
  match scan.activeSegment with
  | none => scan
  | some segment => { scan with activeSegment := none }.finalizeActiveSegment segment

/-- `active_segment.get_or_insert_with(ActiveReplaySegment::default)` and an update of it. -/
def updateSegment (update : ActiveReplaySegment Json → ActiveReplaySegment Json) : ReverseScan Json :=
  { scan with activeSegment := some (update (scan.activeSegment.getD {})) }

end ReverseScan

namespace ActiveReplaySegment

def setTurnId (segment : ActiveReplaySegment Json) (turnId : Option String) :
    ActiveReplaySegment Json :=
  { segment with turnId := segment.turnId.or turnId }

/-- A compaction, as far as the segment goes; `base_replacement_history` apart. -/
def seeCompacted (tools : HistoryTools Json) (compacted : CompactedItem Json)
    (segment : ActiveReplaySegment Json) : ActiveReplaySegment Json :=
  let compactedWindow := compacted.windowNumber.map fun number =>
    { number
      firstId := compacted.firstWindowId.bind tools.parseUuidV7
      previousId := compacted.previousWindowId.bind tools.parseUuidV7
      id := compacted.windowId.bind tools.parseUuidV7 : ReconstructedWindow }
  { segment with
    worldStateReplay := segment.worldStateReplay ++ [.compacted compacted]
    window := segment.window.or compactedWindow
    referenceContextItem :=
      if segment.referenceContextItem = .neverSet then .cleared
      else segment.referenceContextItem }

def seeTurnContext (context : TurnContextItem) (segment : ActiveReplaySegment Json) :
    ActiveReplaySegment Json :=
  let segment := segment.setTurnId context.turnId
  if turnIdsAreCompatible segment.turnId context.turnId then
    { segment with
      previousTurnSettings := some
        { model := context.model
          compHash := context.compHash
          realtimeActive := context.realtimeActive }
      referenceContextItem :=
        if segment.referenceContextItem = .neverSet then .latest context
        else segment.referenceContextItem }
  else segment

end ActiveReplaySegment

namespace ReverseScan

/-- The first `replacement_history` that a segment meets is its base, and what is newer is
the suffix. -/
def seeReplacementHistory (scan : ReverseScan Json) (newer : List (RolloutItem Json))
    (replacementHistory : Option (List (ResponseItemEnvelope Json))) : ReverseScan Json :=
  match scan.activeSegment, replacementHistory with
  | some segment, some replacementHistory =>
    if segment.baseReplacementHistory.isNone then
      { scan with
        activeSegment := some
          { segment with baseReplacementHistory := some replacementHistory }
        rolloutSuffix := newer }
    else scan
  | _, _ => scan

/-- One item of the reverse loop; `newer` are the items after it. -/
def scanItem (tools : HistoryTools Json) (scan : ReverseScan Json)
    (newer : List (RolloutItem Json)) : RolloutItem Json → ReverseScan Json
  | .compacted compacted =>
    (scan.updateSegment (·.seeCompacted tools compacted)).seeReplacementHistory newer
      compacted.replacementHistory
  | .eventMsg (.threadRolledBack numTurns) =>
    { scan with
      pendingRollbackTurns := saturatingAdd scan.pendingRollbackTurns numTurns.toNat }
  | .eventMsg (.turnComplete turnId) =>
    scan.updateSegment (·.setTurnId (some turnId))
  | .eventMsg (.turnAborted turnId) =>
    -- An abort without an id opens no segment.
    match scan.activeSegment, turnId with
    | none, none => scan
    | _, _ => scan.updateSegment (·.setTurnId turnId)
  | .eventMsg .userMessage =>
    scan.updateSegment ({ · with countsAsUserTurn := true })
  | .turnContext context => scan.updateSegment (·.seeTurnContext context)
  | .worldState worldState =>
    scan.updateSegment fun segment =>
      { segment with worldStateReplay := segment.worldStateReplay ++ [.worldState worldState] }
  | .eventMsg (.turnStarted turnId) =>
    match scan.activeSegment with
    | none => scan
    | some segment =>
      if turnIdsAreCompatible segment.turnId (some turnId) then scan.finalize else scan
  | .responseItem envelope =>
    scan.updateSegment fun segment =>
      { segment with
        countsAsUserTurn := segment.countsAsUserTurn || isUserTurnBoundary tools envelope.item }
  | .interAgentCommunication _ =>
    scan.updateSegment ({ · with countsAsUserTurn := true })
  | .eventMsg .other | .sessionMeta _ | .securityRiskScore
  | .interAgentCommunicationMetadata _ => scan

/-- Nothing older can change the result any more. -/
def isComplete (scan : ReverseScan Json) : Bool :=
  scan.baseReplacementHistory.isSome && scan.previousTurnSettings.isSome &&
    scan.referenceContextItem ≠ .neverSet

/-- The reverse loop over the older items, newest first. -/
def scanBack (tools : HistoryTools Json) :
    ReverseScan Json → (newer older : List (RolloutItem Json)) → ReverseScan Json
  | scan, _, [] => scan
  | scan, newer, item :: older =>
    let scan := scan.scanItem tools newer item
    if scan.isComplete then scan else scanBack tools scan (item :: newer) older

/-- The scan of a whole rollout, with its last segment finalised. -/
def scanRollout (tools : HistoryTools Json) (rolloutItems : List (RolloutItem Json)) :
    ReverseScan Json :=
  (scanBack tools { rolloutSuffix := rolloutItems } [] rolloutItems.reverse).finalize

end ReverseScan

/-! ### The replay -/

/-- The variables of the forward loop. -/
structure Replay (Json : Type u) where
  history : ContextManager Json := {}
  sawLegacyCompaction : Bool := false

namespace Replay

def replayItem (tools : HistoryTools Json) (replay : Replay Json) : RolloutItem Json → Replay Json
  | .responseItem envelope => { replay with history := replay.history.recordItem tools envelope }
  | .interAgentCommunication communication =>
    { replay with
      history := replay.history.recordItem tools { item := communication.toModelInputItem } }
  | .compacted compacted =>
    match compacted.replacementHistory with
    | some replacementHistory =>
      { replay with history := replay.history.replaceAnnotated replacementHistory }
    | none =>
      let userMessages := collectAnnotatedUserMessages tools replay.history.items
      let rebuilt := buildCompactedHistory tools [] userMessages compacted.message
      { history := replay.history.replaceAnnotated rebuilt, sawLegacyCompaction := true }
  | .eventMsg (.threadRolledBack numTurns) =>
    { replay with history := replay.history.dropLastNUserTurns tools numTurns }
  | .eventMsg _ | .interAgentCommunicationMetadata _ | .turnContext _ | .worldState _
  | .securityRiskScore | .sessionMeta _ => replay

def replayItems (tools : HistoryTools Json) (replay : Replay Json)
    (items : List (RolloutItem Json)) : Replay Json :=
  items.foldl (replayItem tools) replay

/-- The start of the replay: a base history, if there is one. -/
def start (base : Option (List (ResponseItemEnvelope Json))) : Replay Json :=
  match base with
  | none => {}
  | some base => { history := ContextManager.replaceAnnotated {} base }

end Replay

variable (tools : HistoryTools Json) (rolloutItems : List (RolloutItem Json))

/-- The history of a whole rollout, replayed forward from an empty history. -/
def replayForward : List (ResponseItemEnvelope Json) :=
  (({} : Replay Json).replayItems tools rolloutItems).history.items

/-- One record of the replay of the world state. -/
def replayWorldState (baseline : Option Json) : RolloutItem Json → Option Json
  | .compacted _ => none
  | .worldState worldState =>
    if worldState.full then some worldState.state
    else baseline.map fun baseline => tools.applyMergePatch baseline worldState.state
  | _ => baseline

structure RolloutReconstruction (Json : Type u) where
  history : List (ResponseItemEnvelope Json)
  previousTurnSettings : Option PreviousTurnSettings
  referenceContextItem : Option TurnContextItem
  worldStateBaseline : Option Json
  windowNumber : Nat
  firstWindowId : Option String
  previousWindowId : Option String
  windowId : Option String

/-- The window that the session started with. -/
def initialWindow : Option ReconstructedWindow :=
  let hasLegacyCompactionWithoutWindowNumber := rolloutItems.any fun
    | .compacted compacted => compacted.windowNumber.isNone
    | _ => false
  if hasLegacyCompactionWithoutWindowNumber then none
  else
    rolloutItems.findSome? fun
      | .sessionMeta contextWindow =>
        (contextWindow.bind tools.parseUuidV7).map fun id =>
          { number := 0, firstId := some id, previousId := none, id := some id }
      | _ => none

def isCompacted : RolloutItem Json → Bool
  | .compacted _ => true
  | _ => false

def reconstructHistoryFromRollout : RolloutReconstruction Json :=
  let scan := ReverseScan.scanRollout tools rolloutItems
  let replay := (Replay.start scan.baseReplacementHistory).replayItems tools scan.rolloutSuffix
  let fallbackWindowNumber := min (rolloutItems.filter isCompacted).length u64Max
  let referenceContextItem :=
    match scan.referenceContextItem with
    | .neverSet | .cleared => none
    | .latest context => if replay.sawLegacyCompaction then none else some context
  let window := (scan.window.or (initialWindow tools rolloutItems)).getD
    { number := fallbackWindowNumber, firstId := none, previousId := none, id := none }
  { history := replay.history.items
    previousTurnSettings := scan.previousTurnSettings
    referenceContextItem
    worldStateBaseline := scan.worldStateReplay.reverse.foldl (replayWorldState tools) none
    windowNumber := window.number
    firstWindowId := window.firstId
    previousWindowId := window.previousId
    windowId := window.id }

end WeaveCodex.Rollout
