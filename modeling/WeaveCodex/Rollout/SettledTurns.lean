/-
Purpose: Rollouts of started and completed turns that record their context: which turn
  starts the rollbacks leave in the history and to which turns these belong, and when
  counting rolled back turns and counting rolled back messages lead to the same turn.
-/
import WeaveCodex.Rollout.Proofs.KeptMessages

namespace WeaveCodex.Rollout

universe u

variable {Json : Type u}

/-- The settings that a turn context gives to the turns after it. -/
def TurnContextItem.settings (context : TurnContextItem) : PreviousTurnSettings :=
  { model := context.model
    compHash := context.compHash
    realtimeActive := context.realtimeActive }

/-! ### Rollouts of turns -/

/-- A turn as a rollout records it, with the items before and after its context. -/
structure SettledTurn (Json : Type u) where
  turnId : String
  context : TurnContextItem
  before : List (RolloutItem Json) := []
  after : List (RolloutItem Json) := []

def SettledTurn.body (turn : SettledTurn Json) : List (RolloutItem Json) :=
  turn.before ++ .turnContext turn.context :: turn.after

def SettledTurn.items (turn : SettledTurn Json) : List (RolloutItem Json) :=
  .eventMsg (.turnStarted turn.turnId) :: turn.body ++ [.eventMsg (.turnComplete turn.turnId)]

/-- A rollout is made of turns and of items that belong to none. -/
inductive Entry (Json : Type u) where
  | turn (turn : SettledTurn Json)
  | outside (item : RolloutItem Json)

def Entry.items : Entry Json → List (RolloutItem Json)
  | .turn recorded => recorded.items
  | .outside item => [item]

def Entry.asTurn : Entry Json → Option (SettledTurn Json)
  | .turn recorded => some recorded
  | .outside _ => none

/-- The item may stand in a turn beside its context. -/
def standsInTurn : RolloutItem Json → Bool
  | .compacted _ | .turnContext _ | .eventMsg (.turnStarted _)
  | .eventMsg (.turnComplete _) | .eventMsg (.turnAborted _) => false
  | _ => true

/-- The item may stand between turns: a rollback, or something that neither loop reads. -/
def standsOutside : RolloutItem Json → Bool
  | .eventMsg (.threadRolledBack _) | .eventMsg .other | .sessionMeta _
  | .interAgentCommunicationMetadata _ | .securityRiskScore => true
  | _ => false

/-- The starts of turns that an item adds to the history. -/
def startsOf (tools : HistoryTools Json) (item : RolloutItem Json) : List (ResponseItemEnvelope Json) :=
  boundaries tools (recordedItems tools item)

/-- The messages of a turn: what starts a turn in the history. -/
def SettledTurn.messages (tools : HistoryTools Json) (turn : SettledTurn Json) :
    List (ResponseItemEnvelope Json) :=
  turn.items.flatMap (startsOf tools)

/-- A turn whose context is its own, and that records a message of the user as an event
only along with the message itself. -/
structure SettledTurn.Recorded (tools : HistoryTools Json) (turn : SettledTurn Json) : Prop where
  before : ∀ item ∈ turn.before, standsInTurn item = true
  after : ∀ item ∈ turn.after, standsInTurn item = true
  context : turn.context.turnId = some turn.turnId
  messages : .eventMsg .userMessage ∈ turn.body → turn.messages tools ≠ []

structure Settled (tools : HistoryTools Json) (entries : List (Entry Json)) : Prop where
  turns : ∀ turn, .turn turn ∈ entries → turn.Recorded tools
  outside : ∀ item, .outside item ∈ entries → standsOutside item = true
  distinct : ((entries.filterMap Entry.asTurn).map SettledTurn.turnId).Nodup

/-! ### What rollbacks leave -/

/-- How many messages or turns an item rolls back. -/
def rolledBack : RolloutItem Json → Nat
  | .eventMsg (.threadRolledBack numTurns) => numTurns.toNat
  | _ => 0

/-- The items of an entry, each with the turn that it belongs to. -/
def Entry.marked : Entry Json → List (Option (SettledTurn Json) × RolloutItem Json)
  | .turn recorded => recorded.items.map fun item => (some recorded, item)
  | .outside item => [(none, item)]

/-- An item adds its starts of turns, and a rollback takes the last ones away. -/
def keepStarts (tools : HistoryTools Json)
    (kept : List (Option (SettledTurn Json) × ResponseItemEnvelope Json))
    (item : Option (SettledTurn Json) × RolloutItem Json) :
    List (Option (SettledTurn Json) × ResponseItemEnvelope Json) :=
  kept.take (kept.length - rolledBack item.2) ++
    (startsOf tools item.2).map fun start => (item.1, start)

/-- The starts of turns that are left in the history, each with the turn it belongs to. -/
def keptStarts (tools : HistoryTools Json) (entries : List (Entry Json)) :
    List (Option (SettledTurn Json) × ResponseItemEnvelope Json) :=
  (entries.flatMap Entry.marked).foldl (keepStarts tools) []

/-- The newest turn of which a message is left in the history. -/
def newestKeptTurn (tools : HistoryTools Json) (entries : List (Entry Json)) :
    Option (SettledTurn Json) :=
  (keptStarts tools entries).getLast?.bind Prod.fst

/-- The settings and the context that a rollout gives back are those of the newest turn of
which a message is left. -/
def DescribesNewestKept (tools : HistoryTools Json) (entries : List (Entry Json)) : Prop :=
  let rebuilt := reconstructHistoryFromRollout tools (entries.flatMap Entry.items)
  rebuilt.previousTurnSettings =
      (newestKeptTurn tools entries).map (fun turn => turn.context.settings) ∧
    rebuilt.referenceContextItem = (newestKeptTurn tools entries).map SettledTurn.context

/-! ### Two ways to count -/

/-- How many messages are still to be dropped once these items, newest first, are undone;
nothing if one of their messages is left. -/
def messagesLeft (tools : HistoryTools Json) : Nat → List (RolloutItem Json) → Option Nat
  | pending, [] => some pending
  | pending, item :: older =>
    if pending < (startsOf tools item).length then none
    else messagesLeft tools (pending - (startsOf tools item).length + rolledBack item) older

/-- Going back from the newest entry: if the rollbacks drop a turn, counted in turns, then
they drop all of its messages, counted in messages. -/
def allDropped (tools : HistoryTools Json) : Nat → Nat → List (Entry Json) → Bool
  | _, _, [] => true
  | turns, messages, .outside item :: older =>
    allDropped tools (turns + rolledBack item) (messages + rolledBack item) older
  | turns, messages, .turn turn :: older =>
    let turns := turns + (turn.items.map rolledBack).sum
    if (turn.messages tools).isEmpty then
      allDropped tools turns (messages + (turn.items.map rolledBack).sum) older
    else if turns = 0 then true
    else
      match messagesLeft tools messages turn.items.reverse with
      | none => false
      | some messages => allDropped tools (turns - 1) messages older

end WeaveCodex.Rollout
