/-
Purpose: The turn segments of a rollout: what they hold of compaction checkpoints, and
  which of them later rollbacks drop. This says what the reverse scan is for, without the
  metadata that it collects and without its early end.
-/
import WeaveCodex.Rollout.Reconstruction

namespace WeaveCodex.Rollout

universe u

variable {Json : Type u}

/-- A compaction with a replacement history, and the items that are newer than it. -/
structure Checkpoint (Json : Type u) where
  replacement : List (ResponseItemEnvelope Json)
  newer : List (RolloutItem Json)
deriving DecidableEq, Repr

/-- A segment: its newest checkpoint, and whether no later rollback drops it. -/
structure ReplaySegment (Json : Type u) where
  checkpoint : Option (Checkpoint Json)
  survives : Bool
deriving DecidableEq, Repr

/-- A segment whose oldest item is not reached yet. -/
structure OpenSegment (Json : Type u) where
  turnId : Option String := none
  countsAsUserTurn : Bool := false
  checkpoint : Option (Checkpoint Json) := none

/-- The segments of the items visited so far, newest first. -/
structure Grouping (Json : Type u) where
  active : Option (OpenSegment Json) := none
  pendingRollbackTurns : Nat := 0
  closed : List (ReplaySegment Json) := []

namespace Grouping

variable (grouping : Grouping Json)

/-- The open segment ends here. A pending rollback drops it, and is used up by a segment
that counts as a user turn. -/
def close : Grouping Json :=
  match grouping.active with
  | none => grouping
  | some segment =>
    { active := none
      pendingRollbackTurns :=
        if segment.countsAsUserTurn then grouping.pendingRollbackTurns - 1
        else grouping.pendingRollbackTurns
      closed := grouping.closed ++
        [{ checkpoint := segment.checkpoint
           survives := grouping.pendingRollbackTurns = 0 }] }

/-- The open segment, or a new one, with a change. -/
def update (change : OpenSegment Json → OpenSegment Json) : Grouping Json :=
  { grouping with active := some (change (grouping.active.getD {})) }

/-- One older item; `newer` are the items after it. -/
def step (tools : HistoryTools Json) (grouping : Grouping Json)
    (newer : List (RolloutItem Json)) : RolloutItem Json → Grouping Json
  | .compacted compacted =>
    grouping.update fun segment =>
      { segment with
        checkpoint := segment.checkpoint.or
          (compacted.replacementHistory.map fun replacement => { replacement, newer }) }
  | .eventMsg (.threadRolledBack numTurns) =>
    { grouping with
      pendingRollbackTurns := saturatingAdd grouping.pendingRollbackTurns numTurns.toNat }
  | .eventMsg (.turnComplete turnId) =>
    grouping.update fun segment => { segment with turnId := segment.turnId.or (some turnId) }
  | .eventMsg (.turnAborted turnId) =>
    match grouping.active, turnId with
    | none, none => grouping
    | _, _ => grouping.update fun segment => { segment with turnId := segment.turnId.or turnId }
  | .eventMsg .userMessage => grouping.update ({ · with countsAsUserTurn := true })
  | .turnContext context =>
    grouping.update fun segment => { segment with turnId := segment.turnId.or context.turnId }
  | .worldState _ => grouping.update id
  | .eventMsg (.turnStarted turnId) =>
    match grouping.active with
    | none => grouping
    | some segment =>
      if turnIdsAreCompatible segment.turnId (some turnId) then grouping.close else grouping
  | .responseItem envelope =>
    grouping.update fun segment =>
      { segment with
        countsAsUserTurn := segment.countsAsUserTurn || isUserTurnBoundary tools envelope.item }
  | .interAgentCommunication _ => grouping.update ({ · with countsAsUserTurn := true })
  | .eventMsg .other | .sessionMeta _ | .securityRiskScore
  | .interAgentCommunicationMetadata _ => grouping

/-- All older items, newest first. -/
def groupBack (tools : HistoryTools Json) :
    Grouping Json → (newer older : List (RolloutItem Json)) → Grouping Json
  | grouping, _, [] => grouping
  | grouping, newer, item :: older =>
    groupBack tools (grouping.step tools newer item) (item :: newer) older

/-- The checkpoints that the segments hold, newest first. -/
def checkpoints : List (Checkpoint Json) :=
  grouping.closed.filterMap ReplaySegment.checkpoint ++
    (grouping.active.bind OpenSegment.checkpoint).toList

end Grouping

/-- The segments of a rollout, newest first. -/
def replaySegments (tools : HistoryTools Json) (rolloutItems : List (RolloutItem Json)) :
    List (ReplaySegment Json) :=
  (Grouping.groupBack tools {} [] rolloutItems.reverse).close.closed

/-- The newest checkpoint of each segment that has one, with the fate of the segment. -/
def checkpointed (segments : List (ReplaySegment Json)) : List (Checkpoint Json × Bool) :=
  segments.filterMap fun segment =>
    segment.checkpoint.map fun checkpoint => (checkpoint, segment.survives)

end WeaveCodex.Rollout
