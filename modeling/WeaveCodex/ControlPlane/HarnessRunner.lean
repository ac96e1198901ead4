/-
Purpose: The session around a run of a phase program: the events it collects, the
  item count of the receipt, and the status it ends with.
Trusted boundary: translation of `RunSession.event`, `RunSession.stage` and the phase-program
  branch of `HarnessRunner.run` in `weave_codex/runtime.py`
-/
import WeaveCodex.ControlPlane.PhaseRuntime

namespace WeaveCodex.ControlPlane

open Library.EarlyExit

inductive SessionStatus where
  | queued | running | waitingForApproval | completed | failed | stopped
deriving DecidableEq, Repr

variable (python : PythonText)

/-- `session.event`: the event with its phase label, or a stub if it is too long. -/
def sessionEvent (label : String) (value : Event) : Event :=
  let labelled := value ++ [("phase", .text label)]
  if 16000 < python.encodedLength labelled then
    [("method", (Fields.get labelled "method").getD (.text "event")), ("truncated", .bool true)]
  else labelled

def stageEvent (title detail : String) : Event :=
  [("method", .text "harness/stage"),
    ("params", .dict [("title", .text title), ("detail", .text detail)])]

/-- The events one exchange adds to `session.events`. -/
def Interaction.sessionEvents : Interaction → List Event
  | .stage label title detail => [sessionEvent python label (stageEvent title detail)]
  | .turn taken => taken.reply.events.map (sessionEvent python taken.label)
  | .checkpoint _ _ => []

/-- `event.get("params", {}).get("item", {}).get("type", "unknown")`, as a counter key. -/
def completedItemType (event : Event) : Except String Json :=
  match ((Fields.get event "params").getD (.dict [])).asDict with
  | none => .error "AttributeError: params has no attribute 'get'"
  | some params =>
    match ((Fields.get params "item").getD (.dict [])).asDict with
    | none => .error "AttributeError: item has no attribute 'get'"
    | some item =>
      let type := (Fields.get item "type").getD (.text "unknown")
      if type.Hashable then .ok type else .error "TypeError: unhashable type"

/-- The keys of the receipt's counter of completed items. -/
def completedItemTypes (events : List Event) : Except String (List Json) :=
  (events.filter fun event => event.hasMethod "item/completed").mapM completedItemType

/-- A session after its run, with the phase result that its receipt is made of. -/
structure HarnessSession where
  status : SessionStatus
  error : Option String := none
  result : Option PhaseRunResult := none
  log : List Interaction := []

/-- What `run` makes of the end of `execute_phase_program`. -/
def finishHarness : Ending PhaseRun → HarnessSession
  | .raised error run => { status := .failed, error := some error, log := run.log }
  | .returned run =>
    match completedItemTypes (run.log.flatMap (Interaction.sessionEvents python)) with
    | .error error =>
      { status := .failed, error := some error, result := some run.result, log := run.log }
    | .ok _ =>
      { status := if run.result.completionStatus = .stopped then .stopped else .completed
        result := some run.result
        log := run.log }

/-- `HarnessRunner.run` for a manifest with a phase program.  `prepared` is the outcome
of the gateway calls before the first phase: the thread and the memory excerpts. -/
def runHarness (env : Environment) (manifest : HarnessManifest)
    (prepared : Except String (String × List String)) : HarnessSession :=
  match prepared with
  | .error error => { status := .failed, error := some error }
  | .ok (threadId, selectedExcerpts) =>
    finishHarness python
      ({ python, env, manifest, threadId, selectedExcerpts } : Setting).executePhaseProgram

end WeaveCodex.ControlPlane
