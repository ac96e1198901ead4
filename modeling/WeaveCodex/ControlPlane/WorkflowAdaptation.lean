/-
Purpose: The guard of an adapted workflow: phase dumps as the guard compares them, and
  `validate_goal_only_adaptation`.
Trusted boundary: translation of `weave_codex/workflow_adaptation.py` and of the field aliases
  in `weave_codex/phase_program.py`
-/
import WeaveCodex.ControlPlane.CompiledGraph

namespace WeaveCodex.ControlPlane

open Library

/-- The values of a dumped phase. -/
inductive FieldValue where
  | null
  | text (value : String)
  | number (value : Int)
  | flag (value : Bool)
  | position (x y : Int)
deriving DecidableEq, Repr

/-- The dictionary of `model_dump(by_alias=True, mode="json")`. -/
abbrev Dump : Type :=
  List (String × FieldValue)

def Dump.get (dump : Dump) (key : String) : Option FieldValue :=
  Dict.ofEntries dump key

def dumpPosition : Option CanvasPosition → FieldValue
  | none => .null
  | some position => .position position.x position.y

/-- The text of `reasoning_effort`. -/
def dumpEffort : Option ReasoningEffort → String
  | none => "inherit"
  | some effort => effort.text

/-- The dump of a phase, under the aliases of its fields. -/
def Phase.modelDump : Phase → Dump
  | .work phase =>
    [("id", .text phase.id), ("kind", .text "work"), ("name", .text phase.name),
      ("goal", .text phase.goal), ("scope", .text phase.scope.text),
      ("reasoningEffort", .text (dumpEffort phase.reasoningEffort)),
      ("position", dumpPosition phase.position)]
  | .checkpoint phase =>
    [("id", .text phase.id), ("kind", .text "checkpoint"), ("name", .text phase.name),
      ("question", .text phase.question), ("position", dumpPosition phase.position)]
  | .verify phase =>
    [("id", .text phase.id), ("kind", .text "verify"), ("name", .text phase.name),
      ("criteria", .text phase.criteria), ("maxRepairs", .number phase.maxRepairs),
      ("position", dumpPosition phase.position)]
  | .command phase =>
    [("id", .text phase.id), ("kind", .text "command"),
      ("stepType", .text phase.stepType.text), ("name", .text phase.name),
      ("command", .text phase.command), ("expectedExitCode", .number phase.expectedExitCode),
      ("stopOnFailure", .flag phase.stopOnFailure), ("position", dumpPosition phase.position)]

/-- The members of the set `structural_keys`. -/
def structuralKeys : List String :=
  ["id", "kind", "scope", "reasoningEffort", "maxRepairs", "stepType", "command",
    "expectedExitCode", "stopOnFailure", "position"]

/-- An order in which Python may go through the set; it decides which key an error names. -/
structure KeyOrder where
  keys : List String
  enumerates : keys.Perm structuralKeys

/-- The loop over the structural keys of one phase. -/
def compareKeys (before after : Dump) : List String → Except String Unit
  | [] => .ok ()
  | key :: keys =>
    if before.get key ≠ after.get key then
      .error ("adaptation cannot change structural field " ++ key)
    else compareKeys before after keys

/-- The loop over the pairs of phases; `changed` is the list that it fills. -/
def comparePhases (order : KeyOrder) (changed : List String) :
    List (Phase × Phase) → Except String (List String)
  | [] => .ok changed
  | (before, after) :: pairs =>
    if before.id ≠ after.id ∨ before.kind ≠ after.kind then
      .error "adaptation must preserve phase ids, kinds, and order"
    else
      match compareKeys before.modelDump after.modelDump order.keys with
      | .error message => .error message
      | .ok () =>
        comparePhases order
          (if before.modelDump ≠ after.modelDump then changed ++ [before.id] else changed)
          pairs

/-- Require stable structure while permitting changes of wording. -/
def validateGoalOnlyAdaptation (order : KeyOrder) (source candidate : PhaseProgram) :
    Except String (List String) :=
  if source.phases.length ≠ candidate.phases.length then
    .error "adaptation must preserve the number of phases"
  else if source.edges ≠ candidate.edges then
    .error "adaptation must preserve workflow arrows"
  else
    match comparePhases order [] (source.phases.zip candidate.phases) with
    | .error message => .error message
    | .ok [] => .error "adaptation did not change any phase wording"
    | .ok (first :: changed) => .ok (first :: changed)

end WeaveCodex.ControlPlane
