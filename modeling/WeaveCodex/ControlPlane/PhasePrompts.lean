/-
Purpose: The texts the phase runtime sends and records, and its reading of the
  app-server events of a command turn.
Trusted boundary: translation of the helper functions of `weave_codex/phase_runtime.py`
-/
import WeaveCodex.ControlPlane.Json
import WeaveCodex.ControlPlane.Manifest

namespace WeaveCodex.ControlPlane

/-! ### Receipt texts -/

def receiptLimit : Nat :=
  12000

/-- `_receipt_text` of a text, at its default limit. -/
def receiptText (text : String) : String :=
  if text.length ≤ receiptLimit then text
  else
    String.ofList (text.toList.take receiptLimit) ++ "\n\n[truncated after 12,000 characters]"

variable (python : PythonText) (manifest : HarnessManifest) (phase : WorkPhase)
  (selectedExcerpts : List String) (firstWorkPhase : Bool)

/-- `_receipt_text` of a decoded value, which is cast by `str(value or "")`. -/
def receiptValue (value : Json) : String :=
  receiptText (if value.truthy then python.str value else "")

structure PhaseContext where
  overallTask : String
  workspace : String
  contextPaths : List String
  priorOutput : String
  humanFeedback : String
deriving DecidableEq, Repr

/-- `_phase_context`. -/
def phaseContext (priorOutput : Json) (humanFeedback : String) : PhaseContext :=
  { overallTask := receiptText manifest.task.instructions
    workspace := manifest.cwd
    contextPaths := manifest.task.contextPaths
    priorOutput := receiptValue python priorOutput
    humanFeedback := receiptText humanFeedback }

/-! ### Prompts -/

/-- `_command_prompt`. -/
def commandPrompt (phase : CommandPhase) : String :=
  "Execute one fine-grained " ++ phase.stepType.text ++ " step inside Codex's sandbox.\n" ++
  "\n<overall_task>\n" ++
  manifest.task.instructions ++
  "\n</overall_task>\n<step id=\"" ++ phase.id ++ "\" name=\"" ++ phase.name ++ "\">\n" ++
  "Run exactly this command once, without combining it with another command:\n" ++
  phase.command ++
  "\n</step>\n\n" ++
  "Do not run exploratory commands or make changes beyond the effects of the declared " ++
  "command.\nReturn the exact command,\n" ++
  "observed exit code, and a short factual summary. Success requires exit code " ++
  toString phase.expectedExitCode ++ ".\n" ++
  "Weave will independently compare your structured report with the app-server command event."

/-- The memory section of a work prompt. -/
def memorySection : String :=
  if firstWorkPhase then
    let joined := "\n\n".intercalate selectedExcerpts
    if joined = "" then "No selected trace content was supplied." else joined
  else
    "Selected memory, if any, was supplied once in the first work phase and remains in " ++
      "this thread's context. It is not duplicated here."

def continuitySection : String :=
  if firstWorkPhase then
    "This is the first work phase. Establish the relevant evidence before acting."
  else
    "Continue in the same Codex thread. Earlier turns and their tool evidence are already " ++
      "in context; do not redo work without a concrete reason."

def scopeContract : WorkScope → String
  | .adaptive =>
    "This is a broad adaptive goal within this node. Choose the necessary internal sequence " ++
      "and use as many native tools as this node's outcome legitimately requires, but do not " ++
      "take over responsibilities assigned to later workflow nodes."
  | .focused =>
    "This is a deliberately focused goal. Complete only the stated instruction; do not " ++
      "expand into adjacent refactors, features, or investigations."

/-- What the feedback section of a work prompt shows. -/
def feedbackSection (humanFeedback : String) : String :=
  if humanFeedback = "" then
    "No new human direction was supplied at the preceding checkpoint."
  else humanFeedback

/-- The work prompt up to its feedback section. -/
def workPromptHead : String :=
  let listed := "\n".intercalate (manifest.task.contextPaths.map fun path => "- " ++ path)
  "Execute this human-authored Codex work phase.\n\n<overall_task>\n" ++
  manifest.task.instructions ++
  "\n</overall_task>\n<phase id=\"" ++ phase.id ++ "\" name=\"" ++ phase.name ++ "\">\n" ++
  phase.goal ++
  "\n</phase>\n<granularity>" ++ phase.scope.text ++ "</granularity>\n<context_paths>\n" ++
  (if listed = "" then "- none" else listed) ++
  "\n</context_paths>\n<selected_memory mode=\"" ++ manifest.memoryMode.text ++ "\">\n" ++
  memorySection selectedExcerpts firstWorkPhase ++
  "\n</selected_memory>\n<requested_integrations binding=\"instructional\">\n" ++
  integrationPrompt manifest phase.id ++
  "\n</requested_integrations>\n<human_checkpoint_feedback>\n"

/-- The work prompt after its feedback section. -/
def workPromptTail : String :=
  "\n</human_checkpoint_feedback>\n\n" ++
  continuitySection firstWorkPhase ++ "\n" ++
  scopeContract phase.scope ++ "\n" ++
  "Stop this turn as soon as the phase outcome is complete. Hand the result to the next " ++
  "workflow\nnode instead of continuing the overall task on its behalf.\n" ++
  "When checkpoint feedback is present, treat it as the user's latest instruction for this " ++
  "phase.\nOne phase is one controller turn, not one tool call. Use as many native Codex " ++
  "reasoning and tool\nsteps as the goal legitimately requires. Report the phase outcome and " ++
  "the evidence actually used."

/-- `_work_prompt`. -/
def workPrompt (humanFeedback : String) : String :=
  workPromptHead manifest phase selectedExcerpts firstWorkPhase ++
    feedbackSection humanFeedback ++ workPromptTail phase firstWorkPhase

/-- The feedback paragraph of a verifier prompt. -/
def feedbackContext (humanFeedback : String) : String :=
  if humanFeedback = "" then ""
  else "\n\nLatest human checkpoint feedback:\n" ++ humanFeedback

/-- The verifier prompt up to its feedback paragraph. -/
def verifyPromptHead (phase : VerifyPhase) (answer : Json) : String :=
  "Verify the current result against the overall task and criterion below.\n\n" ++
  "Criterion:\n" ++ phase.criteria ++ "\n\nCurrent result:\n" ++ python.str answer ++ "\n\n"

/-- The verifier prompt after its feedback paragraph. -/
def verifyPromptTail : String :=
  "\n\n" ++
  "Return status=pass if ready. Otherwise repair the result in answer and list " ++
  "the issues. Use native tools when evidence must be checked."

/-- The prompt of one verifier attempt. -/
def verifyPrompt (phase : VerifyPhase) (answer : Json) (humanFeedback : String) : String :=
  verifyPromptHead python phase answer ++ feedbackContext humanFeedback ++ verifyPromptTail

/-! ### The observed command -/

/-- `_normalize_command`. -/
def normalizeCommand (value : String) : String :=
  " ".intercalate (splitWords value)

/-- One app-server notification, as the event sink receives it. -/
abbrev Event : Type :=
  Fields

namespace Event

def hasMethod (event : Event) (method : String) : Bool :=
  (Fields.get event "method").any fun value => value.equalsText method

/-- `event.get("params")` if it is a dictionary, else the empty one. -/
def params (event : Event) : Fields :=
  ((Fields.get event "params").bind Json.asDict).getD []

/-- `params.get("item")` if it is a dictionary, else the empty one. -/
def item (event : Event) : Fields :=
  ((Fields.get event.params "item").bind Json.asDict).getD []

end Event

/-- The command texts an item carries: its own and those of its actions. -/
def commandCandidates (item : Fields) : List String :=
  let own := ((Fields.get item "command").bind Json.asText).toList
  let actions := ((Fields.get item "commandActions").bind Json.asList).getD []
  own ++ actions.filterMap fun action =>
    (action.asDict.bind fun fields => Fields.get fields "command").bind Json.asText

def isCompletedCommand (event : Event) : Bool :=
  event.hasMethod "item/completed" &&
    (Fields.get event.item "type").any fun value => value.equalsText "commandExecution"

/-- The item carries the requested command, up to whitespace. -/
def carriesCommand (requested : String) (item : Fields) : Bool :=
  (commandCandidates item).any fun candidate => normalizeCommand candidate == normalizeCommand requested

/-- The completed command items that carry the requested command. -/
def observedItems (events : List Event) (requested : String) : List Fields :=
  ((events.filter isCompletedCommand).map Event.item).filter (carriesCommand requested)

structure ObservedResult where
  passed : Bool
  observedExitCode : Option Int
  observedOutput : String
  matchingCommandItems : Nat
  evidence : String
deriving DecidableEq, Repr

def itemExitCode (item : Fields) : Option Int :=
  (Fields.get item "exitCode").bind Json.asInt

/-- `item.get("status") == status`. -/
def itemHasStatus (item : Fields) (status : String) : Bool :=
  (Fields.get item "status").any fun value => value.equalsText status

/-- `_observed_command_result`: fail closed unless one completed item carries the
exact requested command. -/
def observedCommandResult (events : List Event) (requested : String)
    (expectedExitCode : Int) : ObservedResult :=
  let observed := observedItems events requested
  let exact := observed.length == 1
  let item := if exact then observed.headD [] else []
  let exitCode := itemExitCode item
  let passed := exact && exitCode == some expectedExitCode && itemHasStatus item "completed"
  { passed
    observedExitCode := exitCode
    observedOutput :=
      receiptText (((Fields.get item "aggregatedOutput").bind Json.asText).getD "")
    matchingCommandItems := observed.length
    evidence :=
      if passed then "One exact command completed with the expected exit code."
      else "The exact command and expected exit code were not both observed." }

end WeaveCodex.ControlPlane
