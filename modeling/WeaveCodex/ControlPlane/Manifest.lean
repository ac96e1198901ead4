/-
Purpose: The blocks of a harness manifest that the phase compiler and the phase
  runtime read, and the texts derived from its integration requests.
Trusted boundary: translation of `weave_codex/manifest.py`
-/
import WeaveCodex.ControlPlane.PhaseProgram

namespace WeaveCodex.ControlPlane

structure TaskBlock where
  instructions : String
  contextPaths : List String := []
deriving DecidableEq, Repr

inductive MemoryMode where
  | off | all | selected
deriving DecidableEq, Repr

def MemoryMode.text : MemoryMode → String
  | .off => "off"
  | .all => "all"
  | .selected => "selected"

/-- `manifest.memory.mode.title()`. -/
def MemoryMode.title : MemoryMode → String
  | .off => "Off"
  | .all => "All"
  | .selected => "Selected"

inductive IntegrationKind where
  | skill | mcp | app
deriving DecidableEq, Repr

def IntegrationKind.text : IntegrationKind → String
  | .skill => "skill"
  | .mcp => "mcp"
  | .app => "app"

structure IntegrationRequest where
  kind : IntegrationKind
  id : String
  label : String
  phaseIds : List String := []
deriving DecidableEq, Repr

inductive Sandbox where
  | readOnly | workspaceWrite
deriving DecidableEq, Repr

def Sandbox.text : Sandbox → String
  | .readOnly => "read-only"
  | .workspaceWrite => "workspace-write"

inductive ApprovalGate where
  | manual | autoReview | deny
deriving DecidableEq, Repr

def ApprovalGate.text : ApprovalGate → String
  | .manual => "manual"
  | .autoReview => "auto-review"
  | .deny => "deny"

structure AgentBlock where
  reasoningEffort : ReasoningEffort := .medium
  sandbox : Sandbox := .readOnly
  approvalGate : ApprovalGate := .manual
deriving DecidableEq, Repr

/-- The manifest fields that the phase compiler and the phase runtime read. -/
structure HarnessManifest where
  schemaVersion : Nat := 1
  cwd : String
  task : TaskBlock
  memoryMode : MemoryMode := .off
  requested : List IntegrationRequest := []
  agent : AgentBlock := {}
  phaseProgram : Option PhaseProgram := none
deriving DecidableEq, Repr

/-- `_integration_actions`. -/
def integrationActions (manifest : HarnessManifest) : List String :=
  if manifest.requested = [] then
    ["inherit Codex integrations; request none explicitly"]
  else
    manifest.requested.map fun request =>
      let scope :=
        if request.phaseIds = [] then "all work phases" else ", ".intercalate request.phaseIds
      "request " ++ request.kind.text ++ " '" ++ request.label ++ "' in " ++ scope ++
        " (instructional, not allowlisted)"

/-- The instruction line of one request. -/
def IntegrationRequest.line (request : IntegrationRequest) : String :=
  let instruction :=
    match request.kind with
    | .skill => "invoke the $" ++ request.id ++ " skill and follow its loaded procedure"
    | .mcp =>
      "use tools from the configured " ++ request.label ++ " MCP server when relevant"
    | .app => "use the connected " ++ request.label ++ " app when relevant"
  "- " ++ request.kind.text ++ " " ++ request.label ++ " (" ++ request.id ++ "): " ++ instruction ++ "."

/-- `integration_prompt(manifest, phase_id)`; an unscoped request applies to every
phase. -/
def integrationPrompt (manifest : HarnessManifest) (phaseId : String) : String :=
  let requests := manifest.requested.filter fun request =>
    decide (request.phaseIds = []) || request.phaseIds.contains phaseId
  if requests = [] then
    "No Codex integration is explicitly requested for this phase."
  else
    "\n".intercalate (requests.map IntegrationRequest.line ++
      ["These are visible requests, not a hard tool allowlist. Do not claim an integration was " ++
        "used unless the run contains observable supporting activity."])

end WeaveCodex.ControlPlane
