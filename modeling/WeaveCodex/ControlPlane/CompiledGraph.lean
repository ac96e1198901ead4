/-
Purpose: The UI-ready graph of a phase program and of a manifest: nodes for the
  phases between fixed nodes, and the program's edges between a start and a
  finish edge.
Trusted boundary: translation of `compile_phase_program` in `weave_codex/phase_program.py` and
  `_compile_phase_manifest` in `weave_codex/manifest.py`
-/
import WeaveCodex.ControlPlane.Manifest

namespace WeaveCodex.ControlPlane

open Library

inductive NodeKind where
  | task | memory | integration | safety
  | phase (kind : PhaseKind)
  | output
deriving DecidableEq, Repr

/-- One node dictionary; the keys that some nodes lack are optional. -/
structure GraphNode where
  id : String
  kind : NodeKind
  label : String
  detail : String
  order : Option Nat := none
  editable : Bool
  maximumControllerTurns : Option Nat := none
  position : Option CanvasPosition := none
  state : Option String := none
deriving DecidableEq, Repr

inductive EdgeCondition where
  | next | start | finish | context | boundary
deriving DecidableEq, Repr

structure GraphEdge where
  fromId : String
  toId : String
  condition : EdgeCondition
deriving DecidableEq, Repr

def GraphEdge.ends (edge : GraphEdge) : String × String :=
  (edge.fromId, edge.toId)

/-- The result of `compile_phase_program`. -/
structure PhaseGraph where
  projectionVersion : Nat
  nodes : List GraphNode
  edges : List GraphEdge
  maximumControllerTurns : Nat
  internalLoopSemantics : String
  executionOrder : List String
deriving DecidableEq, Repr

def taskNode : GraphNode :=
  { id := "task"
    kind := .task
    label := "Task"
    detail := "Human goal and workspace context"
    editable := false }

def outputNode : GraphNode :=
  { id := "output"
    kind := .output
    label := "Output + receipt"
    detail := "Final answer and observed execution evidence"
    editable := false }

def Phase.detail : Phase → String
  | .work phase =>
    match phase.scope with
    | .adaptive => "One broad adaptive Codex turn · internal tool loop is Codex-managed"
    | .focused => "One deliberately focused Codex turn · scope expansion is prohibited"
  | .checkpoint _ => "Human continue, redirect with feedback, or stop · no model call"
  | .command phase =>
    "One exact " ++ phase.stepType.text ++ " command · pass requires observed exit " ++
      "code " ++ toString phase.expectedExitCode
  | .verify phase =>
    "One verifier turn · up to " ++ toString phase.maxRepairs ++ " repair turn(s)"

/-- The node of the phase at 1-based `position` of the execution order. -/
def phaseNode (position : Nat) (phase : Phase) : GraphNode :=
  { id := phase.id
    kind := .phase phase.kind
    label := phase.name
    detail := phase.detail
    order := some position
    editable := true
    maximumControllerTurns := some phase.turnCost
    position := phase.position }

variable (program : PhaseProgram) (manifest : HarnessManifest)

/-- The start and finish edges of one phase, by its edge counts. -/
def boundaryEdges (phase : Phase) : List GraphEdge :=
  (if ReadyQueue.incomingCounts program.identities phase.id = 0 then
      [{ fromId := "task", toId := phase.id, condition := .start }]
    else []) ++
  (if Dict.tally (program.identities.map Prod.fst) phase.id = 0 then
      [{ fromId := phase.id, toId := "output", condition := .finish }]
    else [])

/-- The `previous` loop over an edge-free program. -/
def chainEdges : String → List Phase → List GraphEdge
  | previous, [] => [{ fromId := previous, toId := "output", condition := .next }]
  | previous, phase :: phases =>
    { fromId := previous, toId := phase.id, condition := .next } :: chainEdges phase.id phases

/-- The edges of the compiled graph. -/
def compiledEdges (ordered : List Phase) : List GraphEdge :=
  if program.edges = [] then
    chainEdges "task" ordered
  else
    (program.edges.map fun edge =>
      { fromId := edge.fromId, toId := edge.toId, condition := .next }) ++
      program.phases.flatMap (boundaryEdges program)

def internalLoopSemantics : String :=
  "Each work phase starts one Codex controller turn. The number of model completions " ++
    "and native tool calls inside that turn is observed, not authored by this graph."

/-- Compile a phase program to a UI-ready executable graph. -/
def compilePhaseProgram : Except String PhaseGraph := do
  let ordered ← orderedPhases program
  let bound ← phaseTurnBound program
  pure
    { projectionVersion := program.projectionVersion
      nodes :=
        [taskNode] ++ (ordered.zipIdx 1).map (fun entry => phaseNode entry.2 entry.1) ++
          [outputNode]
      edges := compiledEdges program ordered
      maximumControllerTurns := bound
      internalLoopSemantics := internalLoopSemantics
      executionOrder := ordered.map Phase.id }

/-! ### The manifest graph -/

/-- The result of `_compile_phase_manifest`, without the manifest hash. -/
structure ManifestGraph where
  schemaVersion : Nat
  nodes : List GraphNode
  edges : List GraphEdge
  actions : List String
  maximumTurns : Nat
  internalLoopSemantics : String
  executionOrder : List String
deriving DecidableEq, Repr

def memoryNode : GraphNode :=
  { id := "memory"
    kind := .memory
    label := "Memory"
    detail := manifest.memoryMode.title
    state := some (if manifest.memoryMode = .off then "bypassed" else "active")
    editable := false }

/-- `_integration_node`, made non-editable by the phase compiler. -/
def integrationNode : GraphNode :=
  { id := "integrations"
    kind := .integration
    label := "Codex integrations"
    detail :=
      if manifest.requested = [] then "Inherited environment · no explicit requests"
      else toString manifest.requested.length ++ " requested · instructional binding"
    state := some (if manifest.requested = [] then "bypassed" else "active")
    editable := false }

def safetyNode : GraphNode :=
  { id := "safety"
    kind := .safety
    label := "Safety boundary"
    detail := manifest.agent.approvalGate.text ++ " · " ++ manifest.agent.sandbox.text
    editable := false }

def contextEdges : List GraphEdge :=
  [{ fromId := "task", toId := "memory", condition := .context },
    { fromId := "memory", toId := "integrations", condition := .context },
    { fromId := "integrations", toId := "safety", condition := .boundary }]

/-- Edges out of the task node leave from the safety boundary instead. -/
def rerouteEdge (edge : GraphEdge) : GraphEdge :=
  { edge with fromId := if edge.fromId = "task" then "safety" else edge.fromId }

def memoryAction : MemoryMode → String
  | .off => "disable Codex memory read/generation; inject no prior traces"
  | .all => "enable Codex native memory read/generation and mark the thread eligible"
  | .selected => "disable native memory; read and inject only selected thread IDs"

/-- The app-server action preview of one phase. -/
def phaseAction : Phase → String
  | .work phase =>
    "turn/start " ++ phase.scope.text ++ " work phase '" ++ phase.name ++ "' " ++
      "(Codex manages its internal tool loop)"
  | .checkpoint phase =>
    "pause for human checkpoint '" ++ phase.name ++ "' (no model call)"
  | .command phase =>
    "turn/start exact " ++ phase.stepType.text ++ " '" ++ phase.name ++
      "'; require observed command " ++ "and exit code " ++ toString phase.expectedExitCode
  | .verify phase =>
    "turn/start verifier '" ++ phase.name ++ "', then at most " ++
      toString phase.maxRepairs ++ " repair turn(s)"

/-- `next(item for item in program.phases if item.id == phase_id)`. -/
def firstWithId (id : String) : Option Phase :=
  program.phases.find? fun phase => phase.id == id

/-- Compile a manifest that carries a phase program.  The task and output nodes
are the first and last nodes of the phase graph. -/
def compilePhaseManifest : Except String ManifestGraph :=
  match manifest.phaseProgram with
  | none => .error "phase program is required"
  | some program => do
      let phaseGraph ← compilePhaseProgram program
      let bound ← phaseTurnBound program
      let inner := phaseGraph.nodes.tail.dropLast
      pure
        { schemaVersion := manifest.schemaVersion
          nodes :=
            phaseGraph.nodes.head?.toList ++
              [memoryNode manifest, integrationNode manifest, safetyNode manifest] ++
              inner ++ phaseGraph.nodes.tail.getLast?.toList
          edges := contextEdges ++ phaseGraph.edges.map rerouteEdge
          actions :=
            ["initialize experimental app-server client", memoryAction manifest.memoryMode] ++
              integrationActions manifest ++
              ["thread/start (" ++ manifest.agent.sandbox.text ++ ", approvals=" ++
                manifest.agent.approvalGate.text ++ ")"] ++
              (phaseGraph.executionOrder.filterMap (firstWithId program)).map phaseAction ++
              ["collect exact app-server events", "write receipt linked to manifest hash"]
          maximumTurns := bound
          internalLoopSemantics := phaseGraph.internalLoopSemantics
          executionOrder := phaseGraph.executionOrder }

end WeaveCodex.ControlPlane
