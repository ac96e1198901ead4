/-
Purpose: Phase programs as the control plane stores and validates them: the four
  phase kinds with their schema bounds, dependency edges, `ordered_phases`,
  `phase_turn_bound` and the whole-program validator.
Trusted boundary: translation of `weave_codex/phase_program.py`
-/
import WeaveCodex.Library.ReadyQueue

namespace WeaveCodex.ControlPlane

open Library

/-- Human-authored placement on the visual workflow canvas. -/
structure CanvasPosition where
  x : Int
  y : Int
deriving DecidableEq, Repr

/-- `Field(ge=0, le=4_000)` and `Field(ge=0, le=3_000)`. -/
def CanvasPosition.WellFormed (position : CanvasPosition) : Prop :=
  0 ≤ position.x ∧ position.x ≤ 4000 ∧ 0 ≤ position.y ∧ position.y ≤ 3000

instance (position : CanvasPosition) : Decidable position.WellFormed :=
  inferInstanceAs (Decidable (_ ∧ _ ∧ _ ∧ _))

/-- A directed dependency between two executable nodes. -/
structure PhaseEdge where
  fromId : String
  toId : String
deriving DecidableEq, Repr

inductive PhaseKind where
  | work | checkpoint | verify | command
deriving DecidableEq, Repr

inductive WorkScope where
  | adaptive | focused
deriving DecidableEq, Repr

def WorkScope.text : WorkScope → String
  | .adaptive => "adaptive"
  | .focused => "focused"

/-- A manifest-level effort; a work phase may also inherit it. -/
inductive ReasoningEffort where
  | low | medium | high | xhigh
deriving DecidableEq, Repr

def ReasoningEffort.text : ReasoningEffort → String
  | .low => "low"
  | .medium => "medium"
  | .high => "high"
  | .xhigh => "xhigh"

inductive StepType where
  | function | test | checker
deriving DecidableEq, Repr

def StepType.text : StepType → String
  | .function => "function"
  | .test => "test"
  | .checker => "checker"

/-- `reasoningEffort` is `none` for the document's `"inherit"`. -/
structure WorkPhase where
  id : String
  name : String
  goal : String
  scope : WorkScope := .adaptive
  reasoningEffort : Option ReasoningEffort := none
  position : Option CanvasPosition := none
deriving DecidableEq, Repr

structure CheckpointPhase where
  id : String
  name : String
  question : String
  position : Option CanvasPosition := none
deriving DecidableEq, Repr

structure VerifyPhase where
  id : String
  name : String
  criteria : String
  maxRepairs : Nat := 1
  position : Option CanvasPosition := none
deriving DecidableEq, Repr

/-- One exact command delegated to Codex's sandboxed tool loop. -/
structure CommandPhase where
  id : String
  stepType : StepType := .test
  name : String
  command : String
  expectedExitCode : Int := 0
  stopOnFailure : Bool := true
  position : Option CanvasPosition := none
deriving DecidableEq, Repr

/-- The discriminated union on `kind`. -/
inductive Phase where
  | work (phase : WorkPhase)
  | checkpoint (phase : CheckpointPhase)
  | verify (phase : VerifyPhase)
  | command (phase : CommandPhase)
deriving DecidableEq, Repr

namespace Phase

def id : Phase → String
  | .work phase | .checkpoint phase | .verify phase | .command phase => phase.id

def name : Phase → String
  | .work phase | .checkpoint phase | .verify phase | .command phase => phase.name

def kind : Phase → PhaseKind
  | .work _ => .work
  | .checkpoint _ => .checkpoint
  | .verify _ => .verify
  | .command _ => .command

def position : Phase → Option CanvasPosition
  | .work phase | .checkpoint phase | .verify phase | .command phase => phase.position

end Phase

/-- `Field(min_length=…, max_length=…)` on a text. -/
def LengthWithin (least most : Nat) (text : String) : Prop :=
  least ≤ text.length ∧ text.length ≤ most

instance (least most : Nat) (text : String) : Decidable (LengthWithin least most text) :=
  inferInstanceAs (Decidable (_ ∧ _))

/-- The pattern `^[a-z][a-z0-9-]*$`. -/
def matchesIdPattern (text : String) : Bool :=
  match text.toList with
  | [] => false
  | first :: rest =>
    ('a' ≤ first && first ≤ 'z') && rest.all fun char =>
        ('a' ≤ char && char ≤ 'z') || ('0' ≤ char && char ≤ '9') || char == '-'

/-- The schema of a phase id. -/
def PhaseIdSchema (id : String) : Prop :=
  LengthWithin 2 48 id ∧ matchesIdPattern id = true

instance (id : String) : Decidable (PhaseIdSchema id) :=
  inferInstanceAs (Decidable (_ ∧ _))

/-- The per-field checks of the kind's own text and number fields. -/
def Phase.BodyWellFormed : Phase → Prop
  | .work phase => LengthWithin 4 4000 phase.goal
  | .checkpoint phase => LengthWithin 4 1000 phase.question
  | .verify phase => LengthWithin 4 2000 phase.criteria ∧ phase.maxRepairs ≤ 2
  | .command phase =>
    LengthWithin 2 2000 phase.command ∧ 0 ≤ phase.expectedExitCode ∧ phase.expectedExitCode ≤ 255

instance : (phase : Phase) → Decidable phase.BodyWellFormed
  | .work _ | .checkpoint _ => inferInstanceAs (Decidable (LengthWithin _ _ _))
  | .verify _ => inferInstanceAs (Decidable (_ ∧ _))
  | .command _ => inferInstanceAs (Decidable (_ ∧ _ ∧ _))

/-- Everything the phase models check field by field. -/
def Phase.WellFormed (phase : Phase) : Prop :=
  PhaseIdSchema phase.id ∧ LengthWithin 2 80 phase.name ∧ phase.BodyWellFormed ∧
    ∀ position ∈ phase.position, position.WellFormed

instance (phase : Phase) : Decidable phase.WellFormed :=
  inferInstanceAs (Decidable (_ ∧ _ ∧ _ ∧ ∀ position ∈ phase.position, position.WellFormed))

def PhaseEdge.WellFormed (edge : PhaseEdge) : Prop :=
  LengthWithin 2 48 edge.fromId ∧ LengthWithin 2 48 edge.toId

instance (edge : PhaseEdge) : Decidable edge.WellFormed :=
  inferInstanceAs (Decidable (_ ∧ _))

/-- A user-authored executable graph.  `projection_version` is the literal 1. -/
structure PhaseProgram where
  projectionVersion : Nat := 1
  phases : List Phase
  edges : List PhaseEdge := []
deriving DecidableEq, Repr

namespace PhaseProgram

variable (program : PhaseProgram)

def phaseIds : List String :=
  program.phases.map Phase.id

/-- The `(from, to)` pairs of the edges. -/
def identities : List (String × String) :=
  program.edges.map fun edge => (edge.fromId, edge.toId)

/-- `{phase.id: phase for phase in program.phases}`. -/
def byId (id : String) : Option Phase :=
  Dict.ofEntries (program.phases.map fun phase => (phase.id, phase)) id

/-- `{phase.id: index for index, phase in enumerate(program.phases)}`; the key
function `position.__getitem__` is only applied to ids of the program. -/
def position (id : String) : Nat :=
  (Dict.ofEntries program.phaseIds.zipIdx id).getD 0

/-- `{item for edge in identities for item in edge if item not in by_id}`. -/
def unknownNodes : List String :=
  ((program.identities.flatMap fun edge => [edge.1, edge.2]).filter fun item =>
    (program.byId item).isNone).dedup

/-- The phases without incoming edges. -/
def roots : List String :=
  program.phaseIds.filter fun id =>
    decide (ReadyQueue.incomingCounts program.identities id = 0)

/-- The `while ready` loop of `ordered_phases`.  Every round emits one more phase
id, so a round per phase is enough to empty the queue (`readyLoop_finished`). -/
def readyLoop : ReadyQueue.QueueState String :=
  ReadyQueue.run program.position (ReadyQueue.outgoingTargets program.identities) program.phases.length
    { ready := program.roots
      incoming := ReadyQueue.incomingCounts program.identities
      ordered := [] }

end PhaseProgram

variable (program : PhaseProgram)

/-- Stable dependency order, rejecting decorative or cyclic graphs. -/
def orderedPhases : Except String (List Phase) :=
  if program.edges = [] then
    .ok program.phases
  else if program.identities.length ≠ program.identities.dedup.length then
    .error "phase edges must be unique"
  else if program.unknownNodes ≠ [] then
    .error ("phase edges reference unknown nodes: " ++
      ", ".intercalate (program.unknownNodes.insertionSort fun left right => left ≤ right))
  else if program.identities.any (fun edge => edge.1 == edge.2) then
    .error "a phase cannot connect to itself"
  else if program.roots.length ≠ 1 then
    .error "an executable graph requires exactly one starting node"
  else if program.readyLoop.ordered.length ≠ program.phases.length then
    .error "workflow arrows must form one connected acyclic graph"
  else
    .ok (program.readyLoop.ordered.filterMap program.byId)

/-- Controller turns a phase may use at most. -/
def Phase.turnCost : Phase → Nat
  | .work _ | .command _ => 1
  | .verify phase => 1 + phase.maxRepairs
  | .checkpoint _ => 0

/-- Controller turns, not internal Codex model/tool iterations. -/
def phaseTurnBound : Except String Nat := do
  let ordered ← orderedPhases program
  pure (ordered.foldl (fun total phase => total + phase.turnCost) 0)

/-- Two checkpoints next to each other in the order. -/
def hasAdjacentCheckpoints : List Phase → Bool
  | left :: right :: rest =>
    (left.kind == .checkpoint && right.kind == .checkpoint) || hasAdjacentCheckpoints (right :: rest)
  | _ => false

/-- The model validator of `PhaseProgram`. -/
def validateProgram : Except String PhaseProgram := do
  if program.phaseIds.length ≠ program.phaseIds.dedup.length then
    throw "phase ids must be unique"
  if !(program.phases.any fun phase => phase.kind == .work) then
    throw "a phase program requires at least one work phase"
  let ordered ← orderedPhases program
  -- `ordered[0]` exists: some phase is a work phase.
  if !((ordered.map Phase.kind).head? == some .work) then
    throw "the first executable phase must be a work phase"
  if hasAdjacentCheckpoints ordered then
    throw "adjacent checkpoints are not executable"
  pure program

/-- The field bounds of the document, before the whole-program validator. -/
structure PhaseProgram.WellFormed (program : PhaseProgram) : Prop where
  version : program.projectionVersion = 1
  phaseCount : 1 ≤ program.phases.length ∧ program.phases.length ≤ 16
  edgeCount : program.edges.length ≤ 40
  phases : ∀ phase ∈ program.phases, phase.WellFormed
  edges : ∀ edge ∈ program.edges, edge.WellFormed

instance (program : PhaseProgram) : Decidable program.WellFormed :=
  decidable_of_iff (program.projectionVersion = 1 ∧
      (1 ≤ program.phases.length ∧ program.phases.length ≤ 16) ∧ program.edges.length ≤ 40 ∧
      (∀ phase ∈ program.phases, phase.WellFormed) ∧ ∀ edge ∈ program.edges, edge.WellFormed)
    ⟨fun ⟨version, phaseCount, edgeCount, phases, edges⟩ =>
        ⟨version, phaseCount, edgeCount, phases, edges⟩,
      fun wellFormed => ⟨wellFormed.version, wellFormed.phaseCount, wellFormed.edgeCount,
        wellFormed.phases, wellFormed.edges⟩⟩

/-- A program the control plane accepts: well formed field by field and passed by
the validator. -/
structure ValidProgram where
  program : PhaseProgram
  wellFormed : program.WellFormed
  validated : validateProgram program = .ok program

end WeaveCodex.ControlPlane
