/-
Purpose: The browser's copy of the phase graph logic: `clientTopologicalOrder`,
  `orderedClientPhases`, `graphProblem`, `wouldCreateCycle` and `uniquePhaseId`.
Trusted boundary: translation of `static/canvas-model.js`
-/
import WeaveCodex.ControlPlane.PhaseProgram
import WeaveCodex.Library.FreshCandidate
import WeaveCodex.Library.GraphSearch

namespace WeaveCodex.ControlPlane

open Library String

namespace Canvas

variable (program : PhaseProgram)

/-- `new Map(program.phases.map((phase) => [phase.id, phase]))`. -/
def byId (id : String) : Option Phase :=
  Dict.ofEntries (program.phases.map fun phase => (phase.id, phase)) id

/-- `new Map(program.phases.map((phase, order) => [phase.id, order]))`. -/
def index (id : String) : Nat :=
  (Dict.ofEntries (program.phases.map Phase.id).zipIdx id).getD 0

/-- The arrows as the browser reads them. -/
def arrows : List (String × String) :=
  program.edges.map fun edge => (edge.fromId, edge.toId)

/-- `incoming.set(edge.to, incoming.get(edge.to) + 1)` over all arrows. -/
def incoming : String → Int :=
  ReadyQueue.incomingCounts (arrows program)

/-- `outgoing.get(edge.from).push(edge.to)` over all arrows. -/
def outgoing : String → List String :=
  ReadyQueue.outgoingTargets (arrows program)

/-- The nodes that start in the queue. -/
def ready : List String :=
  (program.phases.filter fun phase => decide (incoming program phase.id = 0)).map Phase.id

/-- The `while (ready.length)` loop.  A phase id leaves the queue at most once, so
one round per phase empties it (`clientLoop_finished`). -/
def clientLoop : ReadyQueue.QueueState String :=
  ReadyQueue.run (index program) (outgoing program) program.phases.length
    { ready := ready program
      incoming := incoming program
      ordered := [] }

end Canvas

open Canvas

variable (program : PhaseProgram)

/-- An arrow to a missing node makes the browser fall back to the listed order. -/
def clientTopologicalOrder : List Phase :=
  if program.edges = [] then
    program.phases
  else if (arrows program).any fun edge =>
      (byId program edge.1).isNone || (byId program edge.2).isNone then
    program.phases
  else
    (clientLoop program).ordered.filterMap (byId program)

/-- The order shown on the canvas; an incomplete order is replaced by the list. -/
def orderedClientPhases : List Phase :=
  let ordered := clientTopologicalOrder program
  if ordered.length = program.phases.length then ordered else program.phases

/-- The key by which the browser compares two arrows. -/
def Canvas.arrowKey (edge : PhaseEdge) : String :=
  edge.fromId ++ "\x00" ++ edge.toId

/-- What the canvas says is wrong with a graph; the empty text lets it run. -/
def graphProblem : String :=
  let ids := program.phases.map Phase.id
  let identities := program.edges.map arrowKey
  if program.edges.any fun edge => !ids.contains edge.fromId || !ids.contains edge.toId then
    "An arrow points to a missing node."
  else if program.edges.any fun edge => edge.fromId == edge.toId then
    "A node cannot point to itself."
  else if identities.dedup.length ≠ identities.length then
    "The same arrow appears twice."
  else if 1 < program.phases.length ∧ program.edges = [] then
    "Connect the nodes with arrows before running."
  else
    match program.phases.filter fun phase => decide (incoming program phase.id = 0) with
    | [] => "This graph contains a loop. Remove one arrow."
    | [root] =>
      if (clientTopologicalOrder program).length ≠ program.phases.length then
        "This graph contains a loop or disconnected nodes."
      else if root.kind ≠ .work then
        "The starting node must be a Codex turn."
      else ""
    | _ :: _ :: _ => "Connect every loose node so there is one starting point."

/-- The arrows in the map `outgoing` of the source: `outgoing.get(edge.from)?.push(edge.to)`
keeps those that start at a node. -/
def Canvas.keptArrows : List (String × String) :=
  (arrows program).filter fun arrow => arrow.1 ∈ program.phases.map Phase.id

/-- The stack `pending` of the source stands here with its top first. -/
def wouldCreateCycle (sourceId targetId : String) : Bool :=
  decide (sourceId = targetId) || GraphSearch.search (keptArrows program) sourceId [targetId] []

namespace Canvas

def isLetter (char : Char) : Bool :=
  'a' ≤ char && char ≤ 'z'

/-- The class `[a-z0-9]`. -/
def isSlugChar (char : Char) : Bool :=
  isLetter char || ('0' ≤ char && char ≤ '9')

/-- `replace(/[^a-z0-9]+/g, "-")`; `inRun` after a character of such a run. -/
def dashRuns (inRun : Bool) : List Char → List Char
  | [] => []
  | char :: rest =>
    if isSlugChar char then char :: dashRuns false rest
    else if inRun then dashRuns true rest
    else '-' :: dashRuns true rest

/-- `replace(/^-|-$/g, "")`. -/
def trimDash (text : List Char) : List Char :=
  let text := if text.head? = some '-' then text.tail else text
  if text.getLast? = some '-' then text.dropLast else text

variable (lower : List Char → List Char) (stem : String)

/-- The stem with dashes for all but letters and digits; `toLowerCase` is a parameter. -/
def slug : List Char :=
  trimDash (dashRuns false (lower stem.toList))

/-- The value of `base`. -/
def base : List Char :=
  let base := (slug lower stem).take 42
  if base = [] then "node".toList else base

/-- The first value of `id`. -/
def firstId : List Char :=
  let base := base lower stem
  if base.head?.any isLetter then base else "node-".toList ++ base

/-- The values of `id` in the loop. They start from `base`, not from the first `id`. -/
def numberedId (counter : Nat) : List Char :=
  (base lower stem).take 42 ++ '-' :: Nat.toDigits 10 counter

end Canvas

/-- The loop gets one turn more than there are phases. -/
def uniquePhaseId (lower : List Char → List Char) (stem : String) : Option String :=
  let ids := program.phases.map Phase.id
  if ofList (firstId lower stem) ∈ ids then
    FreshCandidate.freshFrom (fun counter => ofList (numberedId lower stem counter)) ids
      (ids.length + 1) 2
  else some (ofList (firstId lower stem))

end WeaveCodex.ControlPlane
