/-
Purpose: When the compiled graphs are well-formed pictures of a phase program.
  Phase ids share a namespace with the fixed nodes, so the law holds exactly for
  the programs that use none of the fixed ids.
-/
import WeaveCodex.ControlPlane.CompiledGraph
import WeaveCodex.ControlPlane.Proofs.OrderedPhases

namespace WeaveCodex.ControlPlane

open Library
open Library.TopologicalOrder GraphEdge PhaseProgram List

/-- The edges the author drew, or the list order of an edge-free program. -/
def PhaseProgram.authoredArrows (program : PhaseProgram) : List (String × String) :=
  if program.edges = [] then consecutive program.phaseIds else program.identities

/-- What a compiled graph owes its program. -/
structure GraphLaw (program : PhaseProgram) (nodeIds : List String)
    (arrows : List (String × String)) : Prop where
  nodesDistinct : nodeIds.Nodup
  endpoints : ∀ arrow ∈ arrows, arrow.1 ∈ nodeIds ∧ arrow.2 ∈ nodeIds
  acyclic : Acyclic arrows
  onPath : ∀ id ∈ nodeIds, Relation.ReflTransGen (Arrow arrows) "task" id ∧
      Relation.ReflTransGen (Arrow arrows) id "output"
  phaseArrows : arrows.filter (fun arrow =>
      decide (arrow.1 ∈ program.phaseIds ∧ arrow.2 ∈ program.phaseIds)) = program.authoredArrows

/-- The ids of the fixed nodes around the phases. -/
def reservedNodeIds : List String :=
  ["task", "memory", "integrations", "safety", "output"]

def PhaseGraph.nodeIds (graph : PhaseGraph) : List String :=
  graph.nodes.map GraphNode.id

def PhaseGraph.arrows (graph : PhaseGraph) : List (String × String) :=
  graph.edges.map GraphEdge.ends

def ManifestGraph.nodeIds (graph : ManifestGraph) : List String :=
  graph.nodes.map GraphNode.id

def ManifestGraph.arrows (graph : ManifestGraph) : List (String × String) :=
  graph.edges.map GraphEdge.ends

/-! ### Paths through a spine

Both graphs are a spine: some fixed nodes in a row, then the phases, then the
output node, with arrows that never point backwards. -/

/-- Arrows that run forwards along `nodes` and leave no inner node loose. -/
structure Spine (nodes : List String) (arrows : List (String × String)) : Prop where
  distinct : nodes.Nodup
  endpoints : ∀ arrow ∈ arrows, arrow.1 ∈ nodes ∧ arrow.2 ∈ nodes
  forwards : Respects arrows nodes
  fed : ∀ node ∈ nodes, node ≠ "task" → ∃ arrow ∈ arrows, arrow.2 = node
  feeds : ∀ node ∈ nodes, node ≠ "output" → ∃ arrow ∈ arrows, arrow.1 = node

theorem Spine.law {program : PhaseProgram} {nodes : List String}
    {arrows : List (String × String)} (spine : Spine nodes arrows)
    (phaseArrows : arrows.filter (fun arrow =>
        decide (arrow.1 ∈ program.phaseIds ∧ arrow.2 ∈ program.phaseIds)) = program.authoredArrows) :
    GraphLaw program nodes arrows where
  nodesDistinct := spine.distinct
  endpoints := spine.endpoints
  acyclic := acyclic_of_respects spine.forwards
  onPath _ mem :=
    ⟨reaches_of_fed spine.forwards (fun arrow inside => (spine.endpoints arrow inside).1)
        spine.fed mem,
      reaches_of_feeds spine.forwards (fun arrow inside => (spine.endpoints arrow inside).2)
        spine.feeds mem⟩
  phaseArrows := phaseArrows

/-- A plain chain is a spine. -/
theorem Spine.ofConsecutive {inner : List String} (distinct : ("task" :: inner ++ ["output"]).Nodup) :
    Spine ("task" :: inner ++ ["output"]) (consecutive ("task" :: inner ++ ["output"])) where
  distinct := distinct
  endpoints _ mem := mem_of_mem_consecutive mem
  forwards := respects_consecutive distinct
  fed node mem notFirst := by
    refine fed_consecutive "task" (inner ++ ["output"]) node ?_
    simpa [notFirst] using mem
  feeds node mem notLast := by
    refine feeds_consecutive ("task" :: inner) "output" node ?_
    simpa [notLast] using mem

/-! ### Programs with edges -/

section Graph

variable (valid : ValidProgram)

/-- The arrows of a compiled graph with edges: the fixed nodes in a row, the
program's own edges, one arrow from the gate into each phase without incoming
edges, and one arrow to the output from each phase without outgoing edges. -/
structure GatedArrows (front : List String) (gate : String)
    (arrows : List (String × String)) : Prop where
  mem_iff : ∀ arrow, arrow ∈ arrows ↔ arrow ∈ consecutive front ∨ arrow ∈ valid.program.identities ∨
    (arrow.1 = gate ∧ arrow.2 ∈ valid.program.phaseIds ∧
      ∀ edge ∈ valid.program.identities, edge.2 ≠ arrow.2) ∨
    (arrow.2 = "output" ∧ arrow.1 ∈ valid.program.phaseIds ∧
      ∀ edge ∈ valid.program.identities, edge.1 ≠ arrow.1)

variable {valid} {front : List String} {gate : String} {arrows : List (String × String)}

/-- The last phase of the order has no outgoing edge. -/
theorem ValidProgram.exists_sink (hasEdges : valid.program.edges ≠ []) :
    ∃ id ∈ valid.program.phaseIds, ∀ edge ∈ valid.program.identities, edge.1 ≠ id := by
  obtain ⟨earlier, last, split⟩ := eq_nil_or_concat valid.ordered |>.resolve_left valid.ordered_ne_nil
  have idsSplit : valid.ordered.map Phase.id = earlier.map Phase.id ++ [last.id] := by
    simp [split]
  refine ⟨last.id, valid.mem_orderedIds.mp (by simp [idsSplit]), ?_⟩
  intro edge mem source
  have forwards := valid.ordered_respects hasEdges edge mem
  have targetMem := valid.mem_orderedIds.mpr ((valid.executable hasEdges).known edge mem).2
  have bound := idxOf_lt_length_iff.mpr targetMem
  have lastNotEarlier : last.id ∉ earlier.map Phase.id := by
    have distinct := valid.orderedIds_nodup
    rw [idsSplit] at distinct
    intro early
    exact (nodup_append.mp distinct).2.2 _ early _ (by simp) rfl
  rw [idsSplit] at forwards bound
  rw [source, idxOf_append_of_notMem lastNotEarlier] at forwards
  simp only [length_append, length_singleton, idxOf_cons_self] at forwards bound
  omega

namespace GatedArrows

variable (gated : GatedArrows valid front gate arrows)
include gated

variable (hasEdges : valid.program.edges ≠ [])
include hasEdges

/-- Every arrow joins two nodes of the spine. -/
theorem endpoints (gateFront : gate ∈ front) : ∀ arrow ∈ arrows,
    arrow.1 ∈ front ++ valid.ordered.map Phase.id ++ ["output"] ∧
      arrow.2 ∈ front ++ valid.ordered.map Phase.id ++ ["output"] := by
  have inner : ∀ {id}, id ∈ valid.program.phaseIds →
      id ∈ front ++ valid.ordered.map Phase.id ++ ["output"] := fun mem => by
    simp [valid.mem_orderedIds.mpr mem]
  intro arrow mem
  rcases (gated.mem_iff arrow).mp mem with fixedArrow | own | enters | leaves
  · have ends := mem_of_mem_consecutive fixedArrow
    exact ⟨by simp [ends.1], by simp [ends.2]⟩
  · have known := (valid.executable hasEdges).known arrow own
    exact ⟨inner known.1, inner known.2⟩
  · exact ⟨by simp [enters.1, gateFront], inner enters.2.1⟩
  · exact ⟨inner leaves.2.1, by simp [leaves.1]⟩

/-- Every arrow runs forwards along the spine. -/
theorem forwards (gateFront : gate ∈ front)
    (distinct : (front ++ valid.ordered.map Phase.id ++ ["output"]).Nodup) :
    Respects arrows (front ++ valid.ordered.map Phase.id ++ ["output"]) := by
  have innerDistinct := (nodup_append.mp distinct).1
  have notFront : ∀ {id}, id ∈ valid.program.phaseIds → id ∉ front := fun mem inFront =>
    disjoint_of_nodup_append innerDistinct inFront (valid.mem_orderedIds.mpr mem)
  have outputFresh : "output" ∉ front ++ valid.ordered.map Phase.id := fun mem =>
    disjoint_of_nodup_append distinct mem (by simp)
  -- The front stands first, then the phases in execution order, then the output.
  have phasePosition : ∀ {id}, id ∈ valid.program.phaseIds →
      (front ++ valid.ordered.map Phase.id ++ ["output"]).idxOf id =
        front.length + (valid.ordered.map Phase.id).idxOf id := fun mem => by
    rw [append_assoc, idxOf_append_of_notMem (notFront mem),
      idxOf_append_of_mem (valid.mem_orderedIds.mpr mem)]
  intro arrow mem
  rcases (gated.mem_iff arrow).mp mem with fixedArrow | own | enters | leaves
  · have ends := mem_of_mem_consecutive fixedArrow
    rw [append_assoc, idxOf_append_of_mem ends.1, idxOf_append_of_mem ends.2]
    exact respects_consecutive (nodup_append.mp innerDistinct).1 arrow fixedArrow
  · have known := (valid.executable hasEdges).known arrow own
    rw [phasePosition known.1, phasePosition known.2]
    exact Nat.add_lt_add_left (valid.ordered_respects hasEdges arrow own) _
  · rw [enters.1, append_assoc]
    exact idxOf_lt_idxOf_append _ gateFront (notFront enters.2.1)
  · rw [leaves.1]
    have ordered := valid.mem_orderedIds.mpr leaves.2.1
    exact idxOf_lt_idxOf_append _ (mem_append_right _ ordered) outputFresh

variable {more fixed : List String}

/-- A phase is fed by one of its own edges or by the gate. -/
theorem fed (starts : front = "task" :: more) :
    ∀ node ∈ front ++ valid.ordered.map Phase.id ++ ["output"], node ≠ "task" →
      ∃ arrow ∈ arrows, arrow.2 = node := by
  intro node mem notFirst
  rw [mem_append, mem_append, mem_singleton] at mem
  rcases mem with (inFront | isPhase) | rfl
  · have later : node ∈ more := by simpa [starts, notFirst] using inFront
    obtain ⟨arrow, inside, target⟩ := fed_consecutive "task" more node later
    exact ⟨arrow, (gated.mem_iff arrow).mpr (.inl (starts ▸ inside)), target⟩
  · by_cases hasIncoming : ∃ edge ∈ valid.program.identities, edge.2 = node
    · obtain ⟨edge, inside, target⟩ := hasIncoming
      exact ⟨edge, (gated.mem_iff edge).mpr (.inr (.inl inside)), target⟩
    · refine ⟨(gate, node), (gated.mem_iff _).mpr (.inr (.inr (.inl ?_))), rfl⟩
      exact ⟨rfl, valid.mem_orderedIds.mp isPhase,
        fun edge inside target => hasIncoming ⟨edge, inside, target⟩⟩
  · obtain ⟨sink, known, terminal⟩ := valid.exists_sink hasEdges
    exact ⟨(sink, "output"), (gated.mem_iff _).mpr (.inr (.inr (.inr ⟨rfl, known, terminal⟩))), rfl⟩

/-- A phase feeds one of its own edges or the output. -/
theorem feeds (ends : front = fixed ++ [gate]) :
    ∀ node ∈ front ++ valid.ordered.map Phase.id ++ ["output"], node ≠ "output" →
      ∃ arrow ∈ arrows, arrow.1 = node := by
  intro node mem notLast
  simp only [ends, mem_append, mem_singleton] at mem
  rcases mem with ((inFixed | rfl) | isPhase) | isOutput
  · obtain ⟨arrow, inside, source⟩ := feeds_consecutive fixed gate node inFixed
    exact ⟨arrow, (gated.mem_iff arrow).mpr (.inl (ends ▸ inside)), source⟩
  · obtain ⟨phase, ⟨known, initial⟩, -⟩ := (valid.executable hasEdges).oneRoot
    exact ⟨(node, phase.id), (gated.mem_iff _).mpr
      (.inr (.inr (.inl ⟨rfl, mem_map_of_mem known, initial⟩))), rfl⟩
  · by_cases hasOutgoing : ∃ edge ∈ valid.program.identities, edge.1 = node
    · obtain ⟨edge, inside, source⟩ := hasOutgoing
      exact ⟨edge, (gated.mem_iff edge).mpr (.inr (.inl inside)), source⟩
    · refine ⟨(node, "output"), (gated.mem_iff _).mpr (.inr (.inr (.inr ?_))), rfl⟩
      exact ⟨rfl, valid.mem_orderedIds.mp isPhase,
        fun edge inside source => hasOutgoing ⟨edge, inside, source⟩⟩
  · contradiction

/-- Gated arrows make a spine as soon as no phase takes a fixed id. -/
theorem spine (starts : front = "task" :: more) (ends : front = fixed ++ [gate])
    (distinct : (front ++ valid.ordered.map Phase.id ++ ["output"]).Nodup) :
    Spine (front ++ valid.ordered.map Phase.id ++ ["output"]) arrows where
  distinct := distinct
  endpoints := gated.endpoints hasEdges (by simp [ends])
  forwards := gated.forwards hasEdges (by simp [ends]) distinct
  fed := gated.fed hasEdges starts
  feeds := gated.feeds hasEdges ends

omit hasEdges

omit gated

end GatedArrows

/-! ### The arrows the compilers emit

The manifest compiler keeps the arrows of the phase graph and moves those that
leave the task node to the safety node.  The phase graph itself is the case in
which the gate is the task node. -/

/-- Move an arrow out of the task node to the gate. -/
def reroute (gate : String) (arrow : String × String) : String × String :=
  (if arrow.1 = "task" then gate else arrow.1, arrow.2)

theorem reroute_task : reroute "task" = id := by
  funext arrow
  by_cases leavesTask : arrow.1 = "task"
  · simp [reroute, Prod.ext_iff, leavesTask]
  · simp [reroute, leavesTask]

variable {arrow : String × String} {program : PhaseProgram} {fixed : List String}

theorem reroute_of_ne (other : arrow.1 ≠ "task") : reroute gate arrow = arrow := by
  simp [reroute, other]

theorem map_ends_chainEdges (previous : String) (phases : List Phase) :
    (chainEdges previous phases).map ends =
      consecutive (previous :: (phases.map Phase.id ++ ["output"])) := by
  induction phases generalizing previous with
  | nil => rfl
  | cons _ _ ih =>
    simp [chainEdges, ih, ends]

theorem map_reroute_eq_self {own : List (String × String)} (other : ∀ arrow ∈ own, arrow.1 ≠ "task") :
    own.map (reroute gate) = own := by
  calc own.map (reroute gate) = own.map id :=
        map_congr_left fun arrow mem => reroute_of_ne (other arrow mem)
    _ = own := map_id own

/-- Rerouting a chain that starts at the task node replaces its first node. -/
theorem map_reroute_consecutive (gate : String) {rest : List String} (fresh : "task" ∉ rest) :
    (consecutive ("task" :: rest)).map (reroute gate) = consecutive (gate :: rest) := by
  cases rest with
  | nil => rfl
  | cons second rest =>
    have unchanged : (consecutive (second :: rest)).map (reroute gate) = consecutive (second :: rest) :=
      map_reroute_eq_self fun arrow mem leavesTask =>
        fresh (leavesTask ▸ (mem_of_mem_consecutive mem).1)
    simp [unchanged, reroute]

theorem mem_map_ends_boundaryEdges {phase : Phase} : arrow ∈ (boundaryEdges program phase).map ends ↔
    (arrow = ("task", phase.id) ∧ ∀ edge ∈ program.identities, edge.2 ≠ phase.id) ∨
    (arrow = (phase.id, "output") ∧ ∀ edge ∈ program.identities, edge.1 ≠ phase.id) := by
  have untouched (side : String × String → String) :
      Dict.tally (program.identities.map side) phase.id = 0 ↔
        ∀ edge ∈ program.identities, side edge ≠ phase.id := by
    rw [Dict.tally_eq_zero_iff, mem_map]
    simp only [not_exists, not_and, ne_eq]
  rw [boundaryEdges, map_append, mem_append, ReadyQueue.incomingCounts, ← untouched, ← untouched]
  refine or_congr ?_ ?_
  · split_ifs with rooted <;> simp [ends, rooted]
  · split_ifs with terminal <;> simp [ends, terminal]

/-- The start and finish arrows of the phases, after rerouting. -/
theorem mem_map_reroute_boundaryEdges (fresh : "task" ∉ program.phaseIds) :
    arrow ∈ ((program.phases.flatMap (boundaryEdges program)).map ends).map (reroute gate) ↔
      (arrow.1 = gate ∧ arrow.2 ∈ program.phaseIds ∧ ∀ edge ∈ program.identities, edge.2 ≠ arrow.2) ∨
      (arrow.2 = "output" ∧ arrow.1 ∈ program.phaseIds ∧
        ∀ edge ∈ program.identities, edge.1 ≠ arrow.1) := by
  have notTask : ∀ phase ∈ program.phases, phase.id ≠ "task" := fun phase mem same =>
    fresh (same ▸ mem_map_of_mem mem)
  rw [map_flatMap]
  constructor
  · intro mem
    obtain ⟨_, inside, rfl⟩ := mem_map.mp mem
    obtain ⟨phase, known, own⟩ := mem_flatMap.mp inside
    have knownId : phase.id ∈ program.phaseIds := mem_map_of_mem known
    rcases mem_map_ends_boundaryEdges.mp own with ⟨rfl, rooted⟩ | ⟨rfl, terminal⟩
    · exact .inl ⟨rfl, knownId, rooted⟩
    · rw [reroute_of_ne (notTask phase known)]
      exact .inr ⟨rfl, knownId, terminal⟩
  · obtain ⟨_, _⟩ := arrow
    rintro (⟨rfl, known, rooted⟩ | ⟨rfl, known, terminal⟩)
    · obtain ⟨phase, mem, rfl⟩ := mem_map.mp known
      refine mem_map.mpr ⟨("task", phase.id), mem_flatMap.mpr ⟨phase, mem, ?_⟩, rfl⟩
      exact mem_map_ends_boundaryEdges.mpr (.inl ⟨rfl, rooted⟩)
    · obtain ⟨phase, mem, rfl⟩ := mem_map.mp known
      refine mem_map.mpr ⟨(phase.id, "output"), mem_flatMap.mpr ⟨phase, mem, ?_⟩,
        reroute_of_ne (notTask phase mem)⟩
      exact mem_map_ends_boundaryEdges.mpr (.inr ⟨rfl, terminal⟩)

/-! ### The law for both graphs -/

/-- A compiled graph whose fixed nodes are `front`, with its phases behind `gate`. -/
def routedArrows (program : PhaseProgram) (ordered : List Phase) (front : List String)
    (gate : String) : List (String × String) :=
  consecutive front ++ ((compiledEdges program ordered).map GraphEdge.ends).map (reroute gate)

theorem routedArrows_of_edges_nil (noEdges : valid.program.edges = [])
    (fresh : "task" ∉ valid.ordered.map Phase.id) :
    routedArrows valid.program valid.ordered (fixed ++ [gate]) gate =
      consecutive (fixed ++ [gate] ++ valid.ordered.map Phase.id ++ ["output"]) := by
  have freshChain : "task" ∉ valid.ordered.map Phase.id ++ ["output"] := by
    simpa using fresh
  rw [routedArrows, compiledEdges, if_pos noEdges, map_ends_chainEdges,
    map_reroute_consecutive gate freshChain, ← consecutive_append_cons]
  simp

theorem routedArrows_of_edges (hasEdges : valid.program.edges ≠ [])
    (fresh : "task" ∉ valid.program.phaseIds) :
    routedArrows valid.program valid.ordered front gate =
      consecutive front ++ (valid.program.identities ++
        ((valid.program.phases.flatMap (boundaryEdges valid.program)).map
          ends).map (reroute gate)) := by
  have ownEnds : (valid.program.edges.map fun edge =>
      ({ fromId := edge.fromId, toId := edge.toId, condition := .next } : GraphEdge)).map
        ends = valid.program.identities := by
    simp [identities, ends]
  have unchanged : valid.program.identities.map (reroute gate) = valid.program.identities :=
    map_reroute_eq_self fun arrow mem leavesTask =>
      fresh (leavesTask ▸ ((valid.executable hasEdges).known arrow mem).1)
  rw [routedArrows, compiledEdges, if_neg hasEdges, map_append, map_append, ownEnds, unchanged]

/-- In an edge-free program the arrows between phases are the consecutive pairs. -/
theorem phaseArrows_of_edges_nil (noEdges : valid.program.edges = [])
    (frontFresh : ∀ id ∈ front, id ∉ valid.program.phaseIds)
    (outputFresh : "output" ∉ valid.program.phaseIds) :
    (consecutive (front ++ valid.ordered.map Phase.id ++ ["output"])).filter (fun arrow =>
      decide (arrow.1 ∈ valid.program.phaseIds ∧ arrow.2 ∈ valid.program.phaseIds)) =
        valid.program.authoredArrows := by
  have listOrder : valid.ordered.map Phase.id = valid.program.phaseIds := by
    rw [valid.ordered_of_edges_nil noEdges, phaseIds]
  rw [listOrder, append_assoc, filter_consecutive_append, filter_consecutive_concat,
    authoredArrows, if_pos noEdges]
  · intro pair mem
    exact decide_eq_true (mem_of_mem_consecutive mem)
  · simp [outputFresh]
  · intro id mem target
    simp [frontFresh id mem]

/-- In a program with edges the arrows between phases are the authored ones. -/
theorem phaseArrows_of_edges (hasEdges : valid.program.edges ≠ [])
    (frontFresh : ∀ id ∈ front, id ∉ valid.program.phaseIds) (gateFront : gate ∈ front)
    (taskFront : "task" ∈ front) (outputFresh : "output" ∉ valid.program.phaseIds) :
    (routedArrows valid.program valid.ordered front gate).filter (fun arrow =>
      decide (arrow.1 ∈ valid.program.phaseIds ∧ arrow.2 ∈ valid.program.phaseIds)) =
        valid.program.authoredArrows := by
  have taskFresh := frontFresh _ taskFront
  rw [routedArrows_of_edges hasEdges taskFresh, filter_append, filter_append,
    filter_eq_nil_iff.mpr, filter_eq_self.mpr, filter_eq_nil_iff.mpr,
    authoredArrows, if_neg hasEdges, nil_append, append_nil]
  · intro arrow mem
    rcases (mem_map_reroute_boundaryEdges taskFresh).mp mem with enters | leaves
    · simp [enters.1, frontFresh _ gateFront]
    · simp [leaves.1, outputFresh]
  · intro arrow mem
    exact decide_eq_true ((valid.executable hasEdges).known arrow mem)
  · intro arrow mem
    simp [frontFresh _ (mem_of_mem_consecutive mem).1]

/-- A compiled graph obeys the law as soon as its node ids are distinct. -/
theorem routedArrows_law {more : List String} (starts : fixed ++ [gate] = "task" :: more)
    (distinct : (fixed ++ [gate] ++ valid.ordered.map Phase.id ++ ["output"]).Nodup) :
    GraphLaw valid.program (fixed ++ [gate] ++ valid.ordered.map Phase.id ++ ["output"])
      (routedArrows valid.program valid.ordered (fixed ++ [gate]) gate) := by
  have frontFresh : ∀ id ∈ fixed ++ [gate], id ∉ valid.program.phaseIds := fun id inFront known =>
    disjoint_of_nodup_append (nodup_append.mp distinct).1 inFront (valid.mem_orderedIds.mpr known)
  have outputFresh : "output" ∉ valid.program.phaseIds := fun known =>
    disjoint_of_nodup_append distinct (mem_append_right _ (valid.mem_orderedIds.mpr known)) (by simp)
  have taskFront : "task" ∈ fixed ++ [gate] := by simp [starts]
  have taskFresh := frontFresh _ taskFront
  by_cases noEdges : valid.program.edges = []
  · rw [routedArrows_of_edges_nil noEdges (fun known => taskFresh (valid.mem_orderedIds.mp known))]
    refine Spine.law ?_ (phaseArrows_of_edges_nil noEdges frontFresh outputFresh)
    rw [starts] at distinct ⊢
    exact Spine.ofConsecutive distinct
  · refine Spine.law ?_ (phaseArrows_of_edges noEdges frontFresh (by simp) taskFront outputFresh)
    refine GatedArrows.spine ⟨fun arrow => ?_⟩ noEdges starts rfl distinct
    rw [routedArrows_of_edges noEdges taskFresh, mem_append, mem_append,
      mem_map_reroute_boundaryEdges taskFresh]

/-- The node ids are distinct exactly if the phases avoid the fixed ids. -/
theorem nodeIds_nodup_iff {front : List String} (frontDistinct : (front ++ ["output"]).Nodup) :
    (front ++ valid.ordered.map Phase.id ++ ["output"]).Nodup ↔
      ∀ id ∈ valid.program.phaseIds, id ∉ front ++ ["output"] := by
  have rotate : (front ++ valid.ordered.map Phase.id ++ ["output"]).Perm
      ((front ++ ["output"]) ++ valid.ordered.map Phase.id) := by
    rw [append_assoc, append_assoc]
    exact List.Perm.append_left front perm_append_comm
  rw [rotate.nodup_iff, nodup_append']
  constructor
  · rintro ⟨-, -, separate⟩ _ known reserved
    exact separate reserved (valid.mem_orderedIds.mpr known)
  · intro fresh
    exact ⟨frontDistinct, valid.orderedIds_nodup,
      fun id reserved ordered => fresh id (valid.mem_orderedIds.mp ordered) reserved⟩

end Graph

/-- What the phase compiler returns for an accepted program. -/
theorem compilePhaseProgram_eq (valid : ValidProgram) :
    ∃ graph, compilePhaseProgram valid.program = .ok graph ∧ graph.nodes = [taskNode] ++
        (valid.ordered.zipIdx 1).map (fun entry => phaseNode entry.2 entry.1) ++ [outputNode] ∧
      graph.edges = compiledEdges valid.program valid.ordered := by
  simp only [compilePhaseProgram, phaseTurnBound, valid.orderedPhases_eq]
  exact ⟨_, rfl, rfl, rfl⟩

theorem map_id_phaseNodes (phases : List Phase) (start : Nat) :
    ((phases.zipIdx start).map fun entry => phaseNode entry.2 entry.1).map GraphNode.id =
      phases.map Phase.id := by
  induction phases generalizing start with
  | nil => rfl
  | cons _ _ ih =>
    simpa [phaseNode] using ih (start + 1)

/-- What the manifest compiler returns for a manifest with an accepted program. -/
theorem compilePhaseManifest_eq (valid : ValidProgram) {manifest : HarnessManifest}
    (carries : manifest.phaseProgram = some valid.program) :
    ∃ graph, compilePhaseManifest manifest = .ok graph ∧
      graph.nodes = [taskNode, memoryNode manifest, integrationNode manifest, safetyNode manifest] ++
        (valid.ordered.zipIdx 1).map (fun entry => phaseNode entry.2 entry.1) ++ [outputNode] ∧
      graph.edges = contextEdges ++ (compiledEdges valid.program valid.ordered).map rerouteEdge := by
  obtain ⟨_, compiled, nodes, edges⟩ := compilePhaseProgram_eq valid
  simp only [compilePhaseManifest, carries, compiled, phaseTurnBound, valid.orderedPhases_eq]
  refine ⟨_, rfl, ?_, by rw [edges]⟩
  simp [nodes]

/-- Both compilers succeed on an accepted program, and both graphs obey the law
exactly if no phase takes the id of a fixed node. -/
theorem compiledGraphs_law_iff (valid : ValidProgram) (manifest : HarnessManifest)
    (carries : manifest.phaseProgram = some valid.program) :
    ∃ phaseGraph manifestGraph, compilePhaseProgram valid.program = .ok phaseGraph ∧
      compilePhaseManifest manifest = .ok manifestGraph ∧
      ((GraphLaw valid.program phaseGraph.nodeIds phaseGraph.arrows ∧
          GraphLaw valid.program manifestGraph.nodeIds manifestGraph.arrows) ↔
        ∀ id ∈ valid.program.phaseIds, id ∉ reservedNodeIds) := by
  obtain ⟨phaseGraph, phaseCompiled, phaseNodes, phaseEdges⟩ := compilePhaseProgram_eq valid
  obtain ⟨manifestGraph, manifestCompiled, manifestNodes, manifestEdges⟩ :=
    compilePhaseManifest_eq valid carries
  refine ⟨phaseGraph, manifestGraph, phaseCompiled, manifestCompiled, ?_⟩
  have phaseIds : phaseGraph.nodeIds = [] ++ ["task"] ++ valid.ordered.map Phase.id ++ ["output"] := by
    simp [PhaseGraph.nodeIds, phaseNodes, map_id_phaseNodes, taskNode, outputNode, -map_map]
  have phaseArrows : phaseGraph.arrows =
      routedArrows valid.program valid.ordered ([] ++ ["task"]) "task" := by
    simp [PhaseGraph.arrows, phaseEdges, routedArrows, reroute_task]
  have manifestIds : manifestGraph.nodeIds =
      ["task", "memory", "integrations"] ++ ["safety"] ++ valid.ordered.map Phase.id ++ ["output"] := by
    simp [ManifestGraph.nodeIds, manifestNodes, map_id_phaseNodes, taskNode, memoryNode,
      integrationNode, safetyNode, outputNode, -map_map]
  have manifestArrows : manifestGraph.arrows = routedArrows valid.program valid.ordered
        (["task", "memory", "integrations"] ++ ["safety"]) "safety" := by
    rw [ManifestGraph.arrows, manifestEdges, map_append, routedArrows, map_map, map_map]
    rfl
  rw [phaseIds, phaseArrows, manifestIds, manifestArrows]
  constructor
  · rintro ⟨-, manifestLaw⟩
    exact (nodeIds_nodup_iff (by decide)).mp manifestLaw.nodesDistinct
  · intro fresh
    refine ⟨routedArrows_law rfl ((nodeIds_nodup_iff (by decide)).mpr ?_),
      routedArrows_law rfl ((nodeIds_nodup_iff (by decide)).mpr fresh)⟩
    intro id known reserved
    have : id = "task" ∨ id = "output" := by simpa using reserved
    exact fresh id known (by rcases this with rfl | rfl <;> decide)

def diamondManifest : HarnessManifest :=
  { schemaVersion := 2
    cwd := "/workspace"
    task := { instructions := "Ship the product." }
    phaseProgram := some diamondProgram }

/-- The diamond uses no fixed id, so both of its graphs obey the law. -/
theorem diamondManifest_law : ∃ phaseGraph manifestGraph,
    compilePhaseProgram diamondProgram = .ok phaseGraph ∧
    compilePhaseManifest diamondManifest = .ok manifestGraph ∧
    GraphLaw diamondProgram phaseGraph.nodeIds phaseGraph.arrows ∧
    GraphLaw diamondProgram manifestGraph.nodeIds manifestGraph.arrows := by
  obtain ⟨phaseGraph, manifestGraph, phaseCompiled, manifestCompiled, law⟩ :=
    compiledGraphs_law_iff ⟨diamondProgram, by decide, by decide⟩ diamondManifest rfl
  exact ⟨phaseGraph, manifestGraph, phaseCompiled, manifestCompiled, law.mpr (by decide)⟩

/-- A program whose only phase is called `task`; every admission check accepts it. -/
def taskNamedProgram : ValidProgram :=
  { program :=
      { phases := [.work { id := "task", name := "Task", goal := "Do the work." }] }
    wellFormed := by decide
    validated := by decide }

def taskNamedManifest : HarnessManifest :=
  { schemaVersion := 2
    cwd := "/workspace"
    task := { instructions := "Do the work." }
    phaseProgram := some taskNamedProgram.program }

/-- Its phase graph has two nodes of one id and a loop, and its manifest graph
cuts the safety node off from that phase. -/
theorem taskNamedProgram_breaks_law : ∃ phaseGraph manifestGraph,
    compilePhaseProgram taskNamedProgram.program = .ok phaseGraph ∧
    compilePhaseManifest taskNamedManifest = .ok manifestGraph ∧
    phaseGraph.nodeIds = ["task", "task", "output"] ∧
    phaseGraph.arrows = [("task", "task"), ("task", "output")] ∧
    manifestGraph.arrows =
      [("task", "memory"), ("memory", "integrations"), ("integrations", "safety"),
        ("safety", "task"), ("safety", "output")] ∧
    ¬ GraphLaw taskNamedProgram.program phaseGraph.nodeIds phaseGraph.arrows ∧
    ¬ GraphLaw taskNamedProgram.program manifestGraph.nodeIds manifestGraph.arrows := by
  refine ⟨_, _, rfl, rfl, by decide, by decide, by decide, ?_, ?_⟩
  · intro law
    exact absurd law.nodesDistinct (by decide)
  · intro law
    exact absurd law.nodesDistinct (by decide)

end WeaveCodex.ControlPlane
