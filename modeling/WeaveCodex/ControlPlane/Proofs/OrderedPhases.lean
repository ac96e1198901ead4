/-
Purpose: `ordered_phases` accepts exactly the graphs with distinct, known,
  non-looping edges, one starting node and no cycle, and returns their
  lexicographically least topological order.  The ready-queue loop is related to
  the greedy order of the library once (`readyLoop_ordered`); everything else is
  read off the greedy order.
-/
import WeaveCodex.ControlPlane.PhaseProgram
import WeaveCodex.Library.Fallible

namespace WeaveCodex.ControlPlane

open Library Except
open Library.TopologicalOrder ReadyQueue List

/-- The conditions under which arrows make an executable graph. -/
structure ExecutableGraph (program : PhaseProgram) : Prop where
  distinct : program.identities.Nodup
  known : ∀ edge ∈ program.identities, edge.1 ∈ program.phaseIds ∧ edge.2 ∈ program.phaseIds
  noSelfLoop : ∀ edge ∈ program.identities, edge.1 ≠ edge.2
  oneRoot : ∃! phase, phase ∈ program.phases ∧ ∀ edge ∈ program.identities, edge.2 ≠ phase.id
  acyclic : Acyclic program.identities

namespace PhaseProgram

variable {program : PhaseProgram}

/-! ### The tables -/

theorem byId_isNone_iff {id : String} : (program.byId id).isNone ↔ id ∉ program.phaseIds := by
  rw [Option.isNone_iff_eq_none, byId, Dict.ofEntries_eq_none]
  simp [phaseIds]

variable (distinct : program.phaseIds.Nodup)
include distinct

theorem byId_of_mem {phase : Phase} (mem : phase ∈ program.phases) :
    program.byId phase.id = some phase :=
  Dict.ofEntries_map_self distinct mem

/-- Reading the phases back by id restores the phase list. -/
theorem filterMap_byId_phaseIds : program.phaseIds.filterMap program.byId = program.phases := by
  rw [phaseIds, filterMap_map]
  have found : ∀ phase ∈ program.phases,
      (program.byId ∘ Phase.id) phase = some phase := fun phase mem =>
    byId_of_mem distinct mem
  rw [filterMap_congr found]
  simp

omit distinct

theorem length_ne_dedup_length_iff {α : Type} [DecidableEq α] {entries : List α} :
    entries.length ≠ entries.dedup.length ↔ ¬ entries.Nodup := by
  rw [not_iff_not, ← dedup_eq_self]
  constructor
  · intro same
    exact (dedup_sublist entries).eq_of_length same.symm
  · intro same
    rw [same]

theorem unknownNodes_eq_nil_iff : program.unknownNodes = [] ↔ ∀ edge ∈ program.identities,
    edge.1 ∈ program.phaseIds ∧ edge.2 ∈ program.phaseIds := by
  have noDedup : ∀ items : List String, items.dedup = [] ↔ items = [] := by
    intro items
    simp [eq_nil_iff_forall_not_mem]
  rw [unknownNodes, noDedup, filter_eq_nil_iff]
  simp only [byId_isNone_iff, not_not, mem_flatMap]
  constructor
  · intro all edge mem
    exact ⟨all _ ⟨edge, mem, by simp⟩, all _ ⟨edge, mem, by simp⟩⟩
  · rintro known _ ⟨edge, mem, isEnd⟩
    rcases mem_cons.mp isEnd with rfl | isTarget
    · exact (known edge mem).1
    · rw [mem_singleton.mp isTarget]
      exact (known edge mem).2

include distinct

/-- One root is one phase that no arrow leads to. -/
theorem roots_length_eq_one_iff : program.roots.length = 1 ↔ ∃! phase, phase ∈ program.phases ∧
    ∀ edge ∈ program.identities, edge.2 ≠ phase.id := by
  have isRoot : ∀ id : String, incomingCounts program.identities id = 0 ↔
        ∀ edge ∈ program.identities, edge.2 ≠ id := by
    intro id
    rw [incomingCounts_eq]
    norm_cast
    rw [openArrows_eq_zero_iff]
    simp
  have mapped : program.roots = (program.phases.filter fun phase =>
      decide (∀ edge ∈ program.identities, edge.2 ≠ phase.id)).map Phase.id := by
    simp only [roots, phaseIds, filter_map, isRoot]
    rfl
  rw [mapped, length_map, length_eq_one_iff]
  have noRepeats : (program.phases.filter fun phase =>
      decide (∀ edge ∈ program.identities, edge.2 ≠ phase.id)).Nodup :=
    (List.Nodup.of_map _ distinct).filter _
  constructor
  · rintro ⟨root, only⟩
    have memberIff : ∀ phase, (phase ∈ program.phases ∧
        ∀ edge ∈ program.identities, edge.2 ≠ phase.id) ↔ phase = root := by
      intro phase
      rw [← mem_singleton, ← only, mem_filter, decide_eq_true_eq]
    exact ⟨root, (memberIff root).mpr rfl, fun phase rooted => (memberIff phase).mp rooted⟩
  · rintro ⟨root, rooted, unique⟩
    refine ⟨root, ?_⟩
    refine perm_singleton.mp ((perm_ext_iff_of_nodup noRepeats (by simp)).mpr ?_)
    intro phase
    rw [mem_filter, decide_eq_true_eq, mem_singleton]
    exact ⟨fun isRootPhase => unique phase isRootPhase, fun same => same ▸ rooted⟩

/-! ### The ready-queue loop -/

variable (known : ∀ edge ∈ program.identities, edge.1 ∈ program.phaseIds ∧ edge.2 ∈ program.phaseIds)

include known in
theorem represents : ReadyQueue.Represents program.phaseIds program.identities program.position
    (outgoingTargets program.identities) where
  targets edge mem := (known edge mem).2
  position_eq id mem := by
    rw [position, Dict.ofEntries_zipIdx distinct mem, Option.getD_some]
  count_outgoing := count_outgoingTargets program.identities

include known in
/-- The loop emits the greedy order of the graph. -/
theorem readyLoop_ordered : program.readyLoop.ordered = greedy program.phaseIds program.identities := by
  have emitted : program.readyLoop.ordered =
      [] ++ greedyFrom program.phaseIds program.identities program.phases.length [] :=
    run_ordered (represents distinct known) program.phases.length (initial_tracks distinct)
  have sameLength : program.phaseIds.length = program.phases.length := by
    simp [phaseIds]
  rw [emitted, nil_append, greedy, sameLength]

include known in
/-- The `while ready` loop has ended: its queue is empty. -/
theorem readyLoop_finished : program.readyLoop.ready = [] := by
  refine run_ready_nil (represents distinct known) (initial_tracks distinct) ?_
  refine Nat.le_trans (length_filter_le _ _) ?_
  simp [phaseIds]

include known in
/-- The loop reaches every phase exactly when the arrows have no cycle. -/
theorem readyLoop_length_iff : program.readyLoop.ordered.length = program.phases.length ↔
    Acyclic program.identities := by
  rw [readyLoop_ordered distinct known]
  have sameLength : program.phases.length = program.phaseIds.length := by
    simp [phaseIds]
  rw [sameLength]
  constructor
  · intro full
    have perm : (greedy program.phaseIds program.identities).Perm program.phaseIds :=
      (subperm_of_subset greedy_nodup greedy_subset).perm_of_length_le (Nat.le_of_eq full.symm)
    exact acyclic_of_respects (greedy_respects fun edge mem =>
      perm.mem_iff.mpr (known edge mem).2)
  · intro acyclic
    exact (greedy_perm distinct acyclic fun edge mem => (known edge mem).1).length_eq

omit distinct

end PhaseProgram

open PhaseProgram

variable {order : List Phase} {program : PhaseProgram}

/-- Acceptance and the returned order, in terms of the graph alone. -/
theorem orderedPhases_eq_ok_iff (distinct : program.phaseIds.Nodup) (hasEdges : program.edges ≠ []) :
    orderedPhases program = .ok order ↔ ExecutableGraph program ∧
        order = (greedy program.phaseIds program.identities).filterMap program.byId := by
  have noLoops : ¬ program.identities.any (fun edge => edge.1 == edge.2) = true ↔
      ∀ edge ∈ program.identities, edge.1 ≠ edge.2 := by
    simp only [any_eq_true, beq_iff_eq, not_exists, not_and, ne_eq]
  unfold orderedPhases
  rw [if_neg hasEdges]
  simp only [ite_error_eq_ok_iff, length_ne_dedup_length_iff, noLoops, ne_eq, not_not, ok.injEq,
    unknownNodes_eq_nil_iff, roots_length_eq_one_iff distinct]
  constructor
  · rintro ⟨edgesDistinct, known, noSelfLoop, oneRoot, full, rfl⟩
    rw [readyLoop_length_iff distinct known] at full
    rw [readyLoop_ordered distinct known]
    exact ⟨⟨edgesDistinct, known, noSelfLoop, oneRoot, full⟩, rfl⟩
  · rintro ⟨graph, rfl⟩
    rw [readyLoop_length_iff distinct graph.known, readyLoop_ordered distinct graph.known]
    exact ⟨graph.distinct, graph.known, graph.noSelfLoop, graph.oneRoot, graph.acyclic, rfl⟩

/-- Every id of the program names a phase, and that phase carries the id. -/
theorem PhaseProgram.map_id_filterMap_byId (distinct : program.phaseIds.Nodup) {ids : List String}
    (known : ids ⊆ program.phaseIds) :
    (ids.filterMap program.byId).map Phase.id = ids := by
  induction ids with
  | nil => rfl
  | cons _ _ ih =>
    obtain ⟨_, mem, rfl⟩ := mem_map.mp (known mem_cons_self)
    have rest := ih fun other later => known (mem_cons_of_mem _ later)
    rw [filterMap_cons, byId_of_mem distinct mem]
    simp only [map_cons, rest]

section Accepted

variable (distinct : program.phaseIds.Nodup) (hasEdges : program.edges ≠ [])
  (accepted : orderedPhases program = .ok order)

include distinct hasEdges accepted

/-- The accepted order of a graph with edges, as a list of ids. -/
theorem map_id_of_orderedPhases : order.map Phase.id = greedy program.phaseIds program.identities := by
  obtain ⟨-, rfl⟩ := (orderedPhases_eq_ok_iff distinct hasEdges).mp accepted
  exact map_id_filterMap_byId distinct greedy_subset

omit hasEdges in
/-- Every accepted order is a permutation of the phases. -/
theorem orderedPhases_perm : order.Perm program.phases := by
  by_cases hasEdges : program.edges = []
  · have listed : order = program.phases := by
      simpa [orderedPhases, hasEdges] using accepted.symm
    rw [listed]
  · obtain ⟨graph, rfl⟩ := (orderedPhases_eq_ok_iff distinct hasEdges).mp accepted
    have perm := (greedy_perm distinct graph.acyclic fun edge mem =>
      (graph.known edge mem).1).filterMap program.byId
    rwa [filterMap_byId_phaseIds distinct] at perm

/-- The accepted order of a graph with edges puts the source of every edge first. -/
theorem orderedPhases_respects : Respects program.identities (order.map Phase.id) := by
  obtain ⟨graph, -⟩ := (orderedPhases_eq_ok_iff distinct hasEdges).mp accepted
  have idsEq := map_id_of_orderedPhases distinct hasEdges accepted
  have perm := orderedPhases_perm distinct accepted
  rw [idsEq]
  refine greedy_respects fun edge mem => ?_
  rw [← idsEq]
  exact (perm.map Phase.id).mem_iff.mpr (graph.known edge mem).2

end Accepted

/-- What the validator has checked once it accepts. -/
theorem validateProgram_eq_ok {result : PhaseProgram}
    (accepted : validateProgram program = .ok result) :
    program.phaseIds.Nodup ∧ ∃ ordered, orderedPhases program = .ok ordered ∧
        (ordered.map Phase.kind).head? = some .work ∧
        hasAdjacentCheckpoints ordered = false := by
  unfold validateProgram at accepted
  simp only [bind, Except.bind, pure, pure, throw, throwThe, MonadExceptOf.throw] at accepted
  split at accepted
  · simp at accepted
  rename_i unique
  simp only [ne_eq, not_not] at unique
  have distinct : program.phaseIds.Nodup := by
    by_contra repeated
    exact length_ne_dedup_length_iff.mpr repeated unique
  split at accepted
  · simp at accepted
  cases orderEq : orderedPhases program with
  | error => simp [orderEq] at accepted
  | ok ordered =>
    simp only [orderEq] at accepted
    split at accepted
    · simp at accepted
    rename_i firstWork
    split at accepted
    · simp at accepted
    rename_i notAdjacent
    exact ⟨distinct, ordered, rfl, by simpa using firstWork, by simpa using notAdjacent⟩

namespace ValidProgram

variable (valid : ValidProgram)

/-- The execution order of an accepted program. -/
def ordered : List Phase :=
  match orderedPhases valid.program with
  | .ok ordered => ordered
  | .error _ => []

theorem distinct : valid.program.phaseIds.Nodup :=
  (validateProgram_eq_ok valid.validated).1

theorem orderedPhases_eq : orderedPhases valid.program = .ok valid.ordered := by
  obtain ⟨-, _, accepted, -⟩ := validateProgram_eq_ok valid.validated
  rw [ValidProgram.ordered, accepted]

theorem ordered_perm : valid.ordered.Perm valid.program.phases :=
  orderedPhases_perm valid.distinct valid.orderedPhases_eq

theorem orderedIds_nodup : (valid.ordered.map Phase.id).Nodup :=
  (valid.ordered_perm.map Phase.id).nodup_iff.mpr valid.distinct

theorem mem_orderedIds {id : String} : id ∈ valid.ordered.map Phase.id ↔ id ∈ valid.program.phaseIds :=
  (valid.ordered_perm.map Phase.id).mem_iff

/-- The order starts with a work phase. -/
theorem ordered_head : (valid.ordered.map Phase.kind).head? = some .work := by
  obtain ⟨-, _, accepted, _, -⟩ := validateProgram_eq_ok valid.validated
  rwa [ValidProgram.ordered, accepted]

theorem ordered_ne_nil : valid.ordered ≠ [] := by
  intro empty
  have := valid.ordered_head
  simp [empty] at this

theorem executable (hasEdges : valid.program.edges ≠ []) : ExecutableGraph valid.program :=
  ((orderedPhases_eq_ok_iff valid.distinct hasEdges).mp valid.orderedPhases_eq).1

theorem ordered_respects (hasEdges : valid.program.edges ≠ []) :
    Respects valid.program.identities (valid.ordered.map Phase.id) :=
  orderedPhases_respects valid.distinct hasEdges valid.orderedPhases_eq

theorem ordered_of_edges_nil (noEdges : valid.program.edges = []) :
    valid.ordered = valid.program.phases := by
  have accepted := valid.orderedPhases_eq
  simpa [orderedPhases, noEdges] using accepted.symm

end ValidProgram

/-- A phase stands at the position of its id. -/
theorem PhaseProgram.idxOf_phase (distinct : program.phaseIds.Nodup) {phase : Phase}
    (mem : phase ∈ program.phases) :
    program.phases.idxOf phase = program.phaseIds.idxOf phase.id := by
  obtain ⟨before, _, split⟩ := append_of_mem mem
  have notBefore : phase.id ∉ before.map Phase.id := by
    rw [phaseIds, split, map_append, map_cons] at distinct
    intro early
    exact (nodup_append.mp distinct).2.2 _ early _ (by simp) rfl
  have phaseNotBefore : phase ∉ before := fun early => notBefore (mem_map_of_mem early)
  rw [phaseIds, split, map_append, map_cons,
    idxOf_append_of_notMem phaseNotBefore, idxOf_append_of_notMem notBefore]
  simp

/-- The positions of a list of the program's phases, read through their ids. -/
theorem PhaseProgram.map_idxOf_phases (distinct : program.phaseIds.Nodup)
    (perm : order.Perm program.phases) :
    order.map program.phases.idxOf = (order.map Phase.id).map program.phaseIds.idxOf := by
  rw [map_map]
  refine map_congr_left fun phase mem => ?_
  exact idxOf_phase distinct (perm.mem_iff.mp mem)

/-- For distinct phase ids, `ordered_phases` succeeds exactly on edge-free
programs and executable graphs.  On a graph with edges its result is a
permutation of the phases that respects every edge, and no permutation that
respects every edge has a lexicographically smaller sequence of positions. -/
theorem orderedPhases_accepts_and_orders (program : PhaseProgram) (distinct : program.phaseIds.Nodup) :
    ((∃ order, orderedPhases program = .ok order) ↔ program.edges = [] ∨ ExecutableGraph program) ∧
      ∀ order, program.edges ≠ [] → orderedPhases program = .ok order → order.Perm program.phases ∧
        Respects program.identities (order.map Phase.id) ∧
        ∀ other : List Phase, other.Perm program.phases →
          Respects program.identities (other.map Phase.id) →
          LexAtMost (order.map program.phases.idxOf) (other.map program.phases.idxOf) := by
  constructor
  · by_cases hasEdges : program.edges = []
    · simp [orderedPhases, hasEdges]
    · simp only [orderedPhases_eq_ok_iff distinct hasEdges, hasEdges, false_or,
        exists_and_left, exists_eq, and_true]
  · intro order hasEdges accepted
    have perm := orderedPhases_perm distinct accepted
    refine ⟨perm, orderedPhases_respects distinct hasEdges accepted, ?_⟩
    intro other otherPerm otherRespects
    rw [map_idxOf_phases distinct perm, map_idxOf_phases distinct otherPerm,
      map_id_of_orderedPhases distinct hasEdges accepted]
    exact greedyFrom_least distinct (show ([] ++ _).Perm _ from otherPerm.map Phase.id) otherRespects

/-- The diamond of the canvas tests: one node feeds two, which feed a fourth. -/
def diamondProgram : PhaseProgram :=
  { phases :=
      [ .work { id := "frame", name := "Frame product", goal := "Define shared interfaces." },
        .work { id := "backend", name := "Backend", goal := "Build backend services." },
        .work { id := "auth", name := "Auth", goal := "Build authentication." },
        .work { id := "frontend", name := "Frontend", goal := "Build against both contracts." } ]
    edges :=
      [⟨"frame", "backend"⟩, ⟨"frame", "auth"⟩, ⟨"backend", "frontend"⟩, ⟨"auth", "frontend"⟩] }

/-- The diamond is accepted in its listed order, which is therefore the least. -/
theorem diamondProgram_ordered : orderedPhases diamondProgram = .ok diamondProgram.phases ∧
    ∀ other : List Phase, other.Perm diamondProgram.phases →
      Respects diamondProgram.identities (other.map Phase.id) →
      LexAtMost (diamondProgram.phases.map diamondProgram.phases.idxOf)
        (other.map diamondProgram.phases.idxOf) := by
  have accepted : orderedPhases diamondProgram = .ok diamondProgram.phases := by decide
  exact ⟨accepted, ((orderedPhases_accepts_and_orders diamondProgram (by decide)).2
    _ (by decide) accepted).2.2⟩

end WeaveCodex.ControlPlane
