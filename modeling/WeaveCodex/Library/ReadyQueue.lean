/-
Purpose: The ready-queue form of topological sorting: a queue of nodes without
  unplaced predecessors, one counter of unplaced predecessors per node, and a
  loop that takes the queue's least node and releases its successors.  `run`
  is shown to emit exactly the greedy order of `Library.TopologicalOrder`, and
  to empty its queue when it is given one round per node.
-/
import WeaveCodex.Library.Dict
import WeaveCodex.Library.KeySort
import WeaveCodex.Library.TopologicalOrder

namespace WeaveCodex.Library.ReadyQueue

open TopologicalOrder Prod Function
open List hiding next?

variable {α : Type*} [DecidableEq α]

/-- The loop's variables: the queue, the predecessor counters, and the output. -/
structure QueueState (α : Type*) where
  ready : List α
  incoming : α → Int
  ordered : List α

/-- A stable sort by position. -/
def sortByPosition (position : α → Nat) (nodes : List α) : List α :=
  nodes.insertionSort fun left right => position left ≤ position right

/-- Count down every target; a target whose counter reaches zero joins the queue. -/
def release (incoming : α → Int) (ready : List α) : List α → (α → Int) × List α
  | [] => (incoming, ready)
  | target :: targets =>
    let lowered := update incoming target (incoming target - 1)
    release lowered (if lowered target = 0 then ready ++ [target] else ready) targets

/-- One round of the loop: sort the queue, take its first node, release the
node's successors in order of position. -/
def step (position : α → Nat) (outgoing : α → List α) (state : QueueState α) : QueueState α :=
  match sortByPosition position state.ready with
  | [] => state
  | current :: rest =>
    let released :=
      release state.incoming rest (sortByPosition position (outgoing current))
    { ready := released.2
      incoming := released.1
      ordered := state.ordered ++ [current] }

/-- The loop: rounds until the queue is empty. -/
def run (position : α → Nat) (outgoing : α → List α) : Nat → QueueState α → QueueState α
  | 0, state => state
  | rounds + 1, state =>
    if state.ready = [] then state
    else run position outgoing rounds (step position outgoing state)

section

omit [DecidableEq α]

theorem sortByPosition_perm (position : α → Nat) (nodes : List α) :
    (sortByPosition position nodes).Perm nodes :=
  KeySort.perm_sortByKey position nodes

theorem sortByPosition_pairwise (position : α → Nat) (nodes : List α) :
    (sortByPosition position nodes).Pairwise fun left right => position left ≤ position right :=
  KeySort.pairwise_sortByKey position nodes

end

section Release

variable {incoming : α → Int} {ready targets : List α} {node : α}

theorem release_incoming :
    (release incoming ready targets).1 node = incoming node - targets.count node := by
  induction targets generalizing incoming ready with
  | nil => simp [release]
  | cons target targets ih =>
    rw [release, ih, count_cons]
    by_cases same : node = target
    · subst same
      simp only [update_self, beq_self_eq_true, if_true]
      omega
    · simp [same, Ne.symm same]

/-- A node joins the queue when its counter comes down to zero. -/
theorem count_release : (release incoming ready targets).2.count node =
    ready.count node + if 0 < incoming node ∧ incoming node ≤ targets.count node then 1 else 0 := by
  induction targets generalizing incoming ready with
  | nil =>
    rw [release, if_neg]
    · rfl
    · simp
  | cons target targets ih =>
    rw [release, ih, count_cons]
    by_cases same : node = target
    · subst same
      simp only [update_self, beq_self_eq_true, if_true]
      split_ifs <;> simp <;> omega
    · simp only [update_of_ne same, Ne.symm same, beq_iff_eq, if_false, add_zero]
      split_ifs <;> simp [Ne.symm same]

end Release

section Tracks

variable {nodes : List α} {edges : List (α × α)}

/-- How many predecessors of `node` are still unplaced. -/
def openArrows (edges : List (α × α)) (placed : List α) (node : α) : Nat :=
  edges.countP fun edge => decide (edge.2 = node ∧ edge.1 ∉ placed)

variable {node : α}

theorem openArrows_eq_zero_iff {placed : List α} : openArrows edges placed node = 0 ↔
    ∀ edge ∈ edges, edge.2 = node → edge.1 ∈ placed := by
  simp only [openArrows, countP_eq_zero, decide_eq_true_eq, not_and, not_not]

theorem openArrows_cons (edge : α × α) (placed : List α) (node : α) :
    openArrows (edge :: edges) placed node =
      openArrows edges placed node +
        if edge.2 = node ∧ edge.1 ∉ placed then 1 else 0 := by
  simp only [openArrows, countP_cons, decide_eq_true_eq]

/-- Placing `current` closes the arrows it is the source of, and no others. -/
theorem openArrows_snoc {placed : List α} {current : α} (fresh : current ∉ placed) (node : α) :
    openArrows edges (placed ++ [current]) node + edges.count (current, node) =
      openArrows edges placed node := by
  induction edges with
  | nil => rfl
  | cons edge _ ih =>
    rw [openArrows_cons, openArrows_cons, count_cons, ← ih]
    by_cases here : edge = (current, node)
    · simp [here, fresh]
      omega
    · -- Any other arrow is open after the placement exactly when it was before.
      have apart : edge.2 = node → edge.1 ≠ current := fun target source =>
        here (Prod.ext source target)
      simp only [mem_append, mem_singleton, not_or, beq_iff_eq, here, if_false]
      grind

/-- What the loop maintains: the counters count the open arrows, the queue holds
each ready node once, and whatever was emitted had all predecessors placed. -/
structure QueueState.Tracks (nodes : List α) (edges : List (α × α))
    (state : QueueState α) : Prop where
  counts : ∀ node, state.incoming node = openArrows edges state.ordered node
  queue : ∀ node, state.ready.count node = if Ready nodes edges state.ordered node then 1 else 0
  placed : ∀ node ∈ state.ordered, openArrows edges state.ordered node = 0

theorem QueueState.Tracks.mem_ready {state : QueueState α} (tracks : state.Tracks nodes edges) :
    node ∈ state.ready ↔ Ready nodes edges state.ordered node := by
  rw [← count_pos_iff, tracks.queue]
  split_ifs <;> simpa

/-- Readiness in terms of the counters. -/
theorem ready_iff_openArrows {placed : List α} : Ready nodes edges placed node ↔
    node ∈ nodes ∧ node ∉ placed ∧ openArrows edges placed node = 0 := by
  rw [openArrows_eq_zero_iff, Ready]

end Tracks

section Simulation

variable {nodes : List α} {edges : List (α × α)} {position : α → Nat} {outgoing : α → List α}

/-- Positions are list positions, and `outgoing` lists each node's successors. -/
structure Represents (nodes : List α) (edges : List (α × α)) (position : α → Nat)
    (outgoing : α → List α) : Prop where
  targets : ∀ edge ∈ edges, edge.2 ∈ nodes
  position_eq : ∀ node ∈ nodes, position node = nodes.idxOf node
  count_outgoing : ∀ source target, (outgoing source).count target = edges.count (source, target)

variable (graph : Represents nodes edges position outgoing)
include graph

variable {current : α} {rest : List α} {state : QueueState α}

/-- The head of the sorted queue is the earliest listed ready node. -/
theorem head_eq_next? (tracks : state.Tracks nodes edges)
    (sorted : sortByPosition position state.ready = current :: rest) :
    next? nodes edges state.ordered = some current := by
  have queued : ∀ {node}, node ∈ current :: rest ↔ node ∈ state.ready := by
    intro node
    rw [← sorted]
    exact (sortByPosition_perm position state.ready).mem_iff
  have currentReady : Ready nodes edges state.ordered current :=
    tracks.mem_ready.mp (queued.mp mem_cons_self)
  have found : (next? nodes edges state.ordered).isSome := by
    rw [next?, find?_isSome]
    exact ⟨current, currentReady.1, by simpa using currentReady⟩
  obtain ⟨chosen, chosenEq⟩ := Option.isSome_iff_exists.mp found
  have chosenReady := ready_of_next? chosenEq
  -- The sort puts `current` first; the search finds `chosen` first.
  have below : position current ≤ position chosen := by
    have ordered := sortByPosition_pairwise position state.ready
    rw [sorted, pairwise_cons] at ordered
    rcases mem_cons.mp (queued.mpr (tracks.mem_ready.mpr chosenReady)) with same | later
    · rw [same]
    · exact ordered.1 chosen later
  rw [graph.position_eq current currentReady.1, graph.position_eq chosen chosenReady.1] at below
  have samePosition : nodes.idxOf chosen = nodes.idxOf current :=
    le_antisymm (idxOf_le_of_next? chosenEq currentReady) below
  rw [chosenEq, (idxOf_inj chosenReady.1).mp samePosition]

/-- One round keeps the invariant. -/
theorem step_tracks (tracks : state.Tracks nodes edges) :
    (step position outgoing state).Tracks nodes edges := by
  unfold step
  cases sorted : sortByPosition position state.ready with
  | nil => exact tracks
  | cons current rest =>
    have queue (node : α) := sorted ▸ (sortByPosition_perm position state.ready).count_eq node
    simp only [tracks.queue, count_cons, ready_iff_openArrows] at queue
    have taken : current ∈ nodes ∧ current ∉ state.ordered ∧
        openArrows edges state.ordered current = 0 := by
      by_contra waiting
      have := queue current
      simp [waiting] at this
    have closes (node : α) : openArrows edges (state.ordered ++ [current]) node +
        edges.count (current, node) = openArrows edges state.ordered node :=
      openArrows_snoc taken.2.1 node
    have targets (node : α) : (sortByPosition position (outgoing current)).count node =
        edges.count (current, node) :=
      ((sortByPosition_perm position _).count_eq node).trans (graph.count_outgoing current node)
    refine ⟨fun node => ?_, fun node => ?_, fun node mem => ?_⟩ <;> dsimp only at * <;>
      have closed := closes node
    · rw [release_incoming, targets, tracks.counts]
      omega
    · have queued := queue node
      have known : node ∉ nodes → edges.count (current, node) = 0 := fun unknown =>
        count_eq_zero.mpr fun arrow => unknown (graph.targets _ arrow)
      have placed := tracks.placed node
      -- The node waited already, or it joins now, or it is placed or unknown.
      simp only [count_release, targets, tracks.counts, ready_iff_openArrows, mem_append,
        mem_singleton]
      grind
    · rcases mem_append.mp mem with old | new
      · have := tracks.placed node old
        omega
      · rw [mem_singleton.mp new] at closed ⊢
        omega

/-- A round with a nonempty queue emits the earliest listed ready node. -/
theorem step_ordered (tracks : state.Tracks nodes edges) (nonempty : state.ready ≠ []) :
    ∃ current, next? nodes edges state.ordered = some current ∧
      (step position outgoing state).ordered = state.ordered ++ [current] := by
  cases sorted : sortByPosition position state.ready with
  | nil =>
    have := (sortByPosition_perm position state.ready).length_eq
    rw [sorted] at this
    exact absurd (eq_nil_of_length_eq_zero this.symm) nonempty
  | cons current =>
    refine ⟨current, head_eq_next? graph tracks sorted, ?_⟩
    simp only [step, sorted]

omit graph

/-- An empty queue means that no node is ready. -/
theorem next?_eq_none (tracks : state.Tracks nodes edges) (empty : state.ready = []) :
    next? nodes edges state.ordered = none := by
  rw [next?, find?_eq_none]
  intro node _ ready
  have mem := tracks.mem_ready.mpr (by simpa using ready)
  simp [empty] at mem

include graph

/-- The loop appends the greedy continuation of what it has emitted. -/
theorem run_ordered (rounds : Nat) (tracks : state.Tracks nodes edges) :
    (run position outgoing rounds state).ordered =
      state.ordered ++ greedyFrom nodes edges rounds state.ordered := by
  induction rounds generalizing state with
  | zero => simp [run, greedyFrom]
  | succ _ ih =>
    by_cases empty : state.ready = []
    · simp [run, empty, greedyFrom, next?_eq_none tracks empty]
    · obtain ⟨current, chosen, emitted⟩ := step_ordered graph tracks empty
      have sameSet : ∀ x, x ∈ state.ordered ++ [current] ↔ x ∈ current :: state.ordered := by
        simp [or_comm]
      rw [run, if_neg empty, ih (step_tracks graph tracks), emitted,
        greedyFrom_congr sameSet, greedyFrom, chosen]
      simp

/-- One round per node empties the queue, so the loop has ended by then. -/
theorem run_ready_nil {rounds : Nat} (tracks : state.Tracks nodes edges)
    (enough : (nodes.filter fun node => decide (node ∉ state.ordered)).length ≤ rounds) :
    (run position outgoing rounds state).ready = [] := by
  induction rounds generalizing state with
  | zero =>
    by_contra nonempty
    obtain ⟨current, chosen, -⟩ := step_ordered graph tracks nonempty
    have ready := ready_of_next? chosen
    have := length_pos_of_mem (mem_filter.mpr ⟨ready.1, by simpa using ready.2.1⟩ :
        current ∈ nodes.filter fun node => decide (node ∉ state.ordered))
    omega
  | succ _ ih =>
    rw [run]
    split
    · assumption
    · rename_i nonempty
      refine ih (step_tracks graph tracks) ?_
      obtain ⟨_, chosen, emitted⟩ := step_ordered graph tracks nonempty
      have := unplaced_length_lt (ready_of_next? chosen)
      simp only [emitted, mem_append, mem_singleton] at this ⊢
      omega

omit graph

end Simulation

/-! ### Building the tables from an arrow list -/

section Tables

variable {nodes : List α} {edges : List (α × α)}

/-- Predecessor counters: one increment per arrow. -/
def incomingCounts (edges : List (α × α)) : α → Int :=
  Dict.tally (edges.map snd)

/-- Successor lists: one append per arrow, in arrow order. -/
def outgoingTargets (edges : List (α × α)) : α → List α :=
  edges.foldl (fun table edge => update table edge.1 (table edge.1 ++ [edge.2])) fun _ => []

theorem incomingCounts_eq (edges : List (α × α)) (node : α) :
    incomingCounts edges node = openArrows edges [] node := by
  rw [incomingCounts, Dict.tally_eq_count, openArrows, List.count, countP_map]
  norm_cast
  refine countP_congr fun edge _ => ?_
  simp

theorem count_outgoingTargets (edges : List (α × α)) (source target : α) :
    (outgoingTargets edges source).count target = edges.count (source, target) := by
  have general : ∀ (edges : List (α × α)) (table : α → List α),
      ((edges.foldl (fun (table : α → List α) edge =>
        update table edge.1 (table edge.1 ++ [edge.2])) table) source).count target =
          (table source).count target + edges.count (source, target) := by
    intro edges
    induction edges with
    | nil => simp
    | cons edge _ ih =>
      intro table
      rw [foldl_cons, ih, count_cons]
      by_cases same : source = edge.1
      · subst same
        simp [count_cons, Prod.ext_iff]
        omega
      · simp [same, Ne.symm same, Prod.ext_iff]
  simpa [outgoingTargets] using general edges fun _ => []

/-- The loop's starting state: the nodes whose counter is zero are queued. -/
def initial (nodes : List α) (edges : List (α × α)) : QueueState α :=
  { ready := nodes.filter fun node => decide (incomingCounts edges node = 0)
    incoming := incomingCounts edges
    ordered := [] }

theorem initial_tracks (distinct : nodes.Nodup) : (initial nodes edges).Tracks nodes edges where
  counts node := incomingCounts_eq edges node
  queue node := by
    rw [initial, (distinct.filter _).count]
    simp [ready_iff_openArrows, incomingCounts_eq]
  placed node mem := by
    simp [initial] at mem

end Tables

end WeaveCodex.Library.ReadyQueue
