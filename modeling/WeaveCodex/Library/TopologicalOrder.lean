/-
Purpose: Topological orders of a finite graph given as a node list and an arrow
  list, over an arbitrary node type.  `greedyFrom` always places the earliest
  listed node whose predecessors are placed.  The module shows that it reaches
  every node of an acyclic graph and that its result is the lexicographically
  least topological order with respect to the node list.
-/
import Mathlib.Order.WellFoundedSet

namespace WeaveCodex.Library.TopologicalOrder

open List

variable {α : Type*}

/-- One arrow of the graph, as a relation between its endpoints. -/
def Arrow (edges : List (α × α)) (source target : α) : Prop :=
  (source, target) ∈ edges

/-- No directed cycle: no node reaches itself along one or more arrows. -/
def Acyclic (edges : List (α × α)) : Prop :=
  ∀ node, ¬ Relation.TransGen (Arrow edges) node node

variable [DecidableEq α] (nodes : List α) (edges : List (α × α))

/-- The source of every arrow comes before its target. -/
def Respects (order : List α) : Prop :=
  ∀ edge ∈ edges, order.idxOf edge.1 < order.idxOf edge.2

/-- A node is ready once it is not placed yet and all its predecessors are. -/
def Ready (placed : List α) (node : α) : Prop :=
  node ∈ nodes ∧ node ∉ placed ∧ ∀ edge ∈ edges, edge.2 = node → edge.1 ∈ placed

instance (nodes : List α) (edges : List (α × α)) (placed : List α) :
    DecidablePred (Ready nodes edges placed) := fun node =>
  inferInstanceAs (Decidable (node ∈ nodes ∧ node ∉ placed ∧
    ∀ edge ∈ edges, edge.2 = node → edge.1 ∈ placed))

/-- The earliest listed ready node. -/
def next? (placed : List α) : Option α :=
  nodes.find? fun node => decide (Ready nodes edges placed node)

/-- Place the earliest ready node until none is ready; `placed` is only used as
a set, so the newest node may stand in front. -/
def greedyFrom (nodes : List α) (edges : List (α × α)) : Nat → List α → List α
  | 0, _ => []
  | fuel + 1, placed =>
    match next? nodes edges placed with
    | none => []
    | some node => node :: greedyFrom nodes edges fuel (node :: placed)

/-- The greedy order of the whole graph. -/
def greedy : List α :=
  greedyFrom nodes edges nodes.length []

section Ready

variable {nodes : List α} {edges : List (α × α)} {placed : List α} {node : α} {other : List α}

omit [DecidableEq α] in
/-- Readiness only reads `placed` as a set. -/
theorem ready_congr (same : ∀ x, x ∈ placed ↔ x ∈ other) :
    Ready nodes edges placed node ↔ Ready nodes edges other node := by
  simp only [Ready, same]

theorem next?_congr (same : ∀ x, x ∈ placed ↔ x ∈ other) :
    next? nodes edges placed = next? nodes edges other := by
  simp only [next?, ready_congr same]

theorem greedyFrom_congr (same : ∀ x, x ∈ placed ↔ x ∈ other) (fuel : Nat) :
    greedyFrom nodes edges fuel placed = greedyFrom nodes edges fuel other := by
  induction fuel generalizing placed other with
  | zero => rfl
  | succ _ ih =>
    simp only [greedyFrom, next?_congr same]
    cases next? nodes edges other with
    | none => rfl
    | some chosen =>
      have grown : ∀ x, x ∈ chosen :: placed ↔ x ∈ chosen :: other := by
        intro x
        simp [same]
      simp only [ih grown]

theorem ready_of_next? (chosen : next? nodes edges placed = some node) :
    Ready nodes edges placed node := by
  simpa using find?_some chosen

/-- No node standing before the chosen one is ready. -/
theorem idxOf_le_of_next? (chosen : next? nodes edges placed = some node)
    {other : α} (ready : Ready nodes edges placed other) :
    nodes.idxOf node ≤ nodes.idxOf other := by
  obtain ⟨-, before, _, split, unready⟩ := find?_eq_some_iff_append.mp chosen
  have notBefore : other ∉ before := by
    intro mem
    have := unready other mem
    simp [ready] at this
  have nodeNotBefore : node ∉ before := by
    intro mem
    have := unready node mem
    simp [ready_of_next? chosen] at this
  rw [split, idxOf_append_of_notMem nodeNotBefore, idxOf_append_of_notMem notBefore]
  simp

end Ready

section Greedy

variable {nodes : List α} {edges : List (α × α)} {node : α} {placed : List α}

section

variable (fuel : Nat) (placed : List α)

/-- Everything `greedyFrom` emits was ready when it was emitted. -/
theorem greedyFrom_split {before after : List α}
    (split : greedyFrom nodes edges fuel placed = before ++ node :: after) :
    Ready nodes edges (before ++ placed) node := by
  induction fuel generalizing placed before with
  | zero => simp [greedyFrom] at split
  | succ _ ih =>
    simp only [greedyFrom] at split
    cases chosen : next? nodes edges placed with
    | none => simp [chosen] at split
    | some head =>
      simp only [chosen] at split
      cases before with
      | nil =>
        simp only [nil_append, cons.injEq] at split
        rw [← split.1]
        exact ready_of_next? chosen
      | cons =>
        simp only [cons_append, cons.injEq] at split
        have ready := ih (head :: placed) split.2
        refine (ready_congr ?_).mp ready
        intro x
        simp only [mem_append, mem_cons, split.1]
        tauto

theorem greedyFrom_subset :
    ∀ node ∈ greedyFrom nodes edges fuel placed, node ∈ nodes ∧ node ∉ placed := by
  intro node mem
  obtain ⟨_, _, split⟩ := append_of_mem mem
  have ready := greedyFrom_split fuel placed split
  exact ⟨ready.1, fun inPlaced => ready.2.1 (by simp [inPlaced])⟩

theorem greedyFrom_nodup : (greedyFrom nodes edges fuel placed).Nodup := by
  induction fuel generalizing placed with
  | zero => simp [greedyFrom]
  | succ fuel ih =>
    simp only [greedyFrom]
    cases next? nodes edges placed with
    | none => simp
    | some head =>
      refine nodup_cons.mpr ⟨?_, ih _⟩
      intro mem
      exact (greedyFrom_subset fuel (head :: placed) head mem).2 (by simp)

end

omit [DecidableEq α] in
/-- In an acyclic graph every nonempty set of nodes has a member none of whose
predecessors lies in the set. -/
theorem exists_source_of_acyclic (acyclic : Acyclic edges) {members : List α}
    (nonempty : members ≠ []) :
    ∃ node ∈ members, ∀ edge ∈ edges, edge.2 = node → edge.1 ∉ members := by
  let reaches := Relation.TransGen (Arrow edges)
  have : IsTrans α reaches := ⟨fun _ _ _ => Relation.TransGen.trans⟩
  have : Std.Irrefl reaches := ⟨acyclic⟩
  have : IsStrictOrder α reaches := {}
  have founded : {x | x ∈ members}.WellFoundedOn reaches :=
    (finite_toSet members).wellFoundedOn
  obtain ⟨first, firstMem⟩ := exists_mem_of_ne_nil members nonempty
  obtain ⟨⟨least, leastMem⟩, -, minimal⟩ :=
    founded.has_min Set.univ ⟨⟨first, firstMem⟩, trivial⟩
  refine ⟨least, leastMem, ?_⟩
  intro edge edgeMem target sourceMem
  refine minimal ⟨edge.1, sourceMem⟩ trivial ?_
  refine Relation.TransGen.single ?_
  show (edge.1, least) ∈ edges
  rwa [← target]

/-- An acyclic graph always has a ready node while some node is unplaced. -/
theorem next?_isSome_of_acyclic (acyclic : Acyclic edges) (closed : ∀ edge ∈ edges, edge.1 ∈ nodes)
    (mem : node ∈ nodes) (unplaced : node ∉ placed) :
    (next? nodes edges placed).isSome := by
  let rest := nodes.filter fun x => decide (x ∉ placed)
  have nonempty : rest ≠ [] :=
    ne_nil_of_mem (mem_filter.mpr ⟨mem, by simpa using unplaced⟩)
  obtain ⟨least, leastMem, free⟩ := exists_source_of_acyclic acyclic nonempty
  obtain ⟨leastNode, leastUnplaced⟩ := mem_filter.mp leastMem
  rw [next?, find?_isSome]
  refine ⟨least, leastNode, ?_⟩
  rw [decide_eq_true_eq]
  refine ⟨leastNode, by simpa using leastUnplaced, ?_⟩
  intro edge edgeMem target
  by_contra notPlaced
  exact free edge edgeMem target (mem_filter.mpr ⟨closed edge edgeMem, by simpa using notPlaced⟩)

/-- Placing a ready node strictly shrinks the set of unplaced nodes. -/
theorem unplaced_length_lt {head : α} (ready : Ready nodes edges placed head) :
    (nodes.filter fun x => decide (x ∉ placed ++ [head])).length <
      (nodes.filter fun x => decide (x ∉ placed)).length := by
  have nested : (nodes.filter fun x => decide (x ∉ placed ++ [head])) =
        (nodes.filter fun x => decide (x ∉ placed)).filter fun x => decide (x ≠ head) := by
    simp only [filter_filter]
    refine filter_congr fun x _ => ?_
    simp [not_or, and_comm]
  rw [nested, length_filter_lt_length_iff_exists]
  exact ⟨head, mem_filter.mpr ⟨ready.1, by simpa using ready.2.1⟩, by simp⟩

/-- With enough fuel the greedy order of an acyclic graph places every node. -/
theorem mem_greedyFrom_of_acyclic (acyclic : Acyclic edges)
    (closed : ∀ edge ∈ edges, edge.1 ∈ nodes) {fuel : Nat}
    (enough : (nodes.filter fun x => decide (x ∉ placed)).length ≤ fuel) (mem : node ∈ nodes)
    (unplaced : node ∉ placed) :
    node ∈ greedyFrom nodes edges fuel placed := by
  induction fuel generalizing placed with
  | zero =>
    have nonempty : node ∈ nodes.filter fun x => decide (x ∉ placed) :=
      mem_filter.mpr ⟨mem, by simpa using unplaced⟩
    have := length_pos_of_mem nonempty
    omega
  | succ _ ih =>
    obtain ⟨head, chosen⟩ := Option.isSome_iff_exists.mp
      (next?_isSome_of_acyclic acyclic closed mem unplaced)
    simp only [greedyFrom, chosen, mem_cons]
    by_cases same : node = head
    · exact .inl same
    · right
      refine ih ?_ (by simp [same, unplaced])
      have := unplaced_length_lt (ready_of_next? chosen)
      have sameTest : ∀ x, x ∉ head :: placed ↔ x ∉ placed ++ [head] := by
        simp [not_or, and_comm]
      simp only [sameTest]
      omega

end Greedy

/-- `first` equals `second` or precedes it lexicographically. -/
def LexAtMost (first second : List Nat) : Prop :=
  first = second ∨ List.Lex (· < ·) first second

theorem LexAtMost.nil (second : List Nat) : LexAtMost [] second := by
  cases second with
  | nil => exact .inl rfl
  | cons => exact .inr .nil

theorem LexAtMost.cons {first second : List Nat} (head : Nat)
    (tails : LexAtMost first second) : LexAtMost (head :: first) (head :: second) := by
  rcases tails with same | less
  · exact .inl (same ▸ rfl)
  · exact .inr (.cons less)

/-! ### The greedy order of the whole graph -/

section Whole

variable {nodes : List α} {edges : List (α × α)}

theorem greedy_nodup : (greedy nodes edges).Nodup :=
  greedyFrom_nodup _ _

theorem greedy_subset : greedy nodes edges ⊆ nodes := fun node mem =>
  (greedyFrom_subset _ _ node mem).1

theorem idxOf_lt_idxOf_append {first second : α} {front : List α} (rest : List α)
    (mem : first ∈ front) (later : second ∉ front) :
    (front ++ rest).idxOf first < (front ++ rest).idxOf second := by
  rw [idxOf_append_of_mem mem, idxOf_append_of_notMem later]
  exact Nat.lt_add_right _ (idxOf_lt_length_iff.mpr mem)

/-- The predecessors of a greedily placed node stand before it. -/
theorem greedy_respects (onto : ∀ edge ∈ edges, edge.2 ∈ greedy nodes edges) :
    Respects edges (greedy nodes edges) := by
  intro edge mem
  obtain ⟨before, after, split⟩ := append_of_mem (onto edge mem)
  have ready := greedyFrom_split nodes.length [] split
  have sourceBefore : edge.1 ∈ before := by
    simpa using ready.2.2 edge mem rfl
  have targetNotBefore : edge.2 ∉ before := by
    simpa using ready.2.1
  have splitGreedy : greedy nodes edges = before ++ edge.2 :: after := split
  rw [splitGreedy]
  exact idxOf_lt_idxOf_append _ sourceBefore targetNotBefore

/-- The greedy order of an acyclic graph is a permutation of its nodes. -/
theorem greedy_perm (distinct : nodes.Nodup) (acyclic : Acyclic edges)
    (closed : ∀ edge ∈ edges, edge.1 ∈ nodes) : (greedy nodes edges).Perm nodes := by
  refine (perm_ext_iff_of_nodup greedy_nodup distinct).mpr fun node => ?_
  refine ⟨fun mem => greedy_subset mem, fun mem => ?_⟩
  exact mem_greedyFrom_of_acyclic acyclic closed (length_filter_le _ _) mem (by simp)

/-- A topological order rules out cycles. -/
theorem acyclic_of_respects {order : List α} (respects : Respects edges order) : Acyclic edges := by
  intro node cycle
  have climbs : ∀ {first last : α}, Relation.TransGen (Arrow edges) first last →
      order.idxOf first < order.idxOf last := by
    intro first last path
    induction path with
    | single arrow => exact respects _ arrow
    | tail _ arrow ih =>
      exact lt_trans ih (respects _ arrow)
  exact lt_irrefl _ (climbs cycle)

/-- In a topological order all predecessors of a node stand before it, so the
node is ready once the part before it is placed. -/
theorem ready_of_respects {before after : List α} {node : α}
    (distinct : (before ++ node :: after).Nodup)
    (perm : (before ++ node :: after).Perm nodes)
    (respects : Respects edges (before ++ node :: after)) :
    Ready nodes edges before node := by
  have notBefore : node ∉ before := by
    intro mem
    exact (nodup_append.mp distinct).2.2 node mem node (by simp) rfl
  refine ⟨perm.mem_iff.mp (by simp), notBefore, ?_⟩
  intro edge mem target
  by_contra sourceLater
  have earlier := respects edge mem
  rw [target, idxOf_append_of_notMem notBefore,
    idxOf_append_of_notMem sourceLater, idxOf_cons_self] at earlier
  omega

/-- Among the topological orders that start with `placed`, the greedy
continuation has the least sequence of positions. -/
theorem greedyFrom_least (distinct : nodes.Nodup) {fuel : Nat}
    {placed rest : List α} (perm : (placed ++ rest).Perm nodes)
    (respects : Respects edges (placed ++ rest)) :
    LexAtMost ((greedyFrom nodes edges fuel placed).map nodes.idxOf) (rest.map nodes.idxOf) := by
  induction fuel generalizing placed rest with
  | zero => exact LexAtMost.nil _
  | succ fuel ih =>
    simp only [greedyFrom]
    cases chosen : next? nodes edges placed with
    | none => exact LexAtMost.nil _
    | some head =>
      cases rest with
      | nil =>
        -- Nothing is left to place, so nothing can be ready.
        have ready := ready_of_next? chosen
        exact absurd (perm.mem_iff.mpr ready.1) (by simpa using ready.2.1)
      | cons first tail =>
        have ready : Ready nodes edges placed first :=
          ready_of_respects (perm.nodup_iff.mpr distinct) perm respects
        have atMost := idxOf_le_of_next? chosen ready
        rcases lt_or_eq_of_le atMost with less | same
        · exact .inr (.rel less)
        · -- The two orders agree here; compare what follows.
          have headEq : head = first :=
            (idxOf_inj (ready_of_next? chosen).1).mp same
          subst headEq
          have appended : placed ++ head :: tail = (placed ++ [head]) ++ tail := by
            simp
          have tails := ih (appended ▸ perm) (appended ▸ respects)
          have sameSet : greedyFrom nodes edges fuel (placed ++ [head]) =
              greedyFrom nodes edges fuel (head :: placed) :=
            greedyFrom_congr (by simp [or_comm]) fuel
          rw [sameSet] at tails
          exact tails.cons _

end Whole

/-! ### Reachability along a topological order -/

section Reach

variable {edges : List (α × α)} {order nodes : List α} {node : α}

/-- If every node but `first` has a predecessor, `first` reaches every node. -/
theorem reaches_of_fed (respects : Respects edges order) {first : α}
    (closed : ∀ edge ∈ edges, edge.1 ∈ nodes)
    (fed : ∀ node ∈ nodes, node ≠ first → ∃ edge ∈ edges, edge.2 = node) (mem : node ∈ nodes) :
    Relation.ReflTransGen (Arrow edges) first node := by
  induction rank : order.idxOf node using Nat.strong_induction_on generalizing node with
  | _ rank ih =>
    by_cases same : node = first
    · rw [same]
    · obtain ⟨⟨_, _⟩, edgeMem, rfl⟩ := fed node mem same
      have earlier := respects _ edgeMem
      have reached := ih _ (rank ▸ earlier) (closed _ edgeMem) rfl
      exact reached.tail edgeMem

/-- If every node but `last` has a successor, every node reaches `last`. -/
theorem reaches_of_feeds (respects : Respects edges order) {last : α}
    (closed : ∀ edge ∈ edges, edge.2 ∈ nodes)
    (feeds : ∀ node ∈ nodes, node ≠ last → ∃ edge ∈ edges, edge.1 = node) (mem : node ∈ nodes) :
    Relation.ReflTransGen (Arrow edges) node last := by
  induction rank : order.length - order.idxOf node using Nat.strong_induction_on generalizing node with
  | _ rank ih =>
    by_cases same : node = last
    · rw [same]
    · obtain ⟨⟨_, target⟩, edgeMem, rfl⟩ := feeds node mem same
      have later := respects _ edgeMem
      have bounded : order.idxOf target ≤ order.length := idxOf_le_length
      have reached := ih (order.length - order.idxOf target) (by
        simp only at later rank
        omega) (closed _ edgeMem) rfl
      exact reached.head edgeMem

end Reach

/-! ### Chains -/

section Chain

/-- The consecutive pairs of a list. -/
def consecutive (nodes : List α) : List (α × α) :=
  nodes.zip nodes.tail

variable {nodes : List α}

section

omit [DecidableEq α]

@[simp] theorem consecutive_nil : consecutive ([] : List α) = [] := rfl

@[simp] theorem consecutive_singleton (node : α) : consecutive [node] = [] := rfl

@[simp] theorem consecutive_cons_cons (first second : α) (rest : List α) :
    consecutive (first :: second :: rest) = (first, second) :: consecutive (second :: rest) :=
  rfl

theorem mem_of_mem_consecutive {edge : α × α} (mem : edge ∈ consecutive nodes) :
    edge.1 ∈ nodes ∧ edge.2 ∈ nodes :=
  ⟨(of_mem_zip mem).1, mem_of_mem_tail (of_mem_zip mem).2⟩

/-- Two chains that meet in a node are one chain. -/
theorem consecutive_append_cons (front : List α) (joint : α) (rest : List α) :
    consecutive (front ++ joint :: rest) =
      consecutive (front ++ [joint]) ++ consecutive (joint :: rest) := by
  induction front with
  | nil => rfl
  | cons _ front ih =>
    cases front with
    | nil => rfl
    | cons => simpa using ih

/-- Nodes outside the kept set contribute no kept pair at the front of a chain. -/
theorem filter_consecutive_append (keep : α × α → Bool) {front : List α}
    (dropped : ∀ node ∈ front, ∀ target, keep (node, target) = false) (rest : List α) :
    (consecutive (front ++ rest)).filter keep = (consecutive rest).filter keep := by
  induction front with
  | nil => rfl
  | cons _ front ih =>
    rw [forall_mem_cons] at dropped
    rw [← ih dropped.2, cons_append]
    cases front ++ rest with
    | nil => rfl
    | cons second => simp [dropped.1 second]

/-- A last node outside the kept set contributes no kept pair. -/
theorem filter_consecutive_concat (keep : α × α → Bool) {inner : List α} {last : α}
    (kept : ∀ pair ∈ consecutive inner, keep pair = true)
    (dropped : ∀ source, keep (source, last) = false) :
    (consecutive (inner ++ [last])).filter keep = consecutive inner := by
  induction inner with
  | nil => rfl
  | cons first inner ih =>
    cases inner with
    | nil => simp [dropped first]
    | cons =>
      rw [consecutive_cons_cons, forall_mem_cons] at kept
      simpa [kept.1] using ih kept.2

/-- Every node after the first one has a predecessor in the chain. -/
theorem fed_consecutive (first : α) (rest : List α) :
    ∀ node ∈ rest, ∃ edge ∈ consecutive (first :: rest), edge.2 = node := by
  intro node mem
  have targets : (consecutive (first :: rest)).map Prod.snd = rest := map_snd_zip (by simp)
  rw [← targets] at mem
  exact mem_map.mp mem

/-- Every node before the last one has a successor in the chain. -/
theorem feeds_consecutive (front : List α) (last : α) :
    ∀ node ∈ front, ∃ edge ∈ consecutive (front ++ [last]), edge.1 = node := by
  induction front with
  | nil => simp
  | cons first rest ih =>
    intro node mem
    cases rest with
    | nil =>
      rw [mem_singleton.mp mem]
      exact ⟨(first, last), by simp, rfl⟩
    | cons second =>
      rcases mem_cons.mp mem with rfl | later
      · exact ⟨(node, second), by simp, rfl⟩
      · obtain ⟨edge, edgeMem, source⟩ := ih node later
        exact ⟨edge, by simpa using .inr edgeMem, source⟩

end

theorem respects_consecutive (distinct : nodes.Nodup) : Respects (consecutive nodes) nodes := by
  induction nodes with
  | nil => simp [Respects]
  | cons first rest ih =>
    rw [nodup_cons] at distinct
    cases rest with
    | nil => simp [Respects]
    | cons second =>
      intro edge mem
      rw [consecutive_cons_cons, mem_cons] at mem
      rcases mem with rfl | later
      · have apart : first ≠ second := fun same => distinct.1 (by simp [same])
        simp [idxOf_cons_ne _ apart]
      · have earlier := ih distinct.2 edge later
        obtain ⟨sourceMem, targetMem⟩ := mem_of_mem_consecutive later
        have sourceOther : first ≠ edge.1 := fun same => distinct.1 (same ▸ sourceMem)
        have targetOther : first ≠ edge.2 := fun same => distinct.1 (same ▸ targetMem)
        rw [idxOf_cons_ne _ sourceOther, idxOf_cons_ne _ targetOther]
        omega

end Chain

end WeaveCodex.Library.TopologicalOrder
