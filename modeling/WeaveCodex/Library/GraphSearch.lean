/-
Purpose: Search of a graph from a stack of nodes with the nodes seen so far, and arrows
  that close no cycle.
-/
import WeaveCodex.Library.TopologicalOrder

namespace WeaveCodex.Library.GraphSearch

open List Relation TopologicalOrder

variable {α : Type*}

section Search

variable [DecidableEq α] (edges : List (α × α)) (goal : α)

def targets (node : α) : List α :=
  (edges.filter fun edge => edge.1 = node).map Prod.snd

/-- Whether the goal is found from the pending nodes, the first of which is next. -/
def search (pending seen : List α) : Bool :=
  match pending with
  | [] => false
  | current :: rest =>
    if current = goal then true
    else if current ∈ seen then search rest seen
    else search ((targets edges current).reverse ++ rest) (current :: seen)
termination_by pending.length + (edges.filter (·.1 ∉ seen)).length
decreasing_by
  · simp
  · -- The arrows that leave the node are no longer counted, but their targets are.
    have moved : (edges.filter (·.1 ∉ seen)).length =
        (edges.filter (·.1 ∉ current :: seen)).length + (targets edges current).length := by
      rw [targets, length_map, length_eq_length_filter_add (·.1 ≠ current), filter_filter,
        filter_filter]
      congr 2 <;> exact filter_congr fun edge _ => by grind
    simp only [length_append, length_reverse, length_cons]
    omega

/-- The nodes that were seen are not the goal, and their targets were seen or are pending. -/
def Explored (pending seen : List α) : Prop :=
  ∀ node ∈ seen, node ≠ goal ∧ ∀ target, Arrow edges node target → target ∈ seen ∨ target ∈ pending

variable {edges goal} {pending seen : List α} {node target : α}

theorem mem_targets : target ∈ targets edges node ↔ Arrow edges node target := by
  simp [targets, Arrow]

omit [DecidableEq α] in
/-- A way from a seen node to the goal leaves the seen nodes by a pending one. -/
theorem Explored.leaves (explored : Explored edges goal pending seen)
    (reaches : ReflTransGen (Arrow edges) node goal) (old : node ∈ seen) :
    ∃ next ∈ pending, ReflTransGen (Arrow edges) next goal := by
  induction reaches using ReflTransGen.head_induction_on with
  | refl => exact absurd rfl (explored _ old).1
  | head step rest ih =>
    rcases (explored _ old).2 _ step with again | waits
    · exact ih again
    · exact ⟨_, waits, rest⟩

theorem search_iff (explored : Explored edges goal pending seen) :
    search edges goal pending seen = true ↔
      ∃ node ∈ pending, ReflTransGen (Arrow edges) node goal := by
  fun_induction search edges goal pending seen with
  | case1 => simp
  | case2 => simp [ReflTransGen.refl]
  | case3 seen _ rest _ old ih =>
    have shorter : Explored edges goal rest seen := by
      grind [Explored]
    rw [ih shorter, exists_mem_cons_iff]
    exact (or_iff_right_of_imp fun reaches => shorter.leaves reaches old).symm
  | case4 seen current rest other _ ih =>
    have longer : Explored edges goal ((targets edges current).reverse ++ rest)
        (current :: seen) := by
      grind [Explored, mem_targets]
    rw [ih longer, exists_mem_cons_iff, ReflTransGen.cases_head_iff, or_iff_right other]
    simp only [mem_append, mem_reverse, mem_targets, or_and_right, exists_or]

end Search

/-- An arrow closes no cycle if its source is not reached from its target. -/
theorem acyclic_concat {edges : List (α × α)} {source target : α} (acyclic : Acyclic edges)
    (unreached : ¬ ReflTransGen (Arrow edges) target source) :
    Acyclic (edges ++ [(source, target)]) := by
  intro node cycle
  -- A way uses old arrows only, or passes the new one.
  have either {first last : α} (way : TransGen (Arrow (edges ++ [(source, target)])) first last) :
      TransGen (Arrow edges) first last ∨
        ReflTransGen (Arrow edges) first source ∧ ReflTransGen (Arrow edges) target last := by
    induction way with
    | single step =>
      rcases mem_append.mp step with old | new
      · exact .inl (.single old)
      · cases mem_singleton.mp new
        exact .inr ⟨.refl, .refl⟩
    | tail _ step ih =>
      rcases mem_append.mp step with old | new
      · exact ih.imp (·.tail old) fun passed => ⟨passed.1, passed.2.tail old⟩
      · cases mem_singleton.mp new
        exact .inr ⟨ih.elim TransGen.to_reflTransGen And.left, .refl⟩
  rcases either cycle with old | ⟨before, after⟩
  · exact acyclic node old
  · exact unreached (after.trans before)

end WeaveCodex.Library.GraphSearch
