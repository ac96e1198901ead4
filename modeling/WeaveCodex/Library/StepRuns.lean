/-
Purpose: Machines given by a partial step function: the run of a list of actions,
  conditions on every step of a run, and the rule by which an invariant of the allowed
  steps becomes an invariant of the allowed runs.
-/

namespace WeaveCodex.Library.StepRuns

universe u v

variable {σ : Type u} {α : Type v}

/-- The state after all actions, if each of them is enabled in its turn. -/
def execute (step : σ → α → Option σ) (state : σ) : List α → Option σ
  | [] => some state
  | action :: actions =>
    match step state action with
    | none => none
    | some state' => execute step state' actions

/-- Every step of the run is allowed in the state in which it is taken. -/
def Along (step : σ → α → Option σ) (Allowed : σ → α → Prop) (state : σ) : List α → Prop
  | [] => True
  | action :: actions =>
    Allowed state action ∧
      match step state action with
      | none => True
      | some state' => Along step Allowed state' actions

instance decidableAlong (step : σ → α → Option σ) (Allowed : σ → α → Prop)
    [∀ state action, Decidable (Allowed state action)] :
    ∀ (state : σ) (actions : List α), Decidable (Along step Allowed state actions)
  | _, [] => isTrue trivial
  | state, action :: actions =>
    have later : Decidable (match step state action with
        | none => True
        | some state' => Along step Allowed state' actions) :=
      match step state action with
      | none => isTrue trivial
      | some state' => decidableAlong step Allowed state' actions
    @instDecidableAnd _ _ _ later

variable {step : σ → α → Option σ} {actions : List α} {state : σ} {Allowed Second : σ → α → Prop}

/-- What holds at the start and survives each allowed step holds after every allowed
run. -/
theorem execute_invariant (Holds : σ → Prop)
    (preserved : ∀ state action state', Holds state → Allowed state action →
      step state action = some state' → Holds state') {final : σ} (initially : Holds state)
    (allowed : Along step Allowed state actions) (ran : execute step state actions = some final) :
    Holds final := by
  induction actions generalizing state with
  | nil =>
    rw [← Option.some.inj ran]
    exact initially
  | cons action _ ih =>
    unfold execute at ran
    unfold Along at allowed
    cases stepped : step state action with
    | none => simp [stepped] at ran
    | some state' =>
      rw [stepped] at ran allowed
      have holds := preserved state action state' initially allowed.1 stepped
      exact ih holds allowed.2 ran

theorem along_of_forall (always : ∀ state action, Allowed state action) (state : σ)
    (actions : List α) : Along step Allowed state actions := by
  induction actions generalizing state with
  | nil => trivial
  | cons action _ ih =>
    unfold Along
    refine ⟨always state action, ?_⟩
    cases step state action with
    | none => trivial
    | some state' => exact ih state'

/-- A condition that follows from the allowed ones wherever an invariant of the allowed steps
holds is met along every allowed run. -/
theorem along_imp (Holds : σ → Prop)
    (preserved : ∀ state action state', Holds state → Allowed state action →
      step state action = some state' → Holds state')
    (implied : ∀ state action, Holds state → Allowed state action → Second state action)
    (initially : Holds state) (allowed : Along step Allowed state actions) :
    Along step Second state actions := by
  induction actions generalizing state with
  | nil => trivial
  | cons action _ ih =>
    unfold Along at allowed ⊢
    refine ⟨implied state action initially allowed.1, ?_⟩
    cases stepped : step state action with
    | none => trivial
    | some state' =>
      have holds := preserved state action state' initially allowed.1 stepped
      rw [stepped] at allowed
      exact ih holds allowed.2

/-- Two conditions that agree wherever an invariant holds agree along every run. -/
theorem along_congr {First : σ → α → Prop} (Holds : σ → Prop)
    (preserved : ∀ state action state', Holds state → step state action = some state' → Holds state')
    (agree : ∀ state action, Holds state → (First state action ↔ Second state action))
    (initially : Holds state) :
    Along step First state actions ↔ Along step Second state actions := by
  induction actions generalizing state with
  | nil => exact Iff.rfl
  | cons action _ ih =>
    unfold Along
    refine and_congr (agree state action initially) ?_
    cases stepped : step state action with
    | none => exact Iff.rfl
    | some state' => exact ih (preserved state action state' initially stepped)

end WeaveCodex.Library.StepRuns
