/-
Purpose: A loop over a list whose body may go on, leave the loop, or raise, with
  the rules by which facts about one pass of the body become facts about the loop.
-/

namespace WeaveCodex.Library.EarlyExit

universe u v

variable {σ : Type u} {β : Type v}

/-- How one pass of the body ends. -/
inductive Flow (σ : Type u) where
  | next (state : σ)
  | stop (state : σ)
  | raised (error : String) (state : σ)

def Flow.state : Flow σ → σ
  | .next state | .stop state | .raised _ state => state

/-- How the whole loop ends.  An exception keeps the state it was raised in. -/
inductive Ending (σ : Type u) where
  | returned (state : σ)
  | raised (error : String) (state : σ)

def Ending.state : Ending σ → σ
  | .returned state | .raised _ state => state

/-- `for item in items: body`, where the body may `break` or raise. -/
def loop (body : σ → β → Flow σ) : List β → σ → Ending σ
  | [], state => .returned state
  | item :: items, state =>
    match body state item with
    | .next state => loop body items state
    | .stop state => .returned state
    | .raised error state => .raised error state

/-- The body went on after each of `items` in turn. -/
inductive Passes (body : σ → β → Flow σ) (start : σ) : List β → σ → Prop where
  | nil : Passes body start [] start
  | snoc {items : List β} {state : σ} {item : β} {state' : σ} :
      Passes body start items state → body state item = .next state' →
        Passes body start (items ++ [item]) state'

variable {items : List β} {start final : σ} {body : σ → β → Flow σ}

theorem Passes.cons {middle : σ} {item : β} (first : body start item = .next middle)
    (rest : Passes body middle items final) : Passes body start (item :: items) final := by
  induction rest with
  | nil => exact .snoc .nil first
  | snoc _ last ih =>
    rw [← List.cons_append]
    exact .snoc ih last

/-- What holds at the start and survives each pass holds after all of them. -/
theorem Passes.invariant (passes : Passes body start items final) (Holds : List β → σ → Prop)
    (initially : Holds [] start)
    (step : ∀ done item state state', Holds done state → body state item = .next state' →
      Holds (done ++ [item]) state') :
    Holds items final := by
  induction passes with
  | nil => exact initially
  | snoc _ last ih => exact step _ _ _ _ ih last

/-- The last pass of a loop: the list ran out, or one body left the loop. -/
inductive LastPass (body : σ → β → Flow σ) (state : σ) : List β → Ending σ → Prop where
  | exhausted : LastPass body state [] (.returned state)
  | stopped {item : β} {later : List β} {final : σ} :
      body state item = .stop final → LastPass body state (item :: later) (.returned final)
  | raised {item : β} {later : List β} {error : String} {final : σ} :
      body state item = .raised error final → LastPass body state (item :: later) (.raised error final)

/-- The items after which the body went on. -/
def passed (body : σ → β → Flow σ) : List β → σ → List β
  | [], _ => []
  | item :: items, state =>
    match body state item with
    | .next state => item :: passed body items state
    | .stop _ | .raised _ _ => []

/-- Every loop is some passes that went on, and one last pass. -/
theorem loop_passed (body : σ → β → Flow σ) (items : List β) (start : σ) :
    ∃ rest state, items = passed body items start ++ rest ∧
      Passes body start (passed body items start) state ∧
      LastPass body state rest (loop body items start) := by
  induction items generalizing start with
  | nil => exact ⟨[], start, rfl, .nil, .exhausted⟩
  | cons item items ih =>
    unfold loop passed
    cases outcome : body start item with
    | next middle =>
      obtain ⟨rest, state, split, passes, last⟩ := ih middle
      exact ⟨rest, state, congrArg (item :: ·) split, Passes.cons outcome passes, last⟩
    | stop => exact ⟨item :: items, start, rfl, .nil, .stopped outcome⟩
    | raised => exact ⟨item :: items, start, rfl, .nil, .raised outcome⟩

theorem loop_cases (body : σ → β → Flow σ) (items : List β) (start : σ) :
    ∃ done rest state, items = done ++ rest ∧ Passes body start done state ∧
      LastPass body state rest (loop body items start) :=
  ⟨_, loop_passed body items start⟩

/-- What every pass over one of the items keeps, however it ends, holds when the loop has
ended. -/
theorem loop_state_invariant (Holds : σ → Prop) (initially : Holds start)
    (step : ∀ item ∈ items, ∀ state, Holds state → Holds (body state item).state) :
    Holds (loop body items start).state := by
  induction items generalizing start with
  | nil => exact initially
  | cons item _ ih =>
    obtain ⟨stepFirst, stepLater⟩ := List.forall_mem_cons.mp step
    have kept := stepFirst start initially
    unfold loop
    cases outcome : body start item with
    | next =>
      rw [outcome] at kept
      exact ih kept stepLater
    | stop | raised =>
      rw [outcome] at kept
      exact kept

end WeaveCodex.Library.EarlyExit
