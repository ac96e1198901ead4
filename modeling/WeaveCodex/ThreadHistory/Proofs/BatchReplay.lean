/-
Purpose: A store that follows the change sets of consecutive batches holds what building
  the turns from the whole rollout gives, however the rollout is cut, as long as the ids of
  the turns that are there are distinct. Distinct ids of the turns that a rollout starts
  are not enough: an item of a review opens its turn itself.
-/
import Mathlib.Data.List.Infix
import WeaveCodex.ThreadHistory.Proofs.StepChanges

namespace WeaveCodex.ThreadHistory

open ThreadHistoryBuilder List

universe u

variable {Json : Type u} {tools : BuilderTools} {builder : ThreadHistoryBuilder Json}

/-! ### One item -/

/-- The builder as it starts to record the changes of an item. -/
def tracking (builder : ThreadHistoryBuilder Json) : ThreadHistoryBuilder Json :=
  { builder with activeChangeSet := some {} }

variable (untracked : builder.activeChangeSet = none)
include untracked

theorem untracked_tracking_handleRolloutItem (item : RolloutItem Json) :
    ((tracking builder).handleRolloutItem tools item).untracked =
      builder.handleRolloutItem tools item := by
  have same : (tracking builder).untracked = builder := by
    rw [tracking, ThreadHistoryBuilder.untracked, ← untracked]
  rw [handleRolloutItem, untracked_handleItem]
  exact congrArg (fun start => start.handleRolloutItem tools item) same

theorem activeChangeSet_handleRolloutItem (item : RolloutItem Json) :
    (builder.handleRolloutItem tools item).activeChangeSet = none := by
  rw [← untracked_tracking_handleRolloutItem untracked]
  rfl

variable {item : RolloutItem Json} {items later : List (RolloutItem Json)}

/-- The change set of one item leads to what the builder shows after the item. -/
theorem handleRolloutItemWithChanges_spec (live : builder.Live) (distinct : DistinctIds builder.view)
    (distinctAfter : DistinctIds (builder.handleRolloutItem tools item).view) :
    applyChanges builder.view (builder.handleRolloutItemWithChanges tools item).1 =
        (builder.handleRolloutItem tools item).view ∧
      ∀ change ∈ (builder.handleRolloutItemWithChanges tools item).1.changedItems,
        change.turnId ∈ (builder.handleRolloutItem tools item).view.map Turn.id := by
  have sameView : ((tracking builder).handleRolloutItem tools item).view =
      (builder.handleRolloutItem tools item).view := by
    rw [← untracked_tracking_handleRolloutItem untracked]
    rfl
  have fresh : Follows builder.view {} (tracking builder).advanceRolloutIndex :=
    ⟨rfl, applyChanges_empty _, fun _ mem => nomatch mem⟩
  rw [← sameView] at distinctAfter
  have replayed : Replayed builder.view ((tracking builder).handleRolloutItem tools item) :=
    replayed_handleItem fresh live distinct distinctAfter
  obtain ⟨_, recorded, applied, known⟩ := replayed
  dsimp only [handleRolloutItemWithChanges]
  rw [← tracking, recorded, ← sameView]
  exact ⟨applied, known⟩

omit untracked

/-! ### Batches -/

/-- After every part of the rollout the builder shows distinct ids. -/
def DistinctAlong (tools : BuilderTools) (builder : ThreadHistoryBuilder Json)
    (items : List (RolloutItem Json)) : Prop :=
  ∀ front, front <+: items → DistinctIds (builder.handleRolloutItems tools front).view

theorem DistinctAlong.start (distinct : DistinctAlong tools builder items) : DistinctIds builder.view :=
  distinct [] nil_prefix

theorem DistinctAlong.tail (distinct : DistinctAlong tools builder (item :: items)) :
    DistinctAlong tools (builder.handleRolloutItem tools item) items := by
  intro front begins
  exact distinct (item :: front) ((prefix_cons_inj item).mpr begins)

theorem DistinctAlong.left (distinct : DistinctAlong tools builder (items ++ later)) :
    DistinctAlong tools builder items := by
  intro front begins
  exact distinct front (begins.trans (prefix_append items later))

theorem DistinctAlong.right (distinct : DistinctAlong tools builder (items ++ later)) :
    DistinctAlong tools (builder.handleRolloutItems tools items) later := by
  intro front begins
  have whole := distinct (items ++ front) ((prefix_append_right_inj items).mpr begins)
  rw [handleRolloutItems, foldl_append] at whole
  exact whole

theorem activeChangeSet_handleRolloutItems (untracked : builder.activeChangeSet = none)
    (items : List (RolloutItem Json)) :
    (builder.handleRolloutItems tools items).activeChangeSet = none := by
  induction items generalizing builder with
  | nil => exact untracked
  | cons item _ ih =>
    exact ih (activeChangeSet_handleRolloutItem untracked item)

open ThreadHistoryChangeAccumulator in
/-- The accumulator leads from where the batch started to what the builder shows. -/
theorem accumulateChanges_spec {store : List (Turn Json)}
    {acc : ThreadHistoryChangeAccumulator Json} (inScope : Scoped store acc)
    (shown : applyChanges store acc.finish = builder.view)
    (untracked : builder.activeChangeSet = none) (live : builder.Live)
    (distinct : DistinctAlong tools builder items) :
    (builder.accumulateChanges tools acc items).2 = builder.handleRolloutItems tools items ∧
      applyChanges store (builder.accumulateChanges tools acc items).1.finish =
        (builder.handleRolloutItems tools items).view := by
  induction items generalizing builder acc with
  | nil => exact ⟨rfl, shown⟩
  | cons item items ih =>
    obtain ⟨applied, known⟩ :=
      handleRolloutItemWithChanges_spec untracked live distinct.start distinct.tail.start
    rw [← applied, ← shown] at known
    obtain ⟨nowInScope, pushed⟩ := applyChanges_push inScope known
    rw [shown, applied] at pushed
    have sameBuilder : (builder.handleRolloutItemWithChanges tools item).2 =
        builder.handleRolloutItem tools item :=
      untracked_tracking_handleRolloutItem untracked item
    have step : builder.accumulateChanges tools acc (item :: items) =
        (builder.handleRolloutItem tools item).accumulateChanges tools
          (acc.push (builder.handleRolloutItemWithChanges tools item).1) items := by
      rw [accumulateChanges, foldl_cons, ← sameBuilder]
      rfl
    rw [step]
    exact ih nowInScope pushed
      (activeChangeSet_handleRolloutItem untracked item) (live_handleRolloutItem live item)
      distinct.tail

theorem scoped_empty (store : List (Turn Json)) :
    ThreadHistoryChangeAccumulator.Scoped store ThreadHistoryChangeAccumulator.empty :=
  fun _ mem => nomatch mem

include untracked

theorem applyBatches_spec (live : builder.Live) {batches : List (List (RolloutItem Json))}
    (distinct : DistinctAlong tools builder batches.flatten) :
    applyBatches tools builder builder.view batches =
      (builder.handleRolloutItems tools batches.flatten).view := by
  induction batches generalizing builder with
  | nil => rfl
  | cons batch _ ih =>
    rw [flatten_cons] at distinct
    obtain ⟨sameBuilder, applied⟩ := accumulateChanges_spec (scoped_empty _)
      (applyChanges_empty _) untracked live distinct.left
    rw [applyBatches]
    dsimp only [handleRolloutItemsWithChanges]
    rw [applied, sameBuilder, ih
      (activeChangeSet_handleRolloutItems untracked batch) (live_handleRolloutItems live batch)
      distinct.right, flatten_cons, handleRolloutItems, handleRolloutItems,
      handleRolloutItems, foldl_append]

omit untracked

/-- A turn with reasoning, a turn that is rolled back, and a command of the first turn that
ends after it. -/
def savedThread : List (List (RolloutItem Unit)) :=
  [[.eventMsg (.turnStarted "turn-1" (some 1)), .eventMsg (.userMessage { message := "list" }),
      .eventMsg (.agentReasoning "first")],
    [.eventMsg (.agentReasoning "second"), .eventMsg (.turnComplete "turn-1" none (some 2) none),
      .eventMsg (.turnStarted "turn-2" none), .eventMsg (.userMessage { message := "undo" })],
    [.eventMsg (.threadRolledBack 1), .eventMsg (.userMessage { message := "again" }),
      .eventMsg (.tool .execCommandEnd "turn-1" ⟨.commandExecution, "call", ()⟩)]]

def turnStartedIds (items : List (RolloutItem Json)) : List String :=
  items.filterMap fun
    | .eventMsg (.turnStarted turnId _) => some turnId
    | _ => none

/-- A review names a turn that starts only afterwards. -/
def reviewedTurn : List (RolloutItem Unit) :=
  [.eventMsg (.enteredReviewMode (some "turn-1") (some "entered-review") none),
    .eventMsg (.turnStarted "turn-1" none), .eventMsg (.userMessage { message := "hello" })]

end WeaveCodex.ThreadHistory
