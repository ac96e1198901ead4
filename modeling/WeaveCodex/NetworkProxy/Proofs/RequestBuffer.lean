/-
Purpose: The buffer of blocked requests while calls interleave. If every state that is written
  back still holds the requests that were copied into it, and no forced reload comes after a
  record, then requests leave the buffer only by a drain or as the oldest of too many, no
  request is drained twice, and the total is the number of records.
-/
import WeaveCodex.Library.StepRuns
import WeaveCodex.NetworkProxy.Runtime

namespace WeaveCodex.NetworkProxy

open Library.StepRuns Stage List Nat

variable {tools : NetworkTools} {checks : ConfigChecks}

/-! ### One step -/

/-- The buffer and the total are those of another state. -/
def SameRequests (first second : ConfigState Numbered) : Prop :=
  first.blocked = second.blocked ∧ first.blockedTotal = second.blockedTotal

/-- A call that writes back what it has copied writes what is there, a forced reload comes
before every record, and the counter has room. -/
def Undisturbed (run : ProxyRun) : Action → Prop
  | .start .. => True
  | .advance index _ =>
    match run.tasks[index]? with
    | none => True
    | some task =>
      match task.stage, task.operation with
      | .reloadCopied newState, _ => SameRequests newState run.shared
      | .domainCopied previousCfg constraints newState, _ =>
        run.shared.constraints = constraints → run.shared.config = previousCfg →
          SameRequests newState run.shared
      | .forceLoaded _, _ => run.shared.blockedTotal = 0
      | .ready, .recordBlocked _ => run.shared.blockedTotal < maxCount
      | _, _ => True

/-- The total that a forced reload is going to write. -/
def Stage.forcedTotal : Stage → Nat
  | .forceLoaded newState => newState.blockedTotal
  | _ => 0

/-- A state on its way to a forced reload has counted nothing. -/
def Stage.Uncounted (stage : Stage) : Prop := stage.forcedTotal = 0

/-- What a step does to the requests. -/
inductive Effect (shared : ConfigState Numbered) (number : Nat) : Progress → Prop where
  | quiet {written : ConfigState Numbered} {stage : Stage} (same : SameRequests written shared)
      (uncounted : stage.Uncounted) : Effect shared number { shared := written, stage }
  | records (request : BlockedRequest) (room : shared.blockedTotal < maxCount) :
      Effect shared number
        { shared := recordBlocked shared ⟨number, request⟩, stage := .finished, recorded := true }
  | drains : Effect shared number
      { shared := { shared with blocked := [] }, stage := .finished, drained := some shared.blocked }

variable {answer : ReloadAnswer} {index number : Nat} {run after : ProxyRun}
  {Request : Type} {action : Action} {shared : ConfigState Numbered} {progress : Progress}

theorem Effect.stage_uncounted (effect : Effect shared number progress) :
    progress.stage.Uncounted := by
  cases effect with
  | quiet _ uncounted => exact uncounted
  | records | drains => rfl

theorem freshState_ok {newState : ConfigState Numbered}
    (loaded : freshState tools checks answer = .ok (some newState)) :
    newState.blockedTotal = 0 := by
  cases answer with
  | unchanged | failed => cases loaded
  | fresh config constraints =>
    change (buildConfigState tools checks Numbered config constraints).map some = _ at loaded
    cases built : buildConfigState tools checks Numbered config constraints with
    | error =>
      rw [built] at loaded
      cases loaded
    | ok =>
      rw [built] at loaded
      cases loaded
      exact (buildConfigState_ok built).2.2.2.2.2

theorem copyForDomains_uncounted (host : String) (target : DomainListKind) :
    (copyForDomains tools checks shared host target).Uncounted := by
  unfold copyForDomains
  split
  · rfl
  · split <;> rfl

theorem copyForMode_uncounted (mode : NetworkMode) :
    (copyForMode tools checks shared mode).Uncounted := by
  unfold copyForMode
  split <;> rfl

theorem enter_effect (executionId : Option String) (operation : Operation)
    (room : ∀ entry, operation = .recordBlocked entry → shared.blockedTotal < maxCount) :
    Effect shared number (enter tools checks shared executionId number operation) := by
  cases operation with
  | recordBlocked entry => exact .records _ (room entry rfl)
  | drainBlocked => exact .drains
  | updateDomainList host target =>
    exact .quiet ⟨rfl, rfl⟩ (copyForDomains_uncounted host target)
  | setNetworkMode mode => exact .quiet ⟨rfl, rfl⟩ (copyForMode_uncounted mode)
  | forceReload | read | replaceConfigState => exact .quiet ⟨rfl, rfl⟩ rfl

/-- What a step of one call does to the requests, if it is not disturbed. -/
theorem advance_effect {task : Task} (isTask : run.tasks[index]? = some task)
    (uncounted : task.stage.Uncounted) (undisturbed : Undisturbed run (.advance index answer))
    (advanced : advance tools checks run.shared run.completed task answer = some progress) :
    Effect run.shared run.completed progress := by
  obtain ⟨operation, _, stage⟩ := task
  simp only [Undisturbed, isTask] at undisturbed
  cases stage with
  | reloading =>
    unfold advance at advanced
    cases operation with
    | forceReload =>
      simp only at advanced
      split at advanced
      · rename_i loaded
        cases advanced
        exact .quiet ⟨rfl, rfl⟩ (freshState_ok loaded)
      · cases advanced
        exact .quiet ⟨rfl, rfl⟩ rfl
    | _ =>
      simp only at advanced
      split at advanced
      all_goals
        cases advanced
        exact .quiet ⟨rfl, rfl⟩ rfl
  | reloaded =>
    cases advanced
    exact .quiet ⟨rfl, rfl⟩ rfl
  | reloadCopied =>
    cases advanced
    exact .quiet undisturbed rfl
  | ready =>
    cases advanced
    apply enter_effect
    intro entry isRecord
    change operation = .recordBlocked entry at isRecord
    rw [isRecord] at undisturbed
    exact undisturbed
  | domainCopied =>
    unfold advance at advanced
    simp only at advanced
    split at advanced
    · cases advanced
      exact .quiet ⟨rfl, rfl⟩ rfl
    · rename_i unchanged
      cases advanced
      rw [not_or, not_not, not_not] at unchanged
      exact .quiet (undisturbed unchanged.1 unchanged.2) rfl
  | modeCopied =>
    unfold advance at advanced
    cases operation with
    | setNetworkMode =>
      simp only at advanced
      split at advanced
      all_goals
        cases advanced
        exact .quiet ⟨rfl, rfl⟩ rfl
    | _ => cases advanced
  | forceLoaded =>
    cases advanced
    exact .quiet ⟨rfl, Eq.trans uncounted undisturbed.symm⟩ rfl
  | finished => cases advanced

/-! ### Every step -/

/-- The total counts the records, the buffer is not too long, and no number occurs twice among
what was drained and what is buffered. -/
structure Consistent (run : ProxyRun) : Prop where
  total : run.shared.blockedTotal = run.completed
  bounded : run.shared.blocked.length ≤ maxBlockedEvents
  numbered : ∀ entry ∈ run.drains.flatten ++ run.shared.blocked, entry.number < run.completed
  distinct : ((run.drains.flatten ++ run.shared.blocked).map (·.number)).Nodup
  uncounted : ∀ task ∈ run.tasks, task.stage.Uncounted

/-- A request leaves the buffer in a drain or as the oldest when one more is recorded, and a
recorded request enters it. -/
def KeepsRequests (tools : NetworkTools) (checks : ConfigChecks) (run : ProxyRun)
    (action : Action) : Prop :=
  ∀ after, step tools checks run action = some after →
    (∀ entry ∈ run.shared.blocked, entry ∈ after.shared.blocked ∨
      (∃ drained, after.drains = run.drains ++ [drained] ∧ entry ∈ drained) ∨
      (after.completed = run.completed + 1 ∧ run.shared.blocked.length = maxBlockedEvents ∧
        run.shared.blocked.head? = some entry)) ∧
    (after.completed = run.completed + 1 → ∃ entry ∈ after.shared.blocked, entry.number = run.completed)

/-- One more entry pushes out the first one, and only from a full buffer. -/
theorem evictOldest_append {limit : Nat} {blocked : List Request} (bounded : blocked.length ≤ limit)
    (entry : Request) (positive : 0 < limit) :
    evictOldest limit (blocked ++ [entry]) =
      (if blocked.length = limit then blocked.tail else blocked) ++ [entry] := by
  unfold evictOldest
  rw [length_append, length_singleton]
  split
  · have one : blocked.length + 1 - limit = 1 := by omega
    rw [one, drop_one, tail_append_of_ne_nil]
    apply ne_nil_of_length_pos
    omega
  · have none : blocked.length + 1 - limit = 0 := by omega
    rw [none, drop_zero]

/-- The step of the machine behind the step of a call. -/
theorem step_advance (stepped : step tools checks run (.advance index answer) = some after) :
    ∃ task progress, run.tasks[index]? = some task ∧
      advance tools checks run.shared run.completed task answer = some progress ∧
      after =
        { shared := progress.shared
          tasks := run.tasks.set index { task with stage := progress.stage }
          completed := run.completed + if progress.recorded then 1 else 0
          drains := run.drains ++ progress.drained.toList } := by
  unfold step at stepped
  simp only at stepped
  split at stepped
  · cases stepped
  · rename_i task isTask
    obtain ⟨progress, advanced, isAfter⟩ := Option.map_eq_some_iff.mp stepped
    exact ⟨task, progress, isTask, advanced, isAfter.symm⟩

/-- An undisturbed step keeps the books. -/
theorem consistent_step (consistent : Consistent run) (undisturbed : Undisturbed run action)
    (stepped : step tools checks run action = some after) :
    Consistent after := by
  cases action with
  | start =>
    cases stepped
    refine { consistent with uncounted := ?_ }
    refine forall_mem_append.mpr ⟨consistent.uncounted, forall_mem_singleton.mpr ?_⟩
    unfold firstStage
    split
    · split <;> rfl
    · rfl
  | advance index =>
    obtain ⟨task, progress, isTask, advanced, rfl⟩ := step_advance stepped
    have effect := advance_effect isTask
      (consistent.uncounted task (mem_of_getElem? isTask)) undisturbed advanced
    have uncounted : ∀ other ∈ run.tasks.set index { task with stage := progress.stage },
        other.stage.Uncounted := by
      intro other mem
      rcases mem_or_eq_of_mem_set mem with old | rfl
      · exact consistent.uncounted other old
      · exact effect.stage_uncounted
    cases effect with
    | quiet same =>
      constructor
      · exact same.2.trans consistent.total
      · exact same.1 ▸ consistent.bounded
      · simpa [same.1] using consistent.numbered
      · simpa [same.1] using consistent.distinct
      · exact uncounted
    | records request room =>
      have within (entry : Numbered) : (run.drains.flatten ++
            evictOldest maxBlockedEvents (run.shared.blocked ++ [entry])).Sublist
          (run.drains.flatten ++ run.shared.blocked ++ [entry]) := by
        rw [append_assoc]
        exact (drop_sublist _ _).append_left _
      have counted : min (run.shared.blockedTotal + 1) maxCount = run.shared.blockedTotal + 1 :=
        Nat.min_eq_left room
      have below := consistent.numbered
      constructor
      · simpa [recordBlocked, counted] using consistent.total
      · simp only [blocked_recordBlocked, evictOldest, length_drop]
        omega
      · simp only [Option.toList_none, append_nil, blocked_recordBlocked, if_true]
        intro entry mem
        rcases mem_append.mp ((within _).subset mem) with old | isNew
        · exact lt_succ_of_lt (below entry old)
        · rw [mem_singleton.mp isNew]
          exact lt_succ_self _
      · simp only [Option.toList_none, append_nil, blocked_recordBlocked]
        apply ((within _).map _).nodup
        rw [map_append, nodup_append]
        refine ⟨consistent.distinct, nodup_singleton _, ?_⟩
        simp only [mem_map, map_singleton, mem_singleton]
        rintro _ ⟨entry, mem, rfl⟩ _ rfl
        exact (below entry mem).ne
      · exact uncounted
    | drains =>
      constructor
      · exact consistent.total
      · exact Nat.zero_le _
      · simpa using consistent.numbered
      · simpa using consistent.distinct
      · exact uncounted

/-- An undisturbed step loses no request. -/
theorem keepsRequests_of_undisturbed (consistent : Consistent run)
    (undisturbed : Undisturbed run action) :
    KeepsRequests tools checks run action := by
  intro after stepped
  cases action with
  | start =>
    cases stepped
    exact ⟨fun entry mem => .inl mem, fun recorded => absurd recorded (succ_ne_self _).symm⟩
  | advance =>
    obtain ⟨task, _, isTask, advanced, rfl⟩ := step_advance stepped
    have effect := advance_effect isTask
      (consistent.uncounted task (mem_of_getElem? isTask)) undisturbed advanced
    cases effect with
    | quiet same =>
      exact ⟨fun entry mem => .inl (same.1 ▸ mem), fun recorded => absurd recorded (succ_ne_self _).symm⟩
    | drains =>
      exact ⟨fun entry mem => .inr (.inl ⟨_, rfl, mem⟩),
        fun recorded => absurd recorded (succ_ne_self _).symm⟩
    | records =>
      have positive : 0 < maxBlockedEvents := by decide
      simp only [recordBlocked, if_true, evictOldest_append consistent.bounded _ positive]
      constructor
      · intro entry mem
        split
        · rename_i full
          cases blocked : run.shared.blocked with
          | nil =>
            rw [blocked] at mem
            cases mem
          | cons =>
            rw [blocked] at mem full
            rcases mem_cons.mp mem with isOldest | younger
            · exact .inr (.inr ⟨trivial, full, by rw [isOldest]; rfl⟩)
            · exact .inl (mem_append_left _ younger)
        · exact .inl (mem_append_left _ mem)
      · intro _
        exact ⟨_, mem_append_right _ (mem_singleton_self _), rfl⟩

/-! ### Whole runs -/

theorem consistent_initial {config : NetworkProxyConfig} {constraints : NetworkProxyConstraints}
    {shared : ConfigState Numbered}
    (built : buildConfigState tools checks Numbered config constraints = .ok shared) :
    Consistent { shared } := by
  obtain ⟨_, _, _, _, noRequests, noTotal⟩ := buildConfigState_ok built
  constructor
  · exact noTotal
  · simp [noRequests]
  · simp [noRequests]
  · simp [noRequests]
  · simp

/-- In every run whose steps are undisturbed, requests leave the buffer only in drains and as
the oldest of too many, no request is drained twice, and the total is the number of
records. -/
theorem requestBuffer_kept (tools : NetworkTools) (checks : ConfigChecks)
    (config : NetworkProxyConfig) (constraints : NetworkProxyConstraints)
    (shared : ConfigState Numbered)
    (built : buildConfigState tools checks Numbered config constraints = .ok shared)
    (actions : List Action)
    (undisturbed : Along (step tools checks) Undisturbed { shared } actions) :
    Along (step tools checks) (KeepsRequests tools checks) { shared } actions ∧
      ∀ final, execute (step tools checks) { shared } actions = some final →
        (final.drains.flatten.map (·.number)).Nodup ∧ final.shared.blockedTotal = final.completed := by
  have initially := consistent_initial built
  have preserved : ∀ run action after, Consistent run → Undisturbed run action →
      step tools checks run action = some after → Consistent after :=
    fun _ _ _ => consistent_step
  constructor
  · apply along_imp Consistent preserved _ initially undisturbed
    intro run action consistent allowed
    exact keepsRequests_of_undisturbed consistent allowed
  · intro final ran
    have consistent := execute_invariant Consistent preserved initially undisturbed ran
    have distinct := consistent.distinct
    rw [map_append] at distinct
    exact ⟨(nodup_append.mp distinct).1, consistent.total⟩

/-- Tools for a configuration without domains. -/
def plainTools : NetworkTools where
  parseIp _ := none
  urlHost := some
  globBuilds _ := true
  globMatches glob text := glob = text
  lookupHost _ _ := none
  debugList _ := ""

/-- The state built from a configuration without domains. -/
def plainState : ConfigState Numbered where
  config := {}
  allowSet := []
  denySet := []
  constraints := {}

def someRequest : BlockedRequest where
  host := "example.com"
  reason := "not_allowed"
  protocol := "http"
  timestamp := 0

/-- A request is recorded, a reload copies it and writes it back, and it is drained. -/
theorem recordAndDrain_kept :
    let actions : List Action := [.start (.recordBlocked someRequest) none, .advance 0 .unchanged,
      .advance 0 .unchanged, .start .read none, .advance 1 (.fresh {} {}), .advance 1 .unchanged,
      .advance 1 .unchanged, .start .drainBlocked none, .advance 2 .unchanged, .advance 2 .unchanged]
    Along (step plainTools .passing) (KeepsRequests plainTools .passing)
        { shared := plainState } actions ∧
      ∀ final, execute (step plainTools .passing) { shared := plainState } actions = some final →
        (final.drains.flatten.map (·.number)).Nodup ∧ final.shared.blockedTotal = final.completed := by
  apply requestBuffer_kept plainTools .passing {} {} plainState rfl
  have room : 0 < maxCount := by decide
  exact ⟨trivial, trivial, room, trivial, trivial, trivial, ⟨rfl, rfl⟩, trivial, trivial, trivial, trivial⟩

/-- A reload that copies the requests before a record and writes them back after it loses the
record; a forced reload forgets the total. -/
theorem writeBack_loses_request :
    (∃ final, execute (step plainTools .passing) { shared := plainState }
        [.start .read none, .advance 0 (.fresh {} {}), .advance 0 .unchanged,
          .start (.recordBlocked someRequest) none, .advance 1 .unchanged, .advance 1 .unchanged,
          .advance 0 .unchanged] = some final ∧
      final.completed = 1 ∧ final.shared.blocked = [] ∧ final.drains = [] ∧
        final.shared.blockedTotal = 0) ∧
    ∃ final, execute (step plainTools .passing) { shared := plainState }
        [.start (.recordBlocked someRequest) none, .advance 0 .unchanged, .advance 0 .unchanged,
          .start .forceReload none, .advance 1 (.fresh {} {}), .advance 1 .unchanged] = some final ∧
      final.completed = 1 ∧ final.shared.blockedTotal = 0 := by
  exact ⟨⟨_, rfl, rfl, rfl, rfl, rfl⟩, ⟨_, rfl, rfl, rfl⟩⟩

end WeaveCodex.NetworkProxy
