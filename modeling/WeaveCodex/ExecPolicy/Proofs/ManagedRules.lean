/-
Purpose: When the rules of an overlay stay in force in the merged policy. They do for
  commands that they match by the first token; a match by the name of the executable is
  lost to a laxer rule of the base policy for the first token, and to a declaration of the
  base policy that leaves the executable out.
-/
import WeaveCodex.ExecPolicy.Policy

namespace WeaveCodex.ExecPolicy

open Library
open Paths Policy Evaluation List

/-! ### The strictest match -/

variable {decision : Decision} {matchedRules : List RuleMatch}

theorem fromMatches_decision_iff : (fromMatches matchedRules).map Evaluation.decision = some decision ↔
    (∃ found ∈ matchedRules, found.decision = decision) ∧
      ∀ found ∈ matchedRules, found.decision ≤ decision := by
  unfold fromMatches
  rw [Option.map_map]
  change (matchedRules.map RuleMatch.decision).max?.map id = some decision ↔ _
  rw [Option.map_id, id_eq, max?_eq_some_iff]
  simp

/-- A list of matches decides at least as strictly as its members. -/
theorem atLeast_fromMatches_iff : (∃ evaluation, fromMatches matchedRules = some evaluation ∧
      decision ≤ evaluation.decision) ↔
    ∃ found ∈ matchedRules, decision ≤ found.decision := by
  constructor
  · rintro ⟨evaluation, evaluated, atLeast⟩
    have decided : (fromMatches matchedRules).map Evaluation.decision = some evaluation.decision := by
      rw [evaluated]
      rfl
    obtain ⟨⟨found, mem, same⟩, _⟩ := fromMatches_decision_iff.mp decided
    exact ⟨found, mem, same ▸ atLeast⟩
  · rintro ⟨found, mem, atLeast⟩
    have nonempty : (matchedRules.map RuleMatch.decision).max?.isSome = true := by
      rw [isSome_max?_iff]
      simpa using ne_nil_of_mem mem
    obtain ⟨strictest, isStrictest⟩ := Option.isSome_iff_exists.mp nonempty
    have bounded := (max?_eq_some_iff.mp isStrictest).2 found.decision (mem_map_of_mem mem)
    refine ⟨⟨strictest, matchedRules⟩, ?_, atLeast.trans bounded⟩
    unfold fromMatches
    rw [isStrictest]
    rfl

namespace Policy

/-! ### The matches of a command -/

/-- The rules that match a command by its first token. -/
def exactMatches (policy : Policy) (command : List String) : List RuleMatch :=
  (policy.matchExactRules command).getD []

variable {policy base overlay : Policy} {env : ProcessEnv} {command : List String}
  {fallback : Option (List String → Decision)} {options : MatchOptions}

theorem matches_of_exact (exact : policy.exactMatches command ≠ []) :
    policy.matchesForCommandWithOptions env command fallback options = policy.exactMatches command := by
  have nonempty : ((policy.matchExactRules command).getD []).isEmpty = false := by
    simpa [exactMatches] using exact
  simp only [matchesForCommandWithOptions, nonempty, Bool.not_false, if_true]
  split
  · contradiction
  · rfl

/-- The rules that match a command by the name of its executable. -/
def resolvedMatches (policy : Policy) (env : ProcessEnv) (command : List String)
    (options : MatchOptions) : List RuleMatch :=
  if options.resolveHostExecutables then policy.matchHostExecutableRules env command else []

variable (noExact : policy.exactMatches command = [])
include noExact

/-- Without a rule for the first token the rules for the executable are looked at. -/
theorem matches_of_no_exact : policy.matchesForCommandWithOptions env command fallback options =
    match policy.resolvedMatches env command options, fallback with
    | [], some fallback => [.heuristicsRuleMatch command (fallback command)]
    | _, _ => policy.resolvedMatches env command options := by
  have empty : ((policy.matchExactRules command).getD []).isEmpty = true := by
    simpa [exactMatches] using noExact
  simp only [matchesForCommandWithOptions, empty, Bool.not_true, Bool.false_eq_true, if_false]
  rfl

theorem matches_of_resolved (resolved : policy.resolvedMatches env command options ≠ []) :
    policy.matchesForCommandWithOptions env command fallback options =
      policy.resolvedMatches env command options := by
  rw [matches_of_no_exact noExact]
  split
  · contradiction
  · rfl

theorem matches_of_unresolved (unresolved : policy.resolvedMatches env command options = [])
    (fallback : List String → Decision) :
    policy.matchesForCommandWithOptions env command (some fallback) options =
      [.heuristicsRuleMatch command (fallback command)] := by
  rw [matches_of_no_exact noExact, unresolved]

variable {found : RuleMatch}

/-- Without heuristics there is nothing but the rules. -/
theorem mem_matches_none
    (mem : found ∈ policy.matchesForCommandWithOptions env command none options) :
    found ∈ policy.resolvedMatches env command options := by
  rw [matches_of_no_exact noExact] at mem
  split at mem
  · rename_i never
    cases never
  · exact mem

omit noExact

theorem exactMatches_mergeOverlay : (base.mergeOverlay overlay).exactMatches command =
    base.exactMatches command ++ overlay.exactMatches command := by
  unfold exactMatches matchExactRules mergeOverlay
  cases command with
  | nil => rfl
  | cons => simp [MultiMap.getVec_insertAll]

/-- The overlay's declaration of an executable replaces that of the base. -/
theorem permitsPath_mergeOverlay (base overlay : Policy) (basename : String) (path : AbsolutePathBuf) :
    (base.mergeOverlay overlay).permitsPath basename path =
      if (overlay.hostExecutablesByName.lookup basename).isSome then
        overlay.permitsPath basename path
      else base.permitsPath basename path := by
  unfold permitsPath mergeOverlay
  cases declared : overlay.hostExecutablesByName.lookup basename with
  | none =>
    rw [AList.lookup_union_right (AList.lookup_eq_none.mp declared)]
    rfl
  | some =>
    have mem : basename ∈ overlay.hostExecutablesByName := by
      rw [← AList.lookup_isSome, declared]
      rfl
    rw [AList.lookup_union_left mem, declared]
    rfl

/-- A resolved match is one of the rules for the name of a permitted executable. -/
theorem mem_resolvedMatches : found ∈ policy.resolvedMatches env command options ↔
    options.resolveHostExecutables = true ∧
      ∃ path basename, hostExecutable env command = some (path, basename) ∧
        policy.permitsPath basename path = true ∧
        ∃ rule ∈ policy.rulesByProgram.getVec basename,
          ∃ plain, rule.matchesCommand (basename :: command.tail) = some plain ∧
            plain.withResolvedProgram path = found := by
  unfold resolvedMatches matchHostExecutableRules
  by_cases resolves : options.resolveHostExecutables = true
  · rw [if_pos resolves]
    split
    · rename_i unresolved
      simp [unresolved]
    · rename_i path basename resolved
      by_cases permitted : policy.permitsPath basename path = true
      · simp only [permitted, if_true, mem_map, mem_filterMap, resolves, resolved]
        constructor
        · rintro ⟨plain, ⟨rule, listed, matched⟩, rewritten⟩
          exact ⟨trivial, path, basename, rfl, permitted, rule, listed, plain, matched, rewritten⟩
        · rintro ⟨_, _, _, ⟨_, _⟩, _, rule, listed, plain, matched, rewritten⟩
          exact ⟨plain, ⟨rule, listed, matched⟩, rewritten⟩
      · simp [resolved, permitted]
  · rw [if_neg resolves]
    simp [resolves]

end Policy

/-! ### Managed rules -/

/-- The base policy stands in the way of an overlay that matches the command by the name of
its executable only: it has a rule for the first token and only laxer ones, or it alone
declares the executable, without the path in the command. -/
def Shadowed (env : ProcessEnv) (base overlay : Policy) (command : List String)
    (strictest : Decision) : Prop :=
  overlay.exactMatches command = [] ∧ ((base.exactMatches command ≠ [] ∧
        ∀ found ∈ base.exactMatches command, found.decision < strictest) ∨
      (base.exactMatches command = [] ∧ strictest ≠ .allow ∧
        ∃ path basename, Policy.hostExecutable env command = some (path, basename) ∧
          overlay.hostExecutablesByName.lookup basename = none ∧
          base.permitsPath basename path = false))

variable {env : ProcessEnv} {base overlay : Policy} {command : List String} {options : MatchOptions}
  {strictest : Decision} {found : RuleMatch} {basename : String} {path : AbsolutePathBuf}

/-- A rule for the first token keeps its place among the matches. -/
theorem upheld_of_exact (mem : found ∈ overlay.exactMatches command)
    (fallback : Option (List String → Decision)) :
    found ∈ (base.mergeOverlay overlay).matchesForCommandWithOptions env command fallback options := by
  have inMerged : found ∈ (base.mergeOverlay overlay).exactMatches command := by
    rw [exactMatches_mergeOverlay]
    exact mem_append_right _ mem
  rw [matches_of_exact (ne_nil_of_mem inMerged)]
  exact inMerged

variable (noExact : overlay.exactMatches command = [])
include noExact

variable (noBaseExact : base.exactMatches command = [])
include noBaseExact

theorem exactMatches_merged : (base.mergeOverlay overlay).exactMatches command = [] := by
  rw [exactMatches_mergeOverlay, noExact, noBaseExact, nil_append]

/-- A rule for the executable keeps its place if the base has no rule for the first token and
the path stays permitted. -/
theorem upheld_of_permitted (resolved : hostExecutable env command = some (path, basename))
    (permitted : (base.mergeOverlay overlay).permitsPath basename path = true)
    (mem : found ∈ overlay.resolvedMatches env command options)
    (fallback : Option (List String → Decision)) :
    found ∈ (base.mergeOverlay overlay).matchesForCommandWithOptions env command fallback options := by
  have inMerged : found ∈ (base.mergeOverlay overlay).resolvedMatches env command options := by
    obtain ⟨resolves, _, _, resolvedOther, _, rule, listed, matched⟩ :=
      mem_resolvedMatches.mp mem
    rw [resolved] at resolvedOther
    cases resolvedOther
    apply mem_resolvedMatches.mpr
    refine ⟨resolves, path, basename, resolved, permitted, rule, ?_, matched⟩
    change rule ∈ (base.rulesByProgram.insertAll overlay.rulesByProgram).getVec basename
    rw [MultiMap.getVec_insertAll]
    exact mem_append_right _ listed
  rw [matches_of_resolved (exactMatches_merged noExact noBaseExact) (ne_nil_of_mem inMerged)]
  exact inMerged

/-- Only heuristics decide if the path is not permitted any more. -/
theorem matches_of_left_out (resolved : hostExecutable env command = some (path, basename))
    (refused : (base.mergeOverlay overlay).permitsPath basename path = false)
    (fallback : List String → Decision) :
    (base.mergeOverlay overlay).matchesForCommandWithOptions env command (some fallback) options =
      [.heuristicsRuleMatch command (fallback command)] := by
  apply matches_of_unresolved (exactMatches_merged noExact noBaseExact)
  apply eq_nil_iff_forall_not_mem.mpr
  intro found mem
  obtain ⟨_, _, _, resolvedOther, permitted, _⟩ := mem_resolvedMatches.mp mem
  rw [resolved] at resolvedOther
  cases resolvedOther
  rw [refused] at permitted
  cases permitted

/-- Without rules for the first token the declaration of the executable decides. -/
theorem atLeast_iff_of_resolved (mem : found ∈ overlay.resolvedMatches env command options)
    (isStrictest : found.decision = strictest) :
    (∀ fallback, ∃ found ∈ (base.mergeOverlay overlay).matchesForCommandWithOptions env command
        (some fallback) options, strictest ≤ found.decision) ↔
      ¬ Shadowed env base overlay command strictest := by
  obtain ⟨_, path, basename, resolved, permitted, _⟩ := mem_resolvedMatches.mp mem
  have shadowed_iff : Shadowed env base overlay command strictest ↔ strictest ≠ .allow ∧
      overlay.hostExecutablesByName.lookup basename = none ∧
      base.permitsPath basename path = false := by
    unfold Shadowed
    simp [noExact, noBaseExact, resolved]
  have mergedPermits := permitsPath_mergeOverlay base overlay basename path
  rw [shadowed_iff]
  cases declared : overlay.hostExecutablesByName.lookup basename with
  | some =>
    have kept := upheld_of_permitted noExact noBaseExact resolved
      (by rw [mergedPermits, declared]; exact permitted) mem
    simp only [reduceCtorEq, false_and, and_false, not_false_eq_true, iff_true]
    intro fallback
    exact ⟨found, kept (some fallback), isStrictest.ge⟩
  | none =>
    rw [declared] at mergedPermits
    cases basePermits : base.permitsPath basename path with
    | true =>
      have kept := upheld_of_permitted noExact noBaseExact resolved
        (mergedPermits.trans basePermits) mem
      simp only [reduceCtorEq, and_false, not_false_eq_true, iff_true]
      intro fallback
      exact ⟨found, kept (some fallback), isStrictest.ge⟩
    | false =>
      simp only [matches_of_left_out noExact noBaseExact resolved
        (mergedPermits.trans basePermits), mem_singleton, exists_eq_left,
        RuleMatch.decision, and_self, and_true, ne_eq, not_not]
      constructor
      · intro always
        exact Decision.le_allow_iff.mp (always fun _ => .allow)
      · intro lax fallback
        rw [lax]
        exact Decision.allow_le _

omit noExact noBaseExact

/-- A managed rule decides at least as strictly in the merged policy as alone, whatever the
heuristics say, exactly if the policy of the user does not shadow it. -/
theorem managedRule_upheld_iff (env : ProcessEnv) (base overlay : Policy) (command : List String)
    (options : MatchOptions) (strictest : Decision)
    (decided : (Evaluation.fromMatches
      (overlay.matchesForCommandWithOptions env command none options)).map Evaluation.decision =
        some strictest) :
    (∀ fallback, ∃ evaluation,
        (base.mergeOverlay overlay).checkWithOptions env command fallback options =
          some evaluation ∧ strictest ≤ evaluation.decision) ↔
      ¬ Shadowed env base overlay command strictest := by
  unfold checkWithOptions
  simp only [atLeast_fromMatches_iff]
  obtain ⟨⟨found, member, isStrictest⟩, _⟩ := fromMatches_decision_iff.mp decided
  by_cases noExact : overlay.exactMatches command = []
  · by_cases noBaseExact : base.exactMatches command = []
    · exact atLeast_iff_of_resolved noExact noBaseExact (mem_matches_none noExact member) isStrictest
    · -- Only the rules of the base for the first token decide.
      have merged : (base.mergeOverlay overlay).exactMatches command = base.exactMatches command := by
        rw [exactMatches_mergeOverlay, noExact, append_nil]
      have : Nonempty Decision := ⟨.allow⟩
      simp only [matches_of_exact (merged ▸ noBaseExact), merged, forall_const]
      unfold Shadowed
      simp [noExact, noBaseExact]
  · rw [matches_of_exact noExact] at member
    have unshadowed : ¬ Shadowed env base overlay command strictest := fun shadowed =>
      noExact shadowed.1
    apply iff_of_true _ unshadowed
    intro fallback
    exact ⟨found, upheld_of_exact member (some fallback), isStrictest.ge⟩

/-- A policy with one rule for a program without arguments. -/
def onlyRule (program : String) (decision : Decision) : Policy where
  rulesByProgram := MultiMap.insert {} program ⟨⟨program, []⟩, decision, none⟩

/-- The process of the commands below. -/
def plainEnv : ProcessEnv where
  home := none
  currentDir := none

/-- The policy of the user has no rule for `/bin/rm`, and the managed rule for `rm` asks. -/
theorem managedPrompt_upheld : ∃ evaluation,
    ((onlyRule "ls" .allow).mergeOverlay (onlyRule "rm" .prompt)).checkWithOptions plainEnv
      ["/bin/rm", "x"] (fun _ => .allow) ⟨true⟩ = some evaluation ∧
        .prompt ≤ evaluation.decision := by
  apply (managedRule_upheld_iff plainEnv (onlyRule "ls" .allow) (onlyRule "rm" .prompt)
    ["/bin/rm", "x"] ⟨true⟩ .prompt (by decide)).mpr
  rintro ⟨_, ⟨exact, _⟩ | ⟨_, _, _, _, _, _, refused⟩⟩
  · exact exact (by decide)
  · cases refused

/-- A rule for `/bin/rm` takes the place of the managed rule for `rm`. -/
theorem managedPrompt_lost :
    (Evaluation.fromMatches ((onlyRule "rm" .prompt).matchesForCommandWithOptions plainEnv
        ["/bin/rm", "x"] none ⟨true⟩)).map Evaluation.decision = some .prompt ∧
      (((onlyRule "/bin/rm" .allow).mergeOverlay (onlyRule "rm" .prompt)).checkWithOptions plainEnv
        ["/bin/rm", "x"] (fun _ => .prompt) ⟨true⟩).map Evaluation.decision = some .allow := by
  decide

end WeaveCodex.ExecPolicy
