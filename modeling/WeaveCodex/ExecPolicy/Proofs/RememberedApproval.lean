/-
Purpose: When a remembered approval means the same after the rules file is loaded again. A
  rule for tokens that a rule of the same program matches changes no decision, so the file
  may have it and the memory not; a rule for tokens that were allowed by the name of the
  executable only does.
-/
import WeaveCodex.ExecPolicy.Amend
import WeaveCodex.ExecPolicy.Proofs.ManagedRules

namespace WeaveCodex.ExecPolicy

open ApplyPatch
open Library
open Paths Policy Evaluation List

/-! ### A match that changes no decision -/

/-- The second list of matches is the first, or has one more allowing match. -/
def Extends (first second : List RuleMatch) : Prop :=
  second = first ∨ first ≠ [] ∧ ∃ found : RuleMatch, found.decision = .allow ∧ second = first ++ [found]

variable {first second : List RuleMatch}

theorem Extends.eq_nil_iff (extended : Extends first second) : second = [] ↔ first = [] := by
  rcases extended with same | ⟨nonempty, _, _, longer⟩
  · rw [same]
  · simp [longer, nonempty]

theorem Extends.decision (extended : Extends first second) :
    (fromMatches second).map Evaluation.decision = (fromMatches first).map Evaluation.decision := by
  rcases extended with same | ⟨nonempty, _, allows, longer⟩
  · rw [same]
  · obtain ⟨other, mem⟩ := exists_mem_of_ne_nil first nonempty
    apply Option.ext
    intro decision
    simp only [fromMatches_decision_iff, longer, mem_append,
      mem_singleton, or_imp, forall_and, forall_eq, allows]
    constructor
    · rintro ⟨⟨strictest, strictestMem | isFound, same⟩, bounded, _⟩
      · exact ⟨⟨strictest, strictestMem, same⟩, bounded⟩
      · rw [isFound, allows] at same
        have lax := Decision.le_allow_iff.mp (same ▸ bounded other mem)
        exact ⟨⟨other, mem, lax.trans same⟩, bounded⟩
    · rintro ⟨⟨strictest, strictestMem, same⟩, bounded⟩
      exact ⟨⟨strictest, .inl strictestMem, same⟩, bounded, Decision.allow_le _⟩

theorem Extends.withResolvedProgram (extended : Extends first second) (path : AbsolutePathBuf) :
    Extends (first.map (·.withResolvedProgram path)) (second.map (·.withResolvedProgram path)) := by
  rcases extended with same | ⟨nonempty, found, allows, longer⟩
  · exact .inl (by rw [same])
  · right
    refine ⟨by simpa using nonempty, found.withResolvedProgram path, ?_, by simp [longer]⟩
    rw [RuleMatch.decision_withResolvedProgram, allows]

namespace Policy

/-- The policy with an allow rule for the tokens. -/
def withAllow (policy : Policy) (program : String) (rest : List String) : Policy :=
  { policy with
    rulesByProgram := policy.rulesByProgram.insert program (singleTokenRule program rest .allow) }

/-- Some rule of the program matches whatever begins with the tokens. -/
def Covers (policy : Policy) (program : String) (rest : List String) : Prop :=
  ∃ rule ∈ policy.rulesByProgram.getVec program, ∀ command,
    ((singleTokenRule program rest .allow).matchesCommand command).isSome →
      (rule.matchesCommand command).isSome

variable {policy : Policy} {program : String} {rest : List String}
  (covered : policy.Covers program rest)
include covered

/-- What the rules of a program match is extended by the new rule. -/
theorem matched_withAllow (name : String) (command : List String) :
    Extends ((policy.rulesByProgram.getVec name).filterMap (·.matchesCommand command))
      (((policy.withAllow program rest).rulesByProgram.getVec name).filterMap
        (·.matchesCommand command)) := by
  unfold withAllow
  rw [MultiMap.getVec_insert]
  by_cases same : program = name
  · cases matched : (singleTokenRule program rest .allow).matchesCommand command with
    | none =>
      left
      simp [same ▸ matched, same]
    | some found =>
      obtain ⟨rule, listed, wider⟩ := covered
      obtain ⟨_, otherMatched⟩ := Option.isSome_iff_exists.mp (wider command (by rw [matched]; rfl))
      right
      constructor
      · apply ne_nil_of_mem
        exact mem_filterMap.mpr ⟨rule, same ▸ listed, otherMatched⟩
      · refine ⟨found, ?_, by simp [same ▸ matched, same]⟩
        obtain ⟨_, _, isMatch⟩ := Option.map_eq_some_iff.mp matched
        rw [← isMatch]
        rfl
  · left
    rw [if_neg same, append_nil]

variable (env : ProcessEnv) (command : List String)

theorem exactMatches_withAllow :
    Extends (policy.exactMatches command) ((policy.withAllow program rest).exactMatches command) := by
  cases command with
  | nil => exact .inl rfl
  | cons name arguments => exact matched_withAllow covered name (name :: arguments)

theorem resolvedMatches_withAllow (options : MatchOptions) :
    Extends (policy.resolvedMatches env command options)
      ((policy.withAllow program rest).resolvedMatches env command options) := by
  unfold resolvedMatches matchHostExecutableRules
  split
  · split
    · exact .inl rfl
    · rename_i path basename _
      change Extends _ (if policy.permitsPath basename path then _ else _)
      split
      · exact (matched_withAllow covered basename _).withResolvedProgram path
      · exact .inl rfl
  · exact .inl rfl

theorem matches_withAllow (fallback : List String → Decision) (options : MatchOptions) :
    Extends (policy.matchesForCommandWithOptions env command (some fallback) options)
      ((policy.withAllow program rest).matchesForCommandWithOptions env command (some fallback)
        options) := by
  have exact := exactMatches_withAllow covered command
  have resolved := resolvedMatches_withAllow covered env command options
  by_cases noExact : policy.exactMatches command = []
  · have stillNone := exact.eq_nil_iff.mpr noExact
    by_cases unresolved : policy.resolvedMatches env command options = []
    · rw [matches_of_unresolved noExact unresolved,
        matches_of_unresolved stillNone (resolved.eq_nil_iff.mpr unresolved)]
      exact .inl rfl
    · rw [matches_of_resolved noExact unresolved,
        matches_of_resolved stillNone (mt resolved.eq_nil_iff.mp unresolved)]
      exact resolved
  · rw [matches_of_exact noExact, matches_of_exact (mt exact.eq_nil_iff.mp noExact)]
    exact exact

/-- A rule that is covered changes no decision. -/
theorem check_withAllow (fallback : List String → Decision) (options : MatchOptions) :
    ((policy.withAllow program rest).checkWithOptions env command fallback options).map decision =
      (policy.checkWithOptions env command fallback options).map decision :=
  (matches_withAllow covered env command fallback options).decision

omit covered

end Policy

/-! ### Which rules cover the tokens -/

variable {arguments rest : List String} {program : String} {policy : Policy}

theorem matchesPrefix_isSome_iff {pattern : PrefixPattern} :
    (pattern.matchesPrefix (program :: arguments)).isSome ↔
      program = pattern.first ∧ pattern.rest.length ≤ arguments.length ∧
        (pattern.rest.zip arguments).all fun pair => pair.1.matchesToken pair.2 := by
  unfold PrefixPattern.matchesPrefix
  by_cases same : program = pattern.first
  · by_cases short : arguments.length < pattern.rest.length
    · simp [short]
    · by_cases tokens : (pattern.rest.zip arguments).all fun pair => pair.1.matchesToken pair.2
      · simp [same, short, tokens, Nat.le_of_not_lt short]
      · simp [same, short, tokens]
  · simp [same]

/-- Single tokens match the arguments that begin with them. -/
theorem single_tokens_iff (rest arguments : List String) : rest.length ≤ arguments.length ∧
      (((rest.map PatternToken.single).zip arguments).all fun pair =>
        pair.1.matchesToken pair.2) = true ↔
    rest <+: arguments := by
  induction rest generalizing arguments with
  | nil => simp
  | cons _ _ induction =>
    cases arguments with
    | nil => simp
    | cons _ arguments =>
      rw [cons_prefix_cons, ← induction arguments]
      simp [PatternToken.matchesToken, and_left_comm]

/-- What follows the tokens of a pattern does not matter. -/
theorem zip_append_of_length_le {α β : Type} (first : List α) (second more : List β)
    (short : first.length ≤ second.length) : first.zip (second ++ more) = first.zip second := by
  rw [@zip_eq_zip_take_min _ _ first, @zip_eq_zip_take_min _ _ first second, length_append,
    min_eq_left short, min_eq_left (Nat.le_add_right_of_le short), take_append_of_le_length short]

theorem singleTokenRule_isSome_iff {name : String} {decision : Decision} :
    ((singleTokenRule program rest decision).matchesCommand (name :: arguments)).isSome ↔
      name = program ∧ rest <+: arguments := by
  unfold PrefixRule.matchesCommand
  rw [Option.isSome_map, matchesPrefix_isSome_iff, ← single_tokens_iff]
  simp [singleTokenRule]

/-- A rule that matches the tokens matches whatever begins with them. -/
theorem covers_of_match (exact : policy.exactMatches (program :: rest) ≠ []) :
    policy.Covers program rest := by
  obtain ⟨found, mem⟩ := exists_mem_of_ne_nil _ exact
  obtain ⟨rule, listed, matched⟩ := mem_filterMap.mp
    (show found ∈ (policy.rulesByProgram.getVec program).filterMap
      (·.matchesCommand (program :: rest)) from mem)
  refine ⟨rule, listed, ?_⟩
  intro command begins
  cases command with
  | nil => cases begins
  | cons name =>
    obtain ⟨rfl, _, rfl⟩ := singleTokenRule_isSome_iff.mp begins
    have ruleMatched : (rule.matchesCommand (name :: rest)).isSome := by rw [matched]; rfl
    unfold PrefixRule.matchesCommand at ruleMatched ⊢
    rw [Option.isSome_map, matchesPrefix_isSome_iff] at ruleMatched ⊢
    obtain ⟨same, short, tokens⟩ := ruleMatched
    rw [zip_append_of_length_le _ _ _ short, length_append]
    exact ⟨same, by omega, tokens⟩

/-! ### The amendment -/

/-- What is assumed of the parser at one rules file and one list of tokens: it loads the
policy, and a line behind the others adds its rule behind the others. -/
structure LoadsRules (parse : String → Option Policy) (contents : String) (policy : Policy)
    (program : String) (rest : List String) : Prop where
  loaded : parse contents = some policy
  appended : allowPrefixRuleLine (program :: rest) ∉ strLines contents →
    parse (withLine contents (allowPrefixRuleLine (program :: rest))) =
      some (policy.withAllow program rest)

/-- No rule is for the first token, and the rules for the name of the executable allow the
command. -/
def AllowedByName (env : ProcessEnv) (policy : Policy) (command : List String) : Prop :=
  policy.exactMatches command = [] ∧
    (Evaluation.fromMatches (policy.matchHostExecutableRules env command)).map
      Evaluation.decision = some .allow

variable {env : ProcessEnv} {command : List String}

theorem isPolicyMatch_of_resolved {found : RuleMatch} {options : MatchOptions}
    (mem : found ∈ policy.resolvedMatches env command options) : found.isPolicyMatch = true := by
  obtain ⟨_, _, _, _, _, _, _, _, matched, rewritten⟩ :=
    mem_resolvedMatches.mp mem
  obtain ⟨_, _, isPrefixMatch⟩ := Option.map_eq_some_iff.mp matched
  rw [← rewritten, ← isPrefixMatch]
  rfl

/-- Where no rule matches as it stands, only the name of the executable can allow a command. -/
theorem alreadyAllowed_iff_of_no_exact (noExact : policy.exactMatches command = []) :
    alreadyAllowed env policy command = true ↔ AllowedByName env policy command := by
  have resolvedEq : policy.resolvedMatches env command ⟨true⟩ =
      policy.matchHostExecutableRules env command := rfl
  unfold alreadyAllowed AllowedByName checkMultipleWithOptions
  rw [flatMap_singleton]
  by_cases unresolved : policy.resolvedMatches env command ⟨true⟩ = []
  · rw [matches_of_unresolved noExact unresolved, ← resolvedEq, unresolved]
    simp [fromMatches, RuleMatch.decision]
  · rw [matches_of_resolved noExact unresolved, resolvedEq]
    cases evaluated : fromMatches (policy.matchHostExecutableRules env command) with
    | none => simp
    | some =>
      obtain ⟨decision, _, isEvaluation⟩ := Option.map_eq_some_iff.mp evaluated
      have decided : (fromMatches (policy.matchHostExecutableRules env command)).map
          Evaluation.decision = some decision := by
        rw [evaluated, ← isEvaluation]
        rfl
      obtain ⟨⟨found, mem, same⟩, _⟩ := fromMatches_decision_iff.mp decided
      have policyMatch := isPolicyMatch_of_resolved (resolvedEq ▸ mem)
      simp only [← isEvaluation, Bool.and_eq_true, decide_eq_true_eq, any_eq_true,
        noExact, true_and, Option.map_some, Option.some.injEq]
      constructor
      · exact And.left
      · intro allows
        exact ⟨allows, found, mem, policyMatch, same.trans allows⟩

/-- Two policies decide alike, for a process with any directory and home. -/
def DecidesAlike (first second : Policy) : Prop :=
  ∀ env command fallback options,
    (first.checkWithOptions env command fallback options).map Evaluation.decision =
      (second.checkWithOptions env command fallback options).map Evaluation.decision

theorem DecidesAlike.refl (policy : Policy) : DecidesAlike policy policy :=
  fun _ _ _ _ => rfl

theorem DecidesAlike.symm {first second : Policy} (alike : DecidesAlike first second) :
    DecidesAlike second first :=
  fun env command fallback options => (alike env command fallback options).symm

/-- A rule for tokens that a rule matches already changes no decision. -/
theorem decidesAlike_withAllow (exact : policy.exactMatches (program :: rest) ≠ []) :
    DecidesAlike (policy.withAllow program rest) policy :=
  fun env command fallback options =>
    check_withAllow (covers_of_match exact) env command fallback options

/-- Without a rule for the first token the new rule decides the tokens themselves. -/
theorem not_decidesAlike_withAllow (noExact : policy.exactMatches (program :: rest) = []) :
    ¬ DecidesAlike policy (policy.withAllow program rest) := by
  intro alike
  have differ := alike ⟨none, none⟩ (program :: rest) (fun _ => .forbidden) ⟨false⟩
  have before : policy.matchesForCommandWithOptions ⟨none, none⟩ (program :: rest)
      (some fun _ => .forbidden) ⟨false⟩ = [.heuristicsRuleMatch (program :: rest) .forbidden] :=
    matches_of_unresolved noExact rfl _
  have now : (policy.withAllow program rest).exactMatches (program :: rest) =
      [.prefixRuleMatch (program :: rest) .allow none none] := by
    have noVec : (policy.rulesByProgram.getVec program).filterMap
        (·.matchesCommand (program :: rest)) = [] := noExact
    change ((policy.rulesByProgram.insert program _).getVec program).filterMap _ = _
    rw [MultiMap.getVec_insert, if_pos rfl, filterMap_append, noVec]
    have whole := (single_tokens_iff rest rest).mpr (prefix_refl rest)
    simp [PrefixRule.matchesCommand, PrefixPattern.matchesPrefix, singleTokenRule, whole.2]
  unfold checkWithOptions at differ
  rw [before, matches_of_exact (by simp [now]), now] at differ
  exact absurd differ (by simp [fromMatches, RuleMatch.decision])

/-- What the amendment does to the file and to the policy. -/
theorem appendAmendmentAndUpdate_ok (env : ProcessEnv) (state : ManagerState) (program : String)
    (rest : List String) :
    appendAmendmentAndUpdate env state (program :: rest) =
      .ok { contents := appendLockedLine state.contents (allowPrefixRuleLine (program :: rest))
            policy := if alreadyAllowed env state.policy (program :: rest) then state.policy
              else state.policy.withAllow program rest } := by
  unfold appendAmendmentAndUpdate blockingAppendAllowPrefixRule
  simp only [isEmpty_cons, Bool.false_eq_true, if_false]
  split <;> rfl

/-- The policy in memory and the one loaded from the amended file decide every command alike,
exactly if the tokens were not allowed by the name of the executable only.  A line that the file
has already, if only inside of a text, is not written: then it is the other way round, unless a
rule of the policy matches the tokens. -/
theorem rememberedApproval_agrees_iff (env : ProcessEnv) (parse : String → Option Policy)
    (contents : String) (policy : Policy) (program : String) (rest : List String)
    (loads : LoadsRules parse contents policy program rest) :
    (∃ state, appendAmendmentAndUpdate env ⟨contents, policy⟩ (program :: rest) = .ok state ∧
        ∃ reloaded, parse state.contents = some reloaded ∧ DecidesAlike state.policy reloaded) ↔
      if allowPrefixRuleLine (program :: rest) ∈ strLines contents then
        policy.exactMatches (program :: rest) ≠ [] ∨ AllowedByName env policy (program :: rest)
      else ¬ AllowedByName env policy (program :: rest) := by
  simp only [appendAmendmentAndUpdate_ok, Except.ok.injEq, exists_eq_left']
  by_cases inFile : allowPrefixRuleLine (program :: rest) ∈ strLines contents
  · -- The file stays as it is.
    rw [appendLockedLine, if_pos inFile, if_pos inFile, loads.loaded]
    simp only [Option.some.injEq, exists_eq_left']
    by_cases noExact : policy.exactMatches (program :: rest) = []
    · rw [← alreadyAllowed_iff_of_no_exact noExact]
      cases alreadyAllowed env policy (program :: rest) with
      | true => exact iff_of_true (.refl policy) (.inr rfl)
      | false =>
        refine iff_of_false (fun alike => not_decidesAlike_withAllow noExact alike.symm) ?_
        simp [noExact]
    · refine iff_of_true ?_ (.inl noExact)
      split
      · exact .refl policy
      · exact decidesAlike_withAllow noExact
  · rw [appendLockedLine, if_neg inFile, if_neg inFile, loads.appended inFile]
    simp only [Option.some.injEq, exists_eq_left']
    by_cases noExact : policy.exactMatches (program :: rest) = []
    · rw [← alreadyAllowed_iff_of_no_exact noExact]
      cases alreadyAllowed env policy (program :: rest) with
      | true => simpa using not_decidesAlike_withAllow noExact
      | false => exact iff_of_true (.refl _) Bool.false_ne_true
    · refine iff_of_true ?_ fun allowed => noExact allowed.1
      split
      · exact (decidesAlike_withAllow noExact).symm
      · exact .refl _

/-- A parser that knows two files. -/
def knowing (first second : String × Policy) (contents : String) : Option Policy :=
  if contents = first.1 then some first.2
  else if contents = second.1 then some second.2
  else none

theorem knowing_second (first second : String × Policy) {contents : String}
    (text : contents = second.1) (apart : second.1 ≠ first.1) :
    knowing first second contents = some second.2 := by
  rw [knowing, text, if_neg apart, if_pos rfl]

/-- A rules file, and its policy. -/
def removalRules : String :=
  "prefix_rule(pattern=[\"rm\"], decision=\"allow\")\n" ++
    "prefix_rule(pattern=[\"rm\", \"-rf\"], decision=\"forbidden\")\n"

def removalPolicy : Policy where
  rulesByProgram := ((MultiMap.insert {} "rm" (Policy.singleTokenRule "rm" [] .allow)).insert "rm"
    (Policy.singleTokenRule "rm" ["-rf"] .forbidden))

/-- The approval of a removal that the rules forbid is kept, in memory and in the file. -/
theorem forbiddenRemoval_agrees :
    let parse := knowing (removalRules, removalPolicy)
      (removalRules ++ "prefix_rule(pattern=[\"rm\", \"-rf\", \"build\"], decision=\"allow\")\n",
        removalPolicy.withAllow "rm" ["-rf", "build"])
    ∃ state, appendAmendmentAndUpdate plainEnv ⟨removalRules, removalPolicy⟩ ["rm", "-rf", "build"] =
        .ok state ∧
      ∃ reloaded, parse state.contents = some reloaded ∧ DecidesAlike state.policy reloaded := by
  have appended : withLine removalRules (allowPrefixRuleLine ["rm", "-rf", "build"]) =
      removalRules ++ "prefix_rule(pattern=[\"rm\", \"-rf\", \"build\"], decision=\"allow\")\n" := by
    decide +kernel
  have unlisted : allowPrefixRuleLine ["rm", "-rf", "build"] ∉ strLines removalRules := by
    decide +kernel
  apply (rememberedApproval_agrees_iff plainEnv _ removalRules removalPolicy "rm" ["-rf", "build"]
    ⟨rfl, fun _ => knowing_second (removalRules, removalPolicy) _ appended (by decide)⟩).mpr
  rw [if_neg unlisted]
  rintro ⟨noExact, -⟩
  exact absurd noExact (by decide)

/-- The approval of `/bin/rm` changes nothing in memory, where `/bin/rm -rf x` is forbidden, and
allows that command after a restart. -/
theorem approvedRemoval_differs :
    let parse := knowing (removalRules, removalPolicy)
      (removalRules ++ "prefix_rule(pattern=[\"/bin/rm\"], decision=\"allow\")\n",
        removalPolicy.withAllow "/bin/rm" [])
    LoadsRules parse removalRules removalPolicy "/bin/rm" [] ∧ ∃ state reloaded,
        appendAmendmentAndUpdate plainEnv ⟨removalRules, removalPolicy⟩ ["/bin/rm"] = .ok state ∧
        parse state.contents = some reloaded ∧
        (state.policy.checkWithOptions plainEnv ["/bin/rm", "-rf", "x"] (fun _ => .prompt)
          ⟨true⟩).map Evaluation.decision = some .forbidden ∧
        (reloaded.checkWithOptions plainEnv ["/bin/rm", "-rf", "x"] (fun _ => .prompt)
          ⟨true⟩).map Evaluation.decision = some .allow := by
  have appended : withLine removalRules (allowPrefixRuleLine ["/bin/rm"]) =
      removalRules ++ "prefix_rule(pattern=[\"/bin/rm\"], decision=\"allow\")\n" := by
    decide +kernel
  have unlisted : allowPrefixRuleLine ["/bin/rm"] ∉ strLines removalRules := by
    decide +kernel
  have reloaded := knowing_second (removalRules, removalPolicy)
    (_, removalPolicy.withAllow "/bin/rm" []) appended (by decide)
  refine ⟨⟨rfl, fun _ => reloaded⟩, _, removalPolicy.withAllow "/bin/rm" [],
    appendAmendmentAndUpdate_ok _ _ _ _, ?_, by decide, by decide⟩
  rw [appendLockedLine, if_neg unlisted]
  exact reloaded

end WeaveCodex.ExecPolicy
