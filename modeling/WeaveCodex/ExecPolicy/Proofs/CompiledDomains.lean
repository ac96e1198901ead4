/-
Purpose: The last rule of a host that is not a prompt decides whether the host is allowed or
  denied, and both lists are in the order of these rules.
-/
import WeaveCodex.ExecPolicy.NetworkDomains

namespace WeaveCodex.ExecPolicy

open List

/-- An `Allow` or `Forbidden` rule of the host. -/
def NetworkRule.decides (host : String) (rule : NetworkRule) : Bool :=
  rule.host = host ∧ rule.decision ≠ .prompt

def lastDecision (rules : List NetworkRule) (host : String) : Option Decision :=
  (rules.reverse.find? (NetworkRule.decides host)).map NetworkRule.decision

/-- How many rules come after the last one that decides about the host. -/
def rulesAfter (rules : List NetworkRule) (host : String) : Nat :=
  rules.reverse.findIdx (NetworkRule.decides host)

/-- The hosts with this last decision, in the order of the positions of their last rules. -/
structure Settled (rules : List NetworkRule) (decision : Decision) (hosts : List String) : Prop where
  mem_iff : ∀ host, host ∈ hosts ↔ lastDecision rules host = some decision
  ordered : hosts.Pairwise fun first second => rulesAfter rules second < rulesAfter rules first

section Step

variable {rules : List NetworkRule} {rule : NetworkRule} {decision : Decision} {hosts : List String}

theorem lastDecision_concat (host : String) : lastDecision (rules ++ [rule]) host =
    if rule.decides host then some rule.decision else lastDecision rules host := by
  rw [lastDecision, lastDecision, reverse_concat, find?_cons]
  cases rule.decides host <;> rfl

theorem rulesAfter_concat (host : String) : rulesAfter (rules ++ [rule]) host =
    if rule.decides host then 0 else rulesAfter rules host + 1 := by
  rw [rulesAfter, rulesAfter, reverse_concat, findIdx_cons]
  cases rule.decides host <;> rfl

variable (settled : Settled rules decision hosts)
include settled

theorem Settled.prompt (prompts : rule.decision = .prompt) :
    Settled (rules ++ [rule]) decision hosts := by
  have silent (host : String) : rule.decides host = false := by
    simp [NetworkRule.decides, prompts]
  constructor
  · simpa [lastDecision_concat, silent] using settled.mem_iff
  · simpa [rulesAfter_concat, silent] using settled.ordered

/-- The host of a rule leaves its place, and is put at the end if the rule decides so. -/
theorem Settled.decided (decides : rule.decision ≠ .prompt) : Settled (rules ++ [rule]) decision
    (hosts.filter (· ≠ rule.host) ++ if rule.decision = decision then [rule.host] else []) := by
  have own : rule.decides rule.host = true := by simp [NetworkRule.decides, decides]
  have silent {host : String} (apart : host ≠ rule.host) : rule.decides host = false := by
    simp [NetworkRule.decides, Ne.symm apart]
  constructor
  · intro host
    rw [lastDecision_concat, mem_append, mem_filter, settled.mem_iff, decide_eq_true_eq]
    by_cases same : host = rule.host
    · rw [same, if_pos own]
      by_cases decided : rule.decision = decision <;> simp [decided]
    · rw [silent same]
      split <;> simp [same]
  · refine pairwise_append.mpr ⟨(settled.ordered.filter _).imp_of_mem ?_, by split <;> simp, ?_⟩
    · intro first second one two before
      simp only [mem_filter, decide_eq_true_eq] at one two
      simpa [rulesAfter_concat, silent one.2, silent two.2] using before
    · -- The rule itself is the last one now.
      intro first one second last
      rw [mem_filter, decide_eq_true_eq] at one
      split at last
      · rw [mem_singleton.mp last, rulesAfter_concat, rulesAfter_concat, own, silent one.2]
        exact Nat.succ_pos _
      · cases last

end Step

/-- One list settles on `allow` and the other on `forbidden`. -/
theorem settled_compileRule (rules : List NetworkRule) :
    Settled rules .allow (rules.foldl compileRule ([], [])).1 ∧
      Settled rules .forbidden (rules.foldl compileRule ([], [])).2 := by
  induction rules using reverseRecOn with
  | nil => constructor <;> exact ⟨by simp [lastDecision], .nil⟩
  | append_singleton _ rule ih =>
    rw [foldl_append, foldl_cons, foldl_nil, compileRule]
    cases decided : rule.decision with
    | prompt => exact ⟨ih.1.prompt decided, ih.2.prompt decided⟩
    | allow | forbidden =>
      have decides : rule.decision ≠ .prompt := by simp [decided]
      simpa [decided, upsertDomain] using And.intro (ih.1.decided decides) (ih.2.decided decides)

/-- The last rule that decides about a host is what counts, and the rules of an overlay come
after those of the policy. -/
theorem compiledNetworkDomains_mergeOverlay (base overlay : Policy) :
    let rules := base.networkRules ++ overlay.networkRules
    let domains := (base.mergeOverlay overlay).compiledNetworkDomains
    domains.1.Nodup ∧ domains.2.Nodup ∧ domains.1.Disjoint domains.2 ∧
      Settled rules .allow domains.1 ∧ Settled rules .forbidden domains.2 ∧
      ∀ host, lastDecision overlay.networkRules host = some .forbidden → host ∈ domains.2 := by
  intro rules domains
  obtain ⟨allowed, denied⟩ : Settled rules .allow domains.1 ∧ Settled rules .forbidden domains.2 :=
    settled_compileRule rules
  refine ⟨allowed.ordered.imp ?_, denied.ordered.imp ?_, ?_, allowed, denied, ?_⟩
  · rintro _ _ before rfl
    exact lt_irrefl _ before
  · rintro _ _ before rfl
    exact lt_irrefl _ before
  · intro host one two
    rw [allowed.mem_iff] at one
    rw [denied.mem_iff, one] at two
    cases two
  · intro host forbids
    rw [denied.mem_iff, lastDecision, reverse_append, find?_append, Option.map_or]
    exact Option.or_eq_some_iff.mpr (.inl forbids)

end WeaveCodex.ExecPolicy
