/-
Purpose: The hosts that the network rules of a policy allow and deny.
Trusted boundary: translation of `compiled_network_domains` and `upsert_domain` in
  `execpolicy/src/policy.rs`
-/
import WeaveCodex.ExecPolicy.Policy

namespace WeaveCodex.ExecPolicy

def upsertDomain (entries : List String) (host : String) : List String :=
  entries.filter (· ≠ host) ++ [host]

/-- What one rule does to the allowed and the denied hosts. -/
def compileRule (domains : List String × List String) (rule : NetworkRule) :
    List String × List String :=
  match rule.decision with
  | .allow => (upsertDomain domains.1 rule.host, domains.2.filter (· ≠ rule.host))
  | .forbidden => (domains.1.filter (· ≠ rule.host), upsertDomain domains.2 rule.host)
  | .prompt => domains

def Policy.compiledNetworkDomains (policy : Policy) : List String × List String :=
  policy.networkRules.foldl compileRule ([], [])

end WeaveCodex.ExecPolicy
