/-
Purpose: The host of a network rule, which is normalised when it is added to the policy and again
  when the rules file is parsed.
Trusted boundary: translation of `normalize_network_rule_host` in `execpolicy/src/rule.rs`
-/
import WeaveCodex.NetworkProxy.DomainPattern

namespace WeaveCodex.ExecPolicy

open ApplyPatch NetworkProxy

/-- A colon and a port of digits. -/
def isPort (text : List Char) : Bool :=
  text.head? = some ':' && text.tail ≠ [] && text.tail.all Char.isDigit

/-- The host without its brackets, or without its port. -/
def networkRuleHostPart (raw : String) : List Char → Except String (List Char)
  | '[' :: stripped =>
    if ']' ∉ stripped then .error "network_rule host has an invalid bracketed IPv6 literal"
    else
      let rest := (stripped.dropWhile (· ≠ ']')).tail
      if rest ≠ [] ∧ isPort rest = false then
        .error ("network_rule host contains an unsupported suffix: " ++ raw)
      else .ok (stripped.takeWhile (· ≠ ']'))
  | host =>
    if host.count ':' = 1 ∧ host.takeWhile (· ≠ ':') ≠ [] ∧ isPort (host.dropWhile (· ≠ ':')) then
      .ok (host.takeWhile (· ≠ ':'))
    else .ok host

def normalizeNetworkRuleHost (raw : String) : Except String String :=
  let host := trim raw
  if host = "" then .error "network_rule host cannot be empty"
  -- A text with `://` has a slash.
  else if host.toList.any (· ∈ ['/', '?', '#']) then
    .error "network_rule host must be a hostname or IP literal (without scheme or path)"
  else
    match networkRuleHostPart raw host.toList with
    | .error error => .error error
    | .ok part =>
      let normalized := toAsciiLowercase (trim (trimEndDots (String.ofList part)))
      if normalized = "" then .error "network_rule host cannot be empty"
      else if '*' ∈ normalized.toList then
        .error "network_rule host must be a specific host; wildcards are not allowed"
      else if normalized.toList.any isWhitespace then
        .error "network_rule host cannot contain whitespace"
      else .ok normalized

end WeaveCodex.ExecPolicy
