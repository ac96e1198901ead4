/-
Purpose: An approval that is remembered: the line appended to the rules file and the rule
  added to the policy in memory.
Trusted boundary: translation of `append_amendment_and_update` in `core/src/exec_policy.rs` and
  of `execpolicy/src/amend.rs` for prefix rules; the file is its text, and reading, locking and
  writing it succeed
-/
import WeaveCodex.ApplyPatch.TextFile
import WeaveCodex.ExecPolicy.Policy

namespace WeaveCodex.ExecPolicy

open ApplyPatch String
open Paths

/-! ### The line of a rule -/

/-- How `serde_json` writes one character of a string. -/
def escapeChar (character : Char) : List Char :=
  if character = '"' then ['\\', '"']
  else if character = '\\' then ['\\', '\\']
  else if character = '\n' then ['\\', 'n']
  else if character = '\r' then ['\\', 'r']
  else if character = '\t' then ['\\', 't']
  else if character.toNat = 8 then ['\\', 'b']
  else if character.toNat = 12 then ['\\', 'f']
  else if character.toNat < 32 then
    ['\\', 'u', '0', '0', Nat.digitChar (character.toNat / 16), Nat.digitChar (character.toNat % 16)]
  else [character]

/-- `serde_json::to_string` of a string. -/
def jsonString (text : String) : String :=
  ofList ('"' :: text.toList.flatMap escapeChar ++ ['"'])

/-- The line of `blocking_append_allow_prefix_rule`. -/
def allowPrefixRuleLine (tokens : List String) : String :=
  "prefix_rule(pattern=[" ++ intercalate ", " (tokens.map jsonString) ++ "], decision=\"allow\")"

/-! ### The rules file -/

/-- The file with one more line. -/
def withLine (contents line : String) : String :=
  if !contents.isEmpty && contents.toList.getLast? ≠ some '\n' then contents ++ "\n" ++ line ++ "\n"
  else contents ++ line ++ "\n"

/-- `append_locked_line`: a line that the file has is not written again. -/
def appendLockedLine (contents line : String) : String :=
  if line ∈ strLines contents then contents else withLine contents line

inductive AmendError where
  | emptyPrefix
deriving DecidableEq, Repr

inductive ExecPolicyUpdateError where
  | appendRule (source : AmendError)
  | addRule (message : String)
deriving DecidableEq, Repr

def blockingAppendAllowPrefixRule (contents : String) (tokens : List String) :
    Except AmendError String :=
  if tokens.isEmpty then .error .emptyPrefix
  else .ok (appendLockedLine contents (allowPrefixRuleLine tokens))

/-! ### The manager -/

/-- The rules file and the policy in memory. -/
structure ManagerState where
  contents : String
  policy : Policy

/-- A rule of the policy allows the command, without help of heuristics. -/
def alreadyAllowed (env : ProcessEnv) (policy : Policy) (command : List String) : Bool :=
  match policy.checkMultipleWithOptions env [command] (fun _ => .forbidden) ⟨true⟩ with
  | some evaluation =>
    evaluation.decision = .allow && evaluation.matchedRules.any fun found =>
      found.isPolicyMatch && found.decision = .allow
  | none => false

/-- `append_amendment_and_update`: the line goes to the file in any case, the rule to the
policy only if the command is not allowed yet. -/
def appendAmendmentAndUpdate (env : ProcessEnv) (state : ManagerState) (command : List String) :
    Except ExecPolicyUpdateError ManagerState :=
  match blockingAppendAllowPrefixRule state.contents command with
  | .error source => .error (.appendRule source)
  | .ok contents =>
    if alreadyAllowed env state.policy command then .ok { state with contents }
    else
      match state.policy.addPrefixRule command .allow with
      | .error message => .error (.addRule message)
      | .ok policy => .ok { contents, policy }

end WeaveCodex.ExecPolicy
