/-
Purpose: Rules for commands: which rules match a command by its first token, which match
  by the name of an executable, how two policies are merged and how the strictest match
  decides.
Trusted boundary: translation of `execpolicy/src/policy.rs`, `rule.rs`, `decision.rs` and
  `executable_name.rs` on Unix; prefix rules are the only rules, and the order in which a hash
  map is visited is that of the entries
-/
import Mathlib.Data.List.AList
import Mathlib.Data.List.MinMax
import WeaveCodex.Library.MultiMap
import WeaveCodex.Paths.AbsolutePath

namespace WeaveCodex.ExecPolicy

open Library
open Paths

/-! ### Decisions -/

inductive Decision where
  | allow | prompt | forbidden
deriving DecidableEq, Repr

/-- The order of the constructors. -/
def Decision.severity : Decision → Nat
  | .allow => 0
  | .prompt => 1
  | .forbidden => 2

theorem Decision.severity_injective : Function.Injective Decision.severity := by
  intro first second same
  cases first <;> cases second <;> simp_all [Decision.severity]

instance : LinearOrder Decision :=
  LinearOrder.lift' Decision.severity Decision.severity_injective

theorem Decision.allow_le (decision : Decision) : .allow ≤ decision :=
  Nat.zero_le _

theorem Decision.le_allow_iff {decision : Decision} : decision ≤ .allow ↔ decision = .allow := by
  cases decision <;> decide

/-! ### Rules -/

inductive PatternToken where
  | single (expected : String)
  | alts (alternatives : List String)
deriving DecidableEq, Repr

def PatternToken.matchesToken : PatternToken → String → Bool
  | .single expected, token => expected = token
  | .alts alternatives, token => alternatives.contains token

structure PrefixPattern where
  first : String
  rest : List PatternToken
deriving DecidableEq, Repr

/-- `matches_prefix`. -/
def PrefixPattern.matchesPrefix (pattern : PrefixPattern) : List String → Option (List String)
  | [] => none
  | program :: arguments =>
    if arguments.length < pattern.rest.length || program ≠ pattern.first then none
    else if (pattern.rest.zip arguments).all fun pair => pair.1.matchesToken pair.2 then
      some ((program :: arguments).take (pattern.rest.length + 1))
    else none

inductive RuleMatch where
  | prefixRuleMatch (matchedPrefix : List String) (decision : Decision)
      (resolvedProgram : Option AbsolutePathBuf) (justification : Option String)
  | heuristicsRuleMatch (command : List String) (decision : Decision)
deriving DecidableEq

namespace RuleMatch

def decision : RuleMatch → Decision
  | .prefixRuleMatch _ decision _ _ | .heuristicsRuleMatch _ decision => decision

def withResolvedProgram (program : AbsolutePathBuf) : RuleMatch → RuleMatch
  | .prefixRuleMatch matchedPrefix decision _ justification =>
    .prefixRuleMatch matchedPrefix decision (some program) justification
  | other => other

/-- `is_policy_match`. -/
def isPolicyMatch : RuleMatch → Bool
  | .prefixRuleMatch .. => true
  | .heuristicsRuleMatch .. => false

@[simp] theorem decision_withResolvedProgram (program : AbsolutePathBuf) (found : RuleMatch) :
    (found.withResolvedProgram program).decision = found.decision := by
  cases found with
  | prefixRuleMatch | heuristicsRuleMatch => rfl

end RuleMatch

structure PrefixRule where
  pattern : PrefixPattern
  decision : Decision
  justification : Option String := none
deriving DecidableEq, Repr

/-- `Rule::matches`. -/
def PrefixRule.matchesCommand (rule : PrefixRule) (command : List String) : Option RuleMatch :=
  (rule.pattern.matchesPrefix command).map fun matchedPrefix =>
    .prefixRuleMatch matchedPrefix rule.decision none rule.justification

inductive NetworkRuleProtocol where
  | http | https | socks5Tcp | socks5Udp
deriving DecidableEq, Repr

structure NetworkRule where
  host : String
  protocol : NetworkRuleProtocol
  decision : Decision
  justification : Option String
deriving DecidableEq, Repr

/-! ### Policies -/

structure MatchOptions where
  resolveHostExecutables : Bool := false
deriving DecidableEq, Repr

structure Policy where
  rulesByProgram : MultiMap String PrefixRule := {}
  networkRules : List NetworkRule := []
  hostExecutablesByName : AList fun _ : String => List AbsolutePathBuf := ∅

/-- `executable_path_lookup_key`. -/
def executablePathLookupKey (path : AbsolutePathBuf) : Option String :=
  path.fileName

namespace Policy

/-- The rule of `add_prefix_rule` with its program. -/
def singleTokenRule (program : String) (rest : List String) (decision : Decision) : PrefixRule :=
  { pattern := { first := program, rest := rest.map .single }, decision }

variable (policy : Policy) (env : ProcessEnv) (command : List String)

def addPrefixRule (tokens : List String) (decision : Decision) : Except String Policy :=
  match tokens with
  | [] => .error "prefix cannot be empty"
  | program :: rest =>
    .ok { policy with
      rulesByProgram := policy.rulesByProgram.insert program
        (singleTokenRule program rest decision) }

/-- `merge_overlay`: all rules of both, and where both name an executable the overlay's
paths. -/
def mergeOverlay (policy overlay : Policy) : Policy :=
  { rulesByProgram := policy.rulesByProgram.insertAll overlay.rulesByProgram
    networkRules := policy.networkRules ++ overlay.networkRules
    hostExecutablesByName := overlay.hostExecutablesByName ∪ policy.hostExecutablesByName }

def matchExactRules : Option (List RuleMatch) :=
  command.head?.map fun program =>
    (policy.rulesByProgram.getVec program).filterMap fun rule => rule.matchesCommand command

/-- The executable of a command and the name under which rules for it are kept. -/
def hostExecutable : Option (AbsolutePathBuf × String) :=
  command.head?.bind fun program =>
    (fromAbsolutePath env (Path.new program)).bind fun path =>
      (executablePathLookupKey path).map fun basename => (path, basename)

/-- A name that is declared stands for the declared paths only. -/
def permitsPath (basename : String) (path : AbsolutePathBuf) : Bool :=
  match policy.hostExecutablesByName.lookup basename with
  | some paths => paths.contains path
  | none => true

def matchHostExecutableRules : List RuleMatch :=
  match hostExecutable env command with
  | none => []
  | some (path, basename) =>
    if policy.permitsPath basename path then
      ((policy.rulesByProgram.getVec basename).filterMap fun rule =>
        rule.matchesCommand (basename :: command.tail)).map (·.withResolvedProgram path)
    else []

def matchesForCommandWithOptions
    (heuristicsFallback : Option (List String → Decision)) (options : MatchOptions) :
    List RuleMatch :=
  let exactRules := (policy.matchExactRules command).getD []
  let matchedRules :=
    if !exactRules.isEmpty then exactRules
    else if options.resolveHostExecutables then policy.matchHostExecutableRules env command
    else []
  match matchedRules, heuristicsFallback with
  | [], some heuristicsFallback => [.heuristicsRuleMatch command (heuristicsFallback command)]
  | _, _ => matchedRules

end Policy

structure Evaluation where
  decision : Decision
  matchedRules : List RuleMatch
deriving DecidableEq

/-- `from_matches`; without a match there is no decision. -/
def Evaluation.fromMatches (matchedRules : List RuleMatch) : Option Evaluation :=
  (matchedRules.map RuleMatch.decision).max?.map fun decision => { decision, matchedRules }

namespace Policy

def checkWithOptions (policy : Policy) (env : ProcessEnv) (command : List String)
    (heuristicsFallback : List String → Decision) (options : MatchOptions) : Option Evaluation :=
  Evaluation.fromMatches
    (policy.matchesForCommandWithOptions env command (some heuristicsFallback) options)

def checkMultipleWithOptions (policy : Policy) (env : ProcessEnv) (commands : List (List String))
    (heuristicsFallback : List String → Decision) (options : MatchOptions) : Option Evaluation :=
  Evaluation.fromMatches (commands.flatMap fun command =>
    policy.matchesForCommandWithOptions env command (some heuristicsFallback) options)

end Policy

end WeaveCodex.ExecPolicy
