/-
Purpose: The proxy at run time: the decision about a host, the calls that read and write the
  shared state in several steps, and the machine that interleaves such calls.
Trusted boundary: translation of `network-proxy/src/runtime.rs`; one step of the machine holds
  the lock once, reloaded states come from `build_config_state`, and every blocked request
  carries the number of its call, which the source does not store
-/
import WeaveCodex.NetworkProxy.Config

namespace WeaveCodex.NetworkProxy

open ApplyPatch

variable (tools : NetworkTools) (checks : ConfigChecks)

/-! ### The decision about a host -/

inductive HostBlockReason where
  | denied | notAllowed | notAllowedLocal
deriving DecidableEq, Repr

inductive HostBlockDecision where
  | allowed
  | blocked (reason : HostBlockReason)
deriving DecidableEq, Repr

def isExplicitLocalAllowlisted (allowedDomains : List String) (host : String) : Bool :=
  allowedDomains.any fun pattern =>
    let pattern := trim pattern
    if pattern = "*" || (stripLeading "*." pattern).isSome ||
        (stripLeading "**." pattern).isSome then false
    else if '*' ∈ pattern.toList || '?' ∈ pattern.toList then false
    else
      let normalized := normalizeHost tools.parseIp pattern
      normalized = host || unscopedIpLiteral tools.parseIp host = some normalized

/-- `host_resolves_to_non_public_ip`; a failed lookup counts as one. -/
def hostResolvesToNonPublicIp (host : String) (port : Nat) : Bool :=
  match tools.parseIp host with
  | some address => isNonPublicIp address
  | none =>
    match tools.lookupHost host port with
    | some addresses => addresses.any isNonPublicIp
    | none => true

/-- The host names a local or private address by itself. -/
def isLocalLiteral (host : String) : Bool :=
  isLoopbackHost tools.parseIp host ||
    ((tools.parseIp ((unscopedIpLiteral tools.parseIp host).getD host)).map isNonPublicIp).getD false

/-- A local literal has to be allowed by name; any other host has to lead to the public
network. -/
def blockedAsLocal (allowedDomains : List String) (host : String) (port : Nat) : Bool :=
  if isLocalLiteral tools host then !isExplicitLocalAllowlisted tools allowedDomains host
  else hostResolvesToNonPublicIp tools host port

/-- `host_blocked`, once the state is loaded. -/
def hostBlocked {Request : Type} (state : ConfigState Request) (host : String) (port : Nat) :
    HostBlockDecision :=
  match hostParse tools.parseIp host with
  | .error _ => .blocked .notAllowed
  | .ok host =>
    if globsetMatchesHostOrUnscoped tools state.denySet host then .blocked .denied
    else if !state.config.allowLocalBinding &&
        blockedAsLocal tools (state.config.allowedDomains.getD []) host port then
      .blocked .notAllowedLocal
    else if state.config.allowedDomains.isNone ||
        !globsetMatchesHostOrUnscoped tools state.allowSet host then
      .blocked .notAllowed
    else .allowed

/-! ### Blocked requests -/

structure BlockedRequest where
  host : String
  reason : String
  client : Option String := none
  method : Option String := none
  mode : Option NetworkMode := none
  protocol : String
  executionId : Option String := none
  decision : Option String := none
  source : Option String := none
  port : Option Nat := none
  timestamp : Int
deriving DecidableEq, Repr

/-- A blocked request with the number of the call that recorded it. -/
structure Numbered where
  number : Nat
  request : BlockedRequest
deriving DecidableEq, Repr

/-- `MAX_BLOCKED_EVENTS`. -/
def maxBlockedEvents : Nat := 200

/-- `u64::MAX`. -/
def maxCount : Nat := 18446744073709551615

/-- The oldest entries give way while there are too many. -/
def evictOldest {Request : Type} (limit : Nat) (blocked : List Request) : List Request :=
  blocked.drop (blocked.length - limit)

/-- The locked part of `record_blocked`. -/
def recordBlocked {Request : Type} (state : ConfigState Request) (entry : Request) :
    ConfigState Request :=
  { state with
    blocked := evictOldest maxBlockedEvents (state.blocked ++ [entry])
    blockedTotal := min (state.blockedTotal + 1) maxCount }

theorem blocked_recordBlocked {Request : Type} (state : ConfigState Request) (entry : Request) :
    (recordBlocked state entry).blocked = evictOldest maxBlockedEvents (state.blocked ++ [entry]) := by
  rw [recordBlocked]

/-! ### Changes of a domain list -/

inductive DomainListKind where
  | allow | deny
deriving DecidableEq, Repr

namespace DomainListKind

def listName : DomainListKind → String
  | .allow => "allowlist"
  | .deny => "denylist"

def constraintField : DomainListKind → String
  | .allow => "network.allowed_domains"
  | .deny => "network.denied_domains"

def permission : DomainListKind → NetworkDomainPermission
  | .allow => .allow
  | .deny => .deny

def entries (kind : DomainListKind) (config : NetworkProxyConfig) : List String :=
  match kind with
  | .allow => config.allowedDomains.getD []
  | .deny => config.deniedDomains.getD []

def oppositeEntries (kind : DomainListKind) (config : NetworkProxyConfig) : List String :=
  match kind with
  | .allow => config.deniedDomains.getD []
  | .deny => config.allowedDomains.getD []

end DomainListKind

/-- What `update_domain_list` works out between its two locks: nothing to do, an error, or
the state to write. -/
def domainUpdate (Request : Type) (target : DomainListKind) (host : String)
    (config : NetworkProxyConfig) (constraints : NetworkProxyConstraints) :
    Except String (Option (ConfigState Request)) :=
  let contains (entries : List String) : Bool :=
    entries.any fun entry => normalizeHost tools.parseIp entry = host
  if contains (target.entries config) && !contains (target.oppositeEntries config) then .ok none
  else
    let candidate :=
      config.upsertDomainPermission host target.permission (normalizeHost tools.parseIp)
    match validatePolicyAgainstConstraints tools checks candidate constraints with
    | .error _ => .error (target.constraintField ++ " constrained by managed config")
    | .ok () =>
      match buildConfigState tools checks Request candidate constraints with
      | .error _ => .error ("failed to compile updated network " ++ target.listName)
      | .ok state => .ok (some state)

/-! ### Calls in progress -/

/-- What a caller asks of the proxy; `read` is any call that only reads. -/
inductive Operation where
  | recordBlocked (entry : BlockedRequest)
  | drainBlocked
  | updateDomainList (host : String) (target : DomainListKind)
  | setNetworkMode (mode : NetworkMode)
  | forceReload
  | replaceConfigState (newState : ConfigState Numbered)
  | read

/-- Where a call stands between two steps. -/
inductive Stage where
  /-- `reload_if_needed` waits for the reloader. -/
  | reloading
  /-- The reloader has a new state, and nothing is copied yet. -/
  | reloaded (newState : ConfigState Numbered)
  /-- The new state holds the copied requests and waits for the write lock. -/
  | reloadCopied (newState : ConfigState Numbered)
  /-- `reload_if_needed` is through. -/
  | ready
  /-- The updated domains, with the copied requests, wait for the write lock. -/
  | domainCopied (previousCfg : NetworkProxyConfig) (constraints : NetworkProxyConstraints)
      (newState : ConfigState Numbered)
  /-- The checked mode waits for the write lock. -/
  | modeCopied (constraints : NetworkProxyConstraints)
  /-- `force_reload` has a new state and waits for the write lock. -/
  | forceLoaded (newState : ConfigState Numbered)
  | finished

/-- The answer of the reloader. -/
inductive ReloadAnswer where
  | unchanged
  | fresh (config : NetworkProxyConfig) (constraints : NetworkProxyConstraints)
  | failed

structure Task where
  operation : Operation
  executionId : Option String := none
  stage : Stage

/-- What a step does to the shared state and to the task that takes it. -/
structure Progress where
  shared : ConfigState Numbered
  stage : Stage
  recorded : Bool := false
  drained : Option (List Numbered) := none

/-- The state that a reload has found, if it can be built. -/
def freshState (answer : ReloadAnswer) : Except String (Option (ConfigState Numbered)) :=
  match answer with
  | .unchanged => .ok none
  | .fresh config constraints => (buildConfigState tools checks Numbered config constraints).map some
  | .failed => .error "reload failed"

variable (shared : ConfigState Numbered)

/-- Where `update_domain_list` stands after its read lock. -/
def copyForDomains (host : String) (target : DomainListKind) :
    Stage :=
  match hostParse tools.parseIp host with
  | .error _ => .finished
  | .ok host =>
    match domainUpdate tools checks Numbered target host shared.config shared.constraints with
    | .ok (some newState) =>
      .domainCopied shared.config shared.constraints
        { newState with blocked := shared.blocked, blockedTotal := shared.blockedTotal }
    | _ => .finished

/-- Where `set_network_mode` stands after its read lock. -/
def copyForMode (mode : NetworkMode) : Stage :=
  match validatePolicyAgainstConstraints tools checks { shared.config with mode }
      shared.constraints with
  | .ok () => .modeCopied shared.constraints
  | .error _ => .finished

/-- The first locked part of a call, after `reload_if_needed`. -/
def enter (executionId : Option String) (number : Nat) : Operation → Progress
  | .recordBlocked entry =>
    { shared := recordBlocked shared ⟨number, { entry with executionId }⟩
      stage := .finished
      recorded := true }
  | .drainBlocked =>
    { shared := { shared with blocked := [] }
      stage := .finished
      drained := some shared.blocked }
  | .updateDomainList host target =>
    { shared, stage := copyForDomains tools checks shared host target }
  | .setNetworkMode mode => { shared, stage := copyForMode tools checks shared mode }
  | .forceReload => { shared, stage := .finished }
  | .replaceConfigState newState =>
    { shared := { newState with
        blocked := shared.blocked
        blockedTotal := shared.blockedTotal }
      stage := .finished }
  | .read => { shared, stage := .finished }

/-- One step of a call, with the next answer of the reloader. -/
def advance (number : Nat) (task : Task) (answer : ReloadAnswer) : Option Progress :=
  match task.stage, task.operation with
  | .reloading, .forceReload =>
    match freshState tools checks answer with
    | .ok (some newState) => some { shared, stage := .forceLoaded newState }
    | _ => some { shared, stage := .finished }
  | .forceLoaded newState, _ =>
    -- the list is carried over, the total is not
    some { shared := { newState with blocked := shared.blocked }, stage := .finished }
  | .reloading, _ =>
    match freshState tools checks answer with
    | .ok none => some { shared, stage := .ready }
    | .ok (some newState) => some { shared, stage := .reloaded newState }
    | .error _ => some { shared, stage := .finished }
  | .reloaded newState, _ =>
    some { shared
           stage := .reloadCopied
            { newState with
              blocked := shared.blocked
              blockedTotal := shared.blockedTotal } }
  | .reloadCopied newState, _ => some { shared := newState, stage := .ready }
  | .ready, operation => some (enter tools checks shared task.executionId number operation)
  | .domainCopied previousCfg constraints newState, _ =>
    if shared.constraints ≠ constraints ∨ shared.config ≠ previousCfg then
      some { shared, stage := .reloading }
    else some { shared := newState, stage := .finished }
  | .modeCopied constraints, .setNetworkMode mode =>
    if shared.constraints ≠ constraints then some { shared, stage := .reloading }
    else some { shared := { shared with config := { shared.config with mode } }, stage := .finished }
  | _, _ => none

/-! ### Calls side by side -/

/-- The shared state, the calls in progress, how many requests have been recorded and what
the drains have returned. -/
structure ProxyRun where
  shared : ConfigState Numbered
  tasks : List Task := []
  completed : Nat := 0
  drains : List (List Numbered) := []

inductive Action where
  | start (operation : Operation) (executionId : Option String)
  | advance (task : Nat) (answer : ReloadAnswer)

/-- A call begins with `reload_if_needed`; a host that cannot be parsed is refused before. -/
def firstStage : Operation → Stage
  | .updateDomainList host _ =>
    match hostParse tools.parseIp host with
    | .ok _ => .reloading
    | .error _ => .finished
  | _ => .reloading

/-- One step of the machine. -/
def step (run : ProxyRun) : Action → Option ProxyRun
  | .start operation executionId =>
    let stage := firstStage tools operation
    some { run with tasks := run.tasks ++ [{ operation, executionId, stage }] }
  | .advance index answer =>
    match run.tasks[index]? with
    | none => none
    | some task =>
      (advance tools checks run.shared run.completed task answer).map fun progress =>
        { shared := progress.shared
          tasks := run.tasks.set index { task with stage := progress.stage }
          completed := run.completed + if progress.recorded then 1 else 0
          drains := run.drains ++ progress.drained.toList }

end WeaveCodex.NetworkProxy
