/-
Purpose: The configuration of the network proxy, the managed constraints on it, their check,
  and the state that is built from both.
Trusted boundary: translation of `network-proxy/src/config.rs` and `state.rs`; the checks of
  hooks and socket paths are parameters, and sets are visited in the order of the managed list
-/
import WeaveCodex.NetworkProxy.DomainPattern

namespace WeaveCodex.NetworkProxy

open ApplyPatch

/-! ### Permissions for domains -/

/-- In the order of precedence. -/
inductive NetworkDomainPermission where
  | none | allow | deny
deriving DecidableEq, Repr

def NetworkDomainPermission.rank : NetworkDomainPermission → Nat
  | .none => 0
  | .allow => 1
  | .deny => 2

structure NetworkDomainPermissionEntry where
  pattern : String
  permission : NetworkDomainPermission
deriving DecidableEq, Repr

/-- One entry joins the permissions found so far: the stronger permission of a pattern wins,
at the place of its first entry. -/
def mergeEntry (found : List NetworkDomainPermissionEntry)
    (entry : NetworkDomainPermissionEntry) : List NetworkDomainPermissionEntry :=
  if found.any (·.pattern = entry.pattern) then
    found.map fun earlier =>
      if earlier.pattern = entry.pattern ∧ earlier.permission.rank < entry.permission.rank then
        entry
      else earlier
  else found ++ [entry]

/-- `effective_entries`. -/
def effectiveEntries (entries : List NetworkDomainPermissionEntry) :
    List NetworkDomainPermissionEntry :=
  entries.foldl mergeEntry []

/-! ### The configuration -/

inductive NetworkMode where
  | limited | full
deriving DecidableEq, Repr

def NetworkMode.debug : NetworkMode → String
  | .limited => "Limited"
  | .full => "Full"

/-- `network_mode_rank`. -/
def networkModeRank : NetworkMode → Nat
  | .limited => 0
  | .full => 1

inductive NetworkUnixSocketPermission where
  | allow | deny
deriving DecidableEq, Repr

/-- The hooks are their texts. -/
structure NetworkProxyConfig where
  enabled : Bool := false
  proxyUrl : String := "http://127.0.0.1:3128"
  enableSocks5 : Bool := true
  socksUrl : String := "http://127.0.0.1:8081"
  enableSocks5Udp : Bool := true
  allowUpstreamProxy : Bool := true
  dangerouslyAllowNonLoopbackProxy : Bool := false
  dangerouslyAllowAllUnixSockets : Bool := false
  mode : NetworkMode := .full
  domains : Option (List NetworkDomainPermissionEntry) := none
  unixSockets : Option (List (String × NetworkUnixSocketPermission)) := none
  allowLocalBinding : Bool := false
  mitm : Bool := false
  credentialBroker : Bool := false
  credentialBrokerOpenaiHost : Option String := none
  dangerouslyAllowPlaintextCredentialInjection : Bool := false
  mitmHooks : List String := []
deriving DecidableEq, Repr

namespace NetworkProxyConfig

variable (config : NetworkProxyConfig)

def domainEntries (permission : NetworkDomainPermission) : Option (List String) :=
  (config.domains.map fun domains =>
    ((effectiveEntries domains).filter (·.permission = permission)).map (·.pattern)).filter
      fun entries => !entries.isEmpty

def allowedDomains : Option (List String) :=
  config.domainEntries .allow

def deniedDomains : Option (List String) :=
  config.domainEntries .deny

def allowUnixSockets : List String :=
  ((config.unixSockets.getD []).filter (·.2 = .allow)).map (·.1)

/-- `upsert_domain_permission`: the entries for the same host give way. -/
def upsertDomainPermission (host : String)
    (permission : NetworkDomainPermission) (normalize : String → String) : NetworkProxyConfig :=
  { config with
    domains := some (((config.domains.getD []).filter fun entry =>
      normalize entry.pattern ≠ normalize host) ++ [⟨host, permission⟩]) }

/-- `set_domain_entries`. -/
def setDomainEntries (entries : List String)
    (permission : NetworkDomainPermission) : NetworkProxyConfig :=
  let kept := (config.domains.getD []).filter (·.permission ≠ permission)
  let domains := entries.foldl (fun domains entry =>
      if ⟨entry, permission⟩ ∈ domains then domains else domains ++ [⟨entry, permission⟩]) kept
  { config with domains := if domains.isEmpty then none else some domains }

def setAllowedDomains (allowedDomains : List String) :
    NetworkProxyConfig :=
  config.setDomainEntries allowedDomains .allow

end NetworkProxyConfig

/-! ### Managed constraints -/

structure NetworkProxyConstraints where
  enabled : Option Bool := none
  mode : Option NetworkMode := none
  allowUpstreamProxy : Option Bool := none
  dangerouslyAllowNonLoopbackProxy : Option Bool := none
  dangerouslyAllowAllUnixSockets : Option Bool := none
  allowedDomains : Option (List String) := none
  allowlistExpansionEnabled : Option Bool := none
  deniedDomains : Option (List String) := none
  denylistExpansionEnabled : Option Bool := none
  allowUnixSockets : Option (List String) := none
  allowLocalBinding : Option Bool := none
deriving DecidableEq, Repr

inductive NetworkProxyConstraintError where
  | invalidValue (fieldName candidate allowed : String)
deriving DecidableEq, Repr

/-- The checks of parts of a configuration that are not modelled. -/
structure ConfigChecks where
  /-- `validate_mitm_hook_config`. -/
  mitmHooks : NetworkProxyConfig → Except String Unit
  /-- `validate_unix_socket_allowlist_paths`. -/
  unixSocketPaths : NetworkProxyConfig → Except String Unit
  /-- `compile_mitm_hooks` and `MitmState::new`. -/
  mitmState : NetworkProxyConfig → Except String Unit

/-- Checks that find nothing. -/
def ConfigChecks.passing : ConfigChecks where
  mitmHooks _ := .ok ()
  unixSocketPaths _ := .ok ()
  mitmState _ := .ok ()

variable (tools : NetworkTools) (checks : ConfigChecks)

/-- The lower-case entries of a list, as a set. -/
def lowercaseSet (entries : List String) : List String :=
  (entries.map toAsciiLowercase).eraseDups

/-- Equality of sets. -/
def sameSet (first second : List String) : Bool :=
  first.all (· ∈ second) && second.all (· ∈ first)

/-- A flag that managed configuration switches off stays off. -/
def validateFlag (fieldName : String) (candidate permitted : Bool) :
    Except NetworkProxyConstraintError Unit :=
  if candidate && !permitted then
    .error (.invalidValue fieldName "true" "false (disabled by managed config)")
  else .ok ()

def validateNonGlobalWildcardDomainPatterns (fieldName : String) (patterns : List String) :
    Except NetworkProxyConstraintError Unit :=
  match patterns.find? (isGlobalWildcardDomainPattern tools) with
  | some pattern => .error (.invalidValue fieldName (trim pattern)
      "exact hosts or scoped wildcards like *.example.com or **.example.com")
  | none => .ok ()

variable (config : NetworkProxyConfig) (constraints : NetworkProxyConstraints)

def validateMode : Except NetworkProxyConstraintError Unit :=
  match constraints.mode with
  | some maxMode =>
    if networkModeRank config.mode > networkModeRank maxMode then
      .error (.invalidValue "network.mode" config.mode.debug (maxMode.debug ++ " or more restrictive"))
    else .ok ()
  | none => .ok ()

/-- The configured patterns that no managed pattern allows. -/
def disallowedEntries (managed candidates : List String) : List String :=
  candidates.filter fun candidate => !(managed.map (DomainPattern.parseForConstraints tools)).any
    fun pattern => pattern.allows (DomainPattern.parseForConstraints tools candidate)

/-- The part of `validate_policy_against_constraints` for allowed domains. -/
def validateAllowedDomains : Except NetworkProxyConstraintError Unit :=
  match constraints.allowedDomains with
  | none => .ok ()
  | some managed => do
      let candidates := config.allowedDomains.getD []
      let overrides := lowercaseSet (config.deniedDomains.getD [])
      validateNonGlobalWildcardDomainPatterns tools "network.allowed_domains" managed
      match constraints.allowlistExpansionEnabled with
      | some true =>
        let missing := (lowercaseSet managed).filter fun entry =>
          entry ∉ lowercaseSet candidates && entry ∉ overrides
        if missing.isEmpty then .ok ()
        else .error (.invalidValue "network.allowed_domains"
          "missing managed allowed_domains entries" (tools.debugList missing))
      | some false =>
        let expected := (lowercaseSet managed).filter (· ∉ overrides)
        if sameSet (lowercaseSet candidates) expected then .ok ()
        else .error (.invalidValue "network.allowed_domains" (tools.debugList candidates)
          "must match managed allowed_domains")
      | none =>
        let invalid := disallowedEntries tools managed candidates
        if invalid.isEmpty then .ok ()
        else .error (.invalidValue "network.allowed_domains" (tools.debugList invalid)
          "subset of managed allowed_domains")

/-- The part of `validate_policy_against_constraints` for denied domains. -/
def validateDeniedDomains : Except NetworkProxyConstraintError Unit :=
  match constraints.deniedDomains with
  | none => .ok ()
  | some managed => do
      let candidates := config.deniedDomains.getD []
      validateNonGlobalWildcardDomainPatterns tools "network.denied_domains" managed
      match constraints.denylistExpansionEnabled with
      | some false =>
        if sameSet (lowercaseSet candidates) (lowercaseSet managed) then .ok ()
        else .error (.invalidValue "network.denied_domains" (tools.debugList candidates)
          "must match managed denied_domains")
      | _ =>
        let missing := (lowercaseSet managed).filter (· ∉ lowercaseSet candidates)
        if missing.isEmpty then .ok ()
        else .error (.invalidValue "network.denied_domains"
          "missing managed denied_domains entries" (tools.debugList missing))

def validateUnixSockets : Except NetworkProxyConstraintError Unit :=
  match constraints.allowUnixSockets with
  | none => .ok ()
  | some managed =>
    let invalid := config.allowUnixSockets.filter fun entry =>
      toAsciiLowercase entry ∉ lowercaseSet managed
    if invalid.isEmpty then .ok ()
    else .error (.invalidValue "network.allow_unix_sockets" (tools.debugList invalid)
      "subset of managed allow_unix_sockets")

/-- `validate_policy_against_constraints`. -/
def validatePolicyAgainstConstraints : Except NetworkProxyConstraintError Unit := do
  match checks.mitmHooks config with
  | .error message =>
    .error (.invalidValue "network.mitm_hooks" message "valid MITM hook configuration")
  | .ok () => .ok ()
  validateNonGlobalWildcardDomainPatterns tools "network.denied_domains" (config.deniedDomains.getD [])
  validateFlag "network.enabled" config.enabled (constraints.enabled.getD true)
  validateMode config constraints
  validateFlag "network.allow_upstream_proxy" config.allowUpstreamProxy
    (constraints.allowUpstreamProxy.getD true)
  validateFlag "network.dangerously_allow_non_loopback_proxy" config.dangerouslyAllowNonLoopbackProxy
    (constraints.dangerouslyAllowNonLoopbackProxy.getD true)
  validateFlag "network.dangerously_allow_all_unix_sockets" config.dangerouslyAllowAllUnixSockets
    (constraints.dangerouslyAllowAllUnixSockets.getD constraints.allowUnixSockets.isNone)
  validateFlag "network.allow_local_binding" config.allowLocalBinding
    (constraints.allowLocalBinding.getD true)
  validateAllowedDomains tools config constraints
  validateDeniedDomains tools config constraints
  validateUnixSockets tools config constraints

/-! ### The state of the proxy -/

/-- The state behind the lock. What is known of a blocked request is left open. -/
structure ConfigState (Request : Type) where
  config : NetworkProxyConfig
  brokerageCreatedDefaultAllowlist : Bool := false
  allowSet : List String
  denySet : List String
  constraints : NetworkProxyConstraints
  blocked : List Request := []
  blockedTotal : Nat := 0
deriving DecidableEq

/-- The broker is off where the proxy is managed to be off. -/
def permittedBroker :
    NetworkProxyConfig :=
  if constraints.enabled = some false then { config with credentialBroker := false } else config

/-- The broker switches the proxy on. -/
def createsProxy : Bool :=
  config.credentialBroker && !config.enabled

def switchedOn : NetworkProxyConfig :=
  if createsProxy config then { config with enabled := true } else config

theorem domains_permittedBroker : (permittedBroker config constraints).domains = config.domains := by
  unfold permittedBroker
  split <;> rfl

theorem domains_switchedOn : (switchedOn config).domains = config.domains := by
  unfold switchedOn
  split <;> rfl

/-- The configuration that `build_config_state` works with, and whether it opens the proxy for
every host: a broker that switches the proxy on does, unless domains are configured or
managed. -/
def brokeredConfig : NetworkProxyConfig × Bool :=
  let config := permittedBroker config constraints
  let createdDefaultAllowlist := createsProxy config &&
    config.allowedDomains.isNone && constraints.allowedDomains.isNone
  let config := switchedOn config
  (if createdDefaultAllowlist then config.setAllowedDomains ["*"] else config, createdDefaultAllowlist)

/-- `build_config_state`. -/
def buildConfigState (Request : Type) (config : NetworkProxyConfig)
    (constraints : NetworkProxyConstraints) : Except String (ConfigState Request) := do
  let (config, brokerageCreatedDefaultAllowlist) := brokeredConfig config constraints
  checks.unixSocketPaths config
  if config.credentialBroker && !config.mitm then
    .error "network.credential_broker requires network.mitm = true"
  let allowedDomains := config.allowedDomains.getD []
  let deniedDomains := config.deniedDomains.getD []
  match validateNonGlobalWildcardDomainPatterns tools "network.denied_domains" deniedDomains with
  | .error (.invalidValue fieldName candidate allowed) =>
    .error ("invalid value for " ++ fieldName ++ ": " ++ candidate ++ " (allowed " ++ allowed ++ ")")
  | .ok () => .ok ()
  let denySet ← compileDenylistGlobset tools deniedDomains
  let allowSet ← compileAllowlistGlobset tools allowedDomains
  checks.mitmState config
  return { config, brokerageCreatedDefaultAllowlist, allowSet, denySet, constraints }

variable {tools checks}

/-- The state that is built holds the compiled lists and no blocked requests. -/
theorem buildConfigState_ok {Request : Type} {config : NetworkProxyConfig}
    {constraints : NetworkProxyConstraints} {state : ConfigState Request}
    (built : buildConfigState tools checks Request config constraints = .ok state) :
    state.config = (brokeredConfig config constraints).1 ∧ state.constraints = constraints ∧
      compileDenylistGlobset tools (state.config.deniedDomains.getD []) = .ok state.denySet ∧
      compileAllowlistGlobset tools (state.config.allowedDomains.getD []) = .ok state.allowSet ∧
      state.blocked = [] ∧ state.blockedTotal = 0 := by
  unfold buildConfigState at built
  generalize brokeredConfig config constraints = brokered at built ⊢
  obtain ⟨_, _⟩ := brokered
  simp only [bind, Except.bind, pure, Except.pure] at built
  split at built
  · cases built
  · split at built
    · cases built
    · split at built
      · cases built
      · split at built
        · cases built
        · rename_i compiledDeny
          split at built
          · cases built
          · rename_i compiledAllow
            split at built
            · cases built
            · cases built
              exact ⟨rfl, rfl, compiledDeny, compiledAllow, rfl, rfl⟩

end WeaveCodex.NetworkProxy
