/-
Purpose: What managed domains guarantee once a configuration has passed its check. Managed
  denials always hold; the managed allow list holds exactly if no pattern is let through by a
  comparison of names that the parsing of hosts has changed.
Trusted boundary: globs match as `GlobLaws` says
-/
import WeaveCodex.NetworkProxy.Proofs.DomainNames
import WeaveCodex.NetworkProxy.Runtime
import WeaveCodex.Library.Fallible

namespace WeaveCodex.NetworkProxy

open ApplyPatch DomainPattern NetworkProxyConfig List Except Char
open String (toList_inj toList_ofList)

/-! ### Hosts and globs -/

/-- A host of letters, digits, hyphens and dots without empty labels, dots at the end
apart. -/
def DnsHost (host : String) : Prop :=
  PlainName host ∧ WellFormed (nameChars host)

/-- The globs of a pattern match a host. -/
def patternMatches (tools : NetworkTools) (pattern host : String) : Bool :=
  globsetIsMatch tools (expandDomainPattern (normalizePattern tools pattern))
    (normalizeHost tools.parseIp host)

/-- How the globs of plain patterns match: a name matches itself, and `?*.` in front of a name
matches what ends in a dot and the name, with something before; case does not matter. -/
structure GlobLaws (tools : NetworkTools) : Prop where
  literal : ∀ name host, PlainName name → PlainName host → (tools.globMatches name host = true ↔
      host.toList.map toLower = name.toList.map toLower)
  below : ∀ name host, PlainName name → PlainName host →
    (tools.globMatches ("?*." ++ name) host = true ↔
      Below (host.toList.map toLower) (name.toList.map toLower))

variable {host candidate : String} {globs result patterns managed : List String}
  {policy : GlobalWildcard} {config : NetworkProxyConfig}

theorem DnsHost.normal (dns : DnsHost host) : NormalHost (nameChars host) :=
  ⟨dns.2, isNameChar_nameChars dns.1, map_toLower_nameChars host⟩

theorem NormalHost.nameChars_ofList {host : List Char} (normal : NormalHost host) :
    nameChars (String.ofList host) = host := by
  rw [nameChars, toList_ofList, normal.lower, rdropWhile_eq_self_iff]
  intro nonempty isDot
  apply normal.wellFormed.ends
  rw [getLast?_eq_some_getLast nonempty, of_decide_eq_true isDot]

theorem NormalHost.dns {host : List Char} (normal : NormalHost host) :
    DnsHost (String.ofList host) := by
  constructor
  · exact plainName_ofList.mpr normal.plain
  · rw [normal.nameChars_ofList]
    exact normal.wellFormed

variable {tools : NetworkTools}

/-- A plain pattern matches the hosts that it names. -/
theorem patternMatches_iff (laws : GlobLaws tools) (wildcard : Wildcard) {name : String}
    (plain : PlainName name) (dns : DnsHost host) :
    patternMatches tools (wildcard.lead ++ name) host = true ↔
      Names wildcard (nameChars name) (nameChars host) := by
  have plainChars := isNameChar_nameChars plain
  have plainText := plainName_ofList.mpr plainChars
  have plainHost : PlainName (String.ofList (nameChars host)) := dns.normal.dns.1
  have literal := laws.literal _ _ plainText plainHost
  have below := laws.below _ _ plainText plainHost
  simp only [toList_ofList, map_toLower_nameChars] at literal below
  have noHost : ¬ Below (nameChars host) [] := by
    rintro ⟨_, _, whole⟩
    apply dns.2.ends
    rw [whole]
    simp
  have emptyLiteral : tools.globMatches "" (String.ofList (nameChars host)) ≠ true := by
    intro isMatch
    have same := (laws.literal "" _ (by simp [PlainName]) plainHost).mp isMatch
    rw [toList_ofList, map_toLower_nameChars] at same
    exact dns.2.nonempty same
  unfold patternMatches globsetIsMatch expandDomainPattern
  rw [normalizePattern_plain tools wildcard plain, parse_plain wildcard plainChars,
    normalizeHost_plain tools.parseIp dns.1]
  by_cases empty : nameChars name = []
  · cases wildcard <;>
      simp [patternOf, Names, empty, emptyLiteral, noHost, dns.2.nonempty]
  · cases wildcard <;> simp [patternOf, Names, empty, literal, below]

/-! ### Comparing patterns -/

theorem isSubdomainOrEqual_iff (child parent : String) : isSubdomainOrEqual child parent = true ↔
    nameChars child = nameChars parent ∨ '.' :: nameChars parent <:+ nameChars child := by
  unfold isSubdomainOrEqual endsWithDomain
  simp only [normalizeDomain_eq, toList_ofList, Bool.or_eq_true, decide_eq_true_eq,
    isSuffixOf_iff_suffix]
  rw [← toList_inj, toList_ofList, toList_ofList]

theorem isStrictSubdomain_iff (child parent : String) : isStrictSubdomain child parent = true ↔
    nameChars child ≠ nameChars parent ∧ '.' :: nameChars parent <:+ nameChars child := by
  unfold isStrictSubdomain endsWithDomain
  simp only [normalizeDomain_eq, toList_ofList, Bool.and_eq_true, decide_eq_true_eq,
    isSuffixOf_iff_suffix, ne_eq]
  rw [← toList_inj, toList_ofList, toList_ofList]

/-- Comparing patterns as they are written is comparing their names. -/
theorem allows_patternOf (managed candidate : Wildcard) (managedName name : String)
    (wellFormed : WellFormed (nameChars name)) :
    (patternOf managed (nameChars managedName)).allows (patternOf candidate (nameChars name)) = true ↔
      Covers managed (nameChars managedName) candidate (nameChars name) := by
  have equal : domainEq (String.ofList (nameChars name)) (String.ofList (nameChars managedName)) =
      true ↔ nameChars name = nameChars managedName := by
    unfold domainEq
    rw [decide_eq_true_eq, normalizeDomain_eq, normalizeDomain_eq, ← toList_inj,
      toList_ofList, toList_ofList, nameChars_ofList, nameChars_ofList]
  have weak := isSubdomainOrEqual_iff (String.ofList (nameChars name))
    (String.ofList (nameChars managedName))
  have strict := isStrictSubdomain_iff (String.ofList (nameChars name))
    (String.ofList (nameChars managedName))
  rw [nameChars_ofList, nameChars_ofList] at weak strict
  have noEnd : ¬ ['.'] <:+ nameChars name := by
    rintro ⟨_, whole⟩
    apply wellFormed.ends
    rw [← whole]
    simp
  have emptyEq : domainEq (String.ofList (nameChars name)) "" = false := by
    rw [← Bool.not_eq_true, domainEq, decide_eq_true_eq, normalizeDomain_eq, nameChars_ofList,
      ← toList_inj, toList_ofList]
    exact wellFormed.nonempty
  -- A pattern without a name is the empty text, and no other pattern is.
  by_cases empty : nameChars managedName = []
  · cases managed <;> cases candidate <;>
      simp [patternOf, allows, Covers, empty, emptyEq, noEnd, wellFormed.nonempty]
  · cases managed <;> cases candidate <;>
      simp [patternOf, allows, Covers, empty, wellFormed.nonempty, equal, weak, strict]

/-! ### Compiled lists -/

/-- A glob set that is built has every candidate. -/
theorem mem_of_foldlM_candidates {candidates : List String}
    (compiled : candidates.foldlM (fun globs candidate =>
        if candidate ∈ globs then .ok globs
        else if tools.globBuilds candidate then .ok (globs ++ [candidate])
        else .error ("invalid glob pattern: " ++ candidate)) globs =
      (.ok result : Except String (List String))) (glob : String) :
    glob ∈ result ↔ glob ∈ globs ∨ glob ∈ candidates := by
  induction candidates generalizing globs with
  | nil =>
    cases compiled
    simp
  | cons candidate _ induction =>
    rw [foldlM_cons] at compiled
    by_cases seen : candidate ∈ globs
    · rw [if_pos seen] at compiled
      rw [induction compiled, mem_cons, ← or_assoc, or_iff_left_of_imp (b := glob = candidate)]
      rintro rfl
      exact seen
    · rw [if_neg seen] at compiled
      by_cases builds : tools.globBuilds candidate = true
      · rw [if_pos builds] at compiled
        rw [induction compiled, mem_append, mem_singleton, mem_cons, or_assoc]
      · rw [if_neg builds] at compiled
        cases compiled

theorem mem_of_compilePatterns
    (compiled : patterns.foldlM (compilePattern tools policy) globs = .ok result) (glob : String) :
    glob ∈ result ↔ glob ∈ globs ∨
      ∃ pattern ∈ patterns, glob ∈ expandDomainPattern (normalizePattern tools pattern) := by
  induction patterns generalizing globs with
  | nil =>
    cases compiled
    simp
  | cons pattern _ induction =>
    rw [foldlM_cons] at compiled
    obtain ⟨globs', one, compiled⟩ := bind_eq_ok_iff.mp compiled
    have added : glob ∈ globs' ↔ glob ∈ globs ∨
        glob ∈ expandDomainPattern (normalizePattern tools pattern) := by
      unfold compilePattern at one
      split at one
      · cases one
      · exact mem_of_foldlM_candidates one glob
    rw [induction compiled, added]
    simp [or_assoc]

/-- A compiled list matches what one of its patterns matches. -/
theorem compileGlobset_isMatch
    (compiled : compileGlobsetWithPolicy tools patterns policy = .ok globs) (host : String) :
    globsetIsMatch tools globs (normalizeHost tools.parseIp host) = true ↔
      ∃ pattern ∈ patterns, patternMatches tools pattern host = true := by
  have members := mem_of_compilePatterns compiled
  unfold patternMatches globsetIsMatch
  simp only [any_eq_true, members, not_mem_nil, false_or]
  constructor
  · rintro ⟨glob, ⟨pattern, listed, expanded⟩, matched⟩
    exact ⟨pattern, listed, glob, expanded, matched⟩
  · rintro ⟨pattern, listed, glob, expanded, matched⟩
    exact ⟨glob, ⟨pattern, listed, expanded⟩, matched⟩

/-! ### The configuration in force -/

variable {pattern : String}

/-- Merging an entry keeps every denied pattern. -/
theorem mem_mergeEntry_deny {found : List NetworkDomainPermissionEntry}
    {entry : NetworkDomainPermissionEntry} :
    ⟨pattern, .deny⟩ ∈ mergeEntry found entry ↔
      ⟨pattern, .deny⟩ ∈ found ∨ entry = ⟨pattern, .deny⟩ := by
  unfold mergeEntry
  split
  · rename_i known
    rw [mem_map]
    constructor
    · rintro ⟨_, mem, merged⟩
      split at merged
      · exact .inr merged
      · exact .inl (merged ▸ mem)
    · rintro (mem | rfl)
      · refine ⟨_, mem, if_neg ?_⟩
        rintro ⟨_, stronger⟩
        cases permission : entry.permission with
        | _ => simp [permission, NetworkDomainPermission.rank] at stronger
      · obtain ⟨earlier, mem, samePattern⟩ := any_eq_true.mp known
        refine ⟨earlier, mem, ?_⟩
        split
        · rfl
        · rename_i notWeaker
          obtain ⟨_, permission⟩ := earlier
          cases of_decide_eq_true samePattern
          cases permission with
          | none => exact absurd ⟨rfl, Nat.zero_lt_two⟩ notWeaker
          | allow => exact absurd ⟨rfl, Nat.one_lt_two⟩ notWeaker
          | deny => rfl
  · rw [mem_append, mem_singleton, eq_comm (a := entry)]

theorem mem_effectiveEntries_deny {entries : List NetworkDomainPermissionEntry} :
    ⟨pattern, .deny⟩ ∈ effectiveEntries entries ↔ ⟨pattern, .deny⟩ ∈ entries := by
  have merged : ∀ found, ⟨pattern, .deny⟩ ∈ entries.foldl mergeEntry found ↔
      ⟨pattern, .deny⟩ ∈ found ∨ ⟨pattern, .deny⟩ ∈ entries := by
    induction entries with
    | nil => simp
    | cons entry _ induction =>
      intro found
      rw [foldl_cons, induction, mem_mergeEntry_deny, mem_cons, or_assoc, eq_comm (a := entry)]
  rw [effectiveEntries, merged]
  simp

theorem mem_deniedDomains :
    pattern ∈ config.deniedDomains.getD [] ↔ ⟨pattern, .deny⟩ ∈ config.domains.getD [] := by
  unfold deniedDomains domainEntries
  cases config.domains with
  | none => simp
  | some domains =>
    have listed : pattern ∈ ((effectiveEntries domains).filter (·.permission = .deny)).map
        (·.pattern) ↔ ⟨pattern, .deny⟩ ∈ domains := by
      rw [← mem_effectiveEntries_deny, mem_map]
      constructor
      · rintro ⟨⟨_, _⟩, mem, rfl⟩
        obtain ⟨inside, denies⟩ := mem_filter.mp mem
        cases of_decide_eq_true denies
        exact inside
      · intro mem
        exact ⟨_, mem_filter.mpr ⟨mem, by simp⟩, rfl⟩
    rw [Option.map_some, Option.getD_some, ← listed]
    cases (((effectiveEntries domains).filter (·.permission = .deny)).map (·.pattern)) with
    | nil | cons => rfl

theorem denied_of_setAllowedDomains (denied : pattern ∈ config.deniedDomains.getD []) :
    pattern ∈ (config.setAllowedDomains ["*"]).deniedDomains.getD [] := by
  rw [mem_deniedDomains] at denied ⊢
  have kept : (⟨pattern, .deny⟩ : NetworkDomainPermissionEntry) ∈
      (config.domains.getD []).filter (·.permission ≠ .allow) :=
    mem_filter.mpr ⟨denied, by simp⟩
  unfold setAllowedDomains setDomainEntries
  simp only [foldl_cons, foldl_nil]
  have inside : ∀ domains : List NetworkDomainPermissionEntry, ⟨pattern, .deny⟩ ∈ domains →
      ⟨pattern, .deny⟩ ∈ (if domains.isEmpty then none else some domains).getD [] := by
    intro domains mem
    cases domains with
    | nil => cases mem
    | cons => exact mem
  apply inside
  split
  · exact kept
  · exact mem_append_left _ kept

/-- A broker that opens the proxy leaves the denied domains. -/
theorem denied_of_brokered (constraints : NetworkProxyConstraints)
    (denied : pattern ∈ config.deniedDomains.getD []) :
    pattern ∈ (brokeredConfig config constraints).1.deniedDomains.getD [] := by
  have switched : pattern ∈
      (switchedOn (permittedBroker config constraints)).deniedDomains.getD [] := by
    rw [mem_deniedDomains] at denied ⊢
    rwa [domains_switchedOn, domains_permittedBroker]
  unfold brokeredConfig
  simp only
  split
  · exact denied_of_setAllowedDomains switched
  · exact switched

theorem allowedDomains_brokered {constraints : NetworkProxyConstraints}
    (isManaged : constraints.allowedDomains = some managed) :
    (brokeredConfig config constraints).1.allowedDomains = config.allowedDomains := by
  unfold brokeredConfig
  simp only [isManaged, Option.isNone_some, Bool.and_false, Bool.false_eq_true, if_false]
  unfold allowedDomains domainEntries
  rw [domains_switchedOn, domains_permittedBroker]

/-! ### The check -/

variable {checks : ConfigChecks} {constraints : NetworkProxyConstraints}

theorem validated_domains
    (validated : validatePolicyAgainstConstraints tools checks config constraints = .ok ()) :
    validateAllowedDomains tools config constraints = .ok () ∧
      validateDeniedDomains tools config constraints = .ok () := by
  unfold validatePolicyAgainstConstraints at validated
  simp only [bind, Except.bind] at validated
  repeat' split at validated
  all_goals first
    | contradiction
    | exact ⟨by assumption, by assumption⟩

theorem mem_lowercaseSet {entries : List String} {entry : String} :
    entry ∈ lowercaseSet entries ↔ ∃ original ∈ entries, toAsciiLowercase original = entry := by
  rw [lowercaseSet, mem_eraseDups, mem_map]

/-- Every managed denied pattern is configured, up to case. -/
theorem denied_of_validated (isManaged : constraints.deniedDomains = some managed)
    (validated : validateDeniedDomains tools config constraints = .ok ())
    (listed : pattern ∈ managed) :
    ∃ configured ∈ config.deniedDomains.getD [],
      toAsciiLowercase configured = toAsciiLowercase pattern := by
  rw [← mem_lowercaseSet]
  have required : toAsciiLowercase pattern ∈ lowercaseSet managed :=
    mem_lowercaseSet.mpr ⟨pattern, listed, rfl⟩
  unfold validateDeniedDomains at validated
  rw [isManaged] at validated
  simp only [bind, Except.bind] at validated
  split at validated
  · cases validated
  · split at validated
    · split at validated
      · rename_i same
        rw [sameSet, Bool.and_eq_true] at same
        simpa using all_eq_true.mp same.2 _ required
      · cases validated
    · split at validated
      · rename_i missing
        simpa using filter_eq_nil_iff.mp (isEmpty_iff.mp missing) _ required
      · cases validated

/-- Every configured allowed pattern is a managed one, up to case, or a managed pattern allows
it. -/
theorem allowed_of_validated (isManaged : constraints.allowedDomains = some managed)
    (fixed : constraints.allowlistExpansionEnabled ≠ some true)
    (validated : validateAllowedDomains tools config constraints = .ok ())
    (listed : candidate ∈ config.allowedDomains.getD []) :
    (∃ pattern ∈ managed, toAsciiLowercase pattern = toAsciiLowercase candidate) ∨
      ∃ pattern ∈ managed, (parseForConstraints tools pattern).allows
        (parseForConstraints tools candidate) = true := by
  unfold validateAllowedDomains at validated
  rw [isManaged] at validated
  simp only [bind, Except.bind] at validated
  split at validated
  · cases validated
  · split at validated
    · contradiction
    · split at validated
      · rename_i same
        left
        rw [sameSet, Bool.and_eq_true] at same
        have inSet : toAsciiLowercase candidate ∈ lowercaseSet (config.allowedDomains.getD []) :=
          mem_lowercaseSet.mpr ⟨candidate, listed, rfl⟩
        have expected := of_decide_eq_true (all_eq_true.mp same.1 _ inSet)
        exact mem_lowercaseSet.mp (mem_filter.mp expected).1
      · cases validated
    · split at validated
      · rename_i valid
        right
        simpa using filter_eq_nil_iff.mp (isEmpty_iff.mp valid) candidate listed
      · cases validated

/-! ### What managed domains guarantee -/

theorem patternMatches_of_lowercase {first second : String} (firstPlain : PlainPattern first)
    (secondPlain : PlainPattern second)
    (same : toAsciiLowercase first = toAsciiLowercase second) (host : String) :
    patternMatches tools first host = patternMatches tools second host := by
  unfold patternMatches
  rw [← normalizePattern_lowercase tools firstPlain, same, normalizePattern_lowercase tools secondPlain]

theorem hostParse_ok {parsed : String} (isParsed : hostParse tools.parseIp host = .ok parsed) :
    parsed = normalizeHost tools.parseIp host := by
  unfold hostParse at isParsed
  generalize normalizeHost tools.parseIp host = normalized at isParsed ⊢
  simp only at isParsed
  split at isParsed
  · cases isParsed
  · exact (ok.inj isParsed).symm

/-- A host that is let through is not denied, and is allowed. -/
theorem hostBlocked_allowed {Request : Type} {state : ConfigState Request} {port : Nat}
    (dns : DnsHost host) (allowed : hostBlocked tools state host port = .allowed) :
    globsetIsMatch tools state.denySet (normalizeHost tools.parseIp host) = false ∧
      globsetIsMatch tools state.allowSet (normalizeHost tools.parseIp host) = true := by
  have unscoped : unscopedIpLiteral tools.parseIp (normalizeHost tools.parseIp host) = none := by
    have noScope : '%' ∉ (String.ofList (nameChars host)).toList := by
      rw [toList_ofList]
      intro percent
      exact (isNameChar_plain (isNameChar_nameChars dns.1 _ percent)).2.2.2.2 rfl
    unfold unscopedIpLiteral
    rw [normalizeHost_plain tools.parseIp dns.1, splitOnce_none "%" rfl noScope]
  unfold hostBlocked at allowed
  split at allowed
  · cases allowed
  · rename_i isParsed
    have isHost := hostParse_ok isParsed
    simp only [isHost, globsetMatchesHostOrUnscoped, unscoped, Option.map_none, Option.getD_none,
      Bool.or_false] at allowed
    split at allowed
    · cases allowed
    · rename_i undenied
      split at allowed
      · cases allowed
      · split at allowed
        · cases allowed
        · rename_i allowlisted
          rw [Bool.or_eq_true, not_or, Bool.not_eq_true', Bool.not_eq_false] at allowlisted
          exact ⟨Bool.eq_false_iff.mpr undenied, allowlisted.2⟩

/-- The domain that a pattern is about. -/
def DomainPattern.domain : DomainPattern → String
  | .apexAndSubdomains domain | .subdomainsOnly domain | .exact domain => domain

/-- No pattern without an empty label is let through by a comparison that fails for the names as
they are written. -/
def Vouched (tools : NetworkTools) (config : NetworkProxyConfig)
    (constraints : NetworkProxyConstraints) : Prop :=
  ∀ managed ∈ constraints.allowedDomains.getD [], ∀ candidate ∈ config.allowedDomains.getD [],
      (DomainPattern.parseForConstraints tools managed).allows
        (DomainPattern.parseForConstraints tools candidate) = true →
      WellFormed (DomainPattern.parse (normalizePattern tools candidate)).domain.toList →
      (DomainPattern.parse (normalizePattern tools managed)).allows
        (DomainPattern.parse (normalizePattern tools candidate)) = true

/-- What managed domains promise about the hosts that the proxy lets through. -/
structure ManagedDomainsHold {Request : Type} (tools : NetworkTools) (config : NetworkProxyConfig)
    (constraints : NetworkProxyConstraints) (state : ConfigState Request) : Prop where
  denied : ∀ managed, constraints.deniedDomains = some managed → ∀ pattern ∈ managed,
    ∀ host port, DnsHost host → patternMatches tools pattern host = true →
      hostBlocked tools state host port ≠ .allowed
  allowed : ∀ managed, constraints.allowedDomains = some managed →
    constraints.allowlistExpansionEnabled ≠ some true →
    ∀ host port, DnsHost host → hostBlocked tools state host port = .allowed →
      ∃ pattern ∈ managed, patternMatches tools pattern host = true
  contained : ∀ managed ∈ constraints.allowedDomains.getD [],
    ∀ candidate ∈ config.allowedDomains.getD [],
      (DomainPattern.parseForConstraints tools managed).allows
        (DomainPattern.parseForConstraints tools candidate) = true →
      ∀ host, DnsHost host → patternMatches tools candidate host = true →
        patternMatches tools managed host = true

theorem domain_patternOf (wildcard : Wildcard) (name : List Char) :
    (patternOf wildcard name).domain.toList = name := by
  cases wildcard with
  | exactly => exact toList_ofList
  | below | apexAndBelow => by_cases empty : name = [] <;> simp [patternOf, domain, empty]

/-- For names without an empty label, containment of hosts is the comparison as written. -/
theorem contained_iff_allows (laws : GlobLaws tools) {managed : String}
    (managedPlain : PlainPattern managed) (candidatePlain : PlainPattern candidate) :
    (∀ host, DnsHost host → patternMatches tools candidate host = true →
        patternMatches tools managed host = true) ↔
      (WellFormed (parse (normalizePattern tools candidate)).domain.toList →
        (parse (normalizePattern tools managed)).allows
          (parse (normalizePattern tools candidate)) = true) := by
  obtain ⟨managedWildcard, managedName, managedPlain, rfl⟩ := managedPlain
  obtain ⟨wildcard, name, plain, rfl⟩ := candidatePlain
  rw [normalizePattern_plain tools managedWildcard managedPlain,
    normalizePattern_plain tools wildcard plain,
    parse_plain managedWildcard (isNameChar_nameChars managedPlain),
    parse_plain wildcard (isNameChar_nameChars plain), domain_patternOf]
  constructor
  · intro contained wellFormed
    rw [allows_patternOf managedWildcard wildcard managedName name wellFormed]
    have normal : NormalHost (nameChars name) :=
      ⟨wellFormed, isNameChar_nameChars plain, map_toLower_nameChars name⟩
    apply covers_of_names normal
    intro host normalHost named
    have dns := normalHost.dns
    have matched := contained _ dns
    rw [patternMatches_iff laws wildcard plain dns,
      patternMatches_iff laws managedWildcard managedPlain dns,
      normalHost.nameChars_ofList] at matched
    exact matched named
  · intro allows host dns matched
    rw [patternMatches_iff laws wildcard plain dns] at matched
    rw [patternMatches_iff laws managedWildcard managedPlain dns]
    have wellFormed : WellFormed (nameChars name) := by
      cases wildcard with
      | exactly => exact (show nameChars host = nameChars name from matched) ▸ dns.2
      | below => exact dns.2.of_below matched
      | apexAndBelow =>
        rcases matched with same | below
        · exact same ▸ dns.2
        · exact dns.2.of_below below
    have covers := (allows_patternOf managedWildcard wildcard managedName name wellFormed).mp
      (allows wellFormed)
    exact names_of_covers covers dns.2 matched

/-- A configuration that passes the check keeps what managed domains promise, exactly if its
allowed patterns are vouched for. -/
theorem managedDomains_hold_iff {Request : Type} (tools : NetworkTools) (checks : ConfigChecks)
    (config : NetworkProxyConfig) (constraints : NetworkProxyConstraints)
    (state : ConfigState Request) (laws : GlobLaws tools)
    (configPlain : ∀ pattern ∈ config.allowedDomains.getD [] ++ config.deniedDomains.getD [],
      PlainPattern pattern)
    (managedPlain : ∀ pattern ∈ constraints.allowedDomains.getD [] ++
      constraints.deniedDomains.getD [], PlainPattern pattern)
    (validated : validatePolicyAgainstConstraints tools checks config constraints = .ok ())
    (built : buildConfigState tools checks Request config constraints = .ok state) :
    ManagedDomainsHold tools config constraints state ↔ Vouched tools config constraints := by
  obtain ⟨allowedValid, deniedValid⟩ := validated_domains validated
  obtain ⟨isConfig, _, compiledDeny, compiledAllow, _⟩ := buildConfigState_ok built
  have containedIff := fun managed (listed : managed ∈ constraints.allowedDomains.getD [])
      candidate (configured : candidate ∈ config.allowedDomains.getD []) =>
    contained_iff_allows laws (managedPlain managed (mem_append_left _ listed))
      (configPlain candidate (mem_append_left _ configured))
  constructor
  · intro holds managed listed candidate configured allows
    exact (containedIff managed listed candidate configured).mp
      (holds.contained managed listed candidate configured allows)
  · intro vouched
    have contained : ∀ managed ∈ constraints.allowedDomains.getD [],
        ∀ candidate ∈ config.allowedDomains.getD [], (parseForConstraints tools managed).allows
            (parseForConstraints tools candidate) = true →
          ∀ host, DnsHost host → patternMatches tools candidate host = true →
            patternMatches tools managed host = true := by
      intro managed listed candidate configured allows
      exact (containedIff managed listed candidate configured).mpr
        (vouched managed listed candidate configured allows)
    refine ⟨?_, ?_, contained⟩
    · intro managed isManaged pattern listed host port dns matched allowed
      obtain ⟨configured, inConfig, same⟩ := denied_of_validated isManaged deniedValid listed
      have undenied := (hostBlocked_allowed dns allowed).1
      have inForce : configured ∈ state.config.deniedDomains.getD [] := by
        rw [isConfig]
        exact denied_of_brokered constraints inConfig
      have configuredMatches : patternMatches tools configured host = true := by
        rw [patternMatches_of_lowercase (configPlain configured (mem_append_right _ inConfig))
          (managedPlain pattern (mem_append_right _ (by rw [isManaged]; exact listed))) same]
        exact matched
      have denied := (compileGlobset_isMatch compiledDeny host).mpr
        ⟨configured, inForce, configuredMatches⟩
      rw [undenied] at denied
      cases denied
    · intro managed isManaged fixed host port dns allowed
      have allowlisted := (hostBlocked_allowed dns allowed).2
      obtain ⟨candidate, inForce, matched⟩ :=
        (compileGlobset_isMatch compiledAllow host).mp allowlisted
      rw [isConfig, allowedDomains_brokered isManaged] at inForce
      have inManaged : ∀ pattern ∈ managed, pattern ∈ constraints.allowedDomains.getD [] := by
        rw [isManaged]
        exact fun pattern listed => listed
      rcases allowed_of_validated isManaged fixed allowedValid inForce with
        ⟨pattern, listed, same⟩ | ⟨pattern, listed, allows⟩
      · refine ⟨pattern, listed, ?_⟩
        rw [patternMatches_of_lowercase
          (managedPlain pattern (mem_append_left _ (inManaged pattern listed)))
          (configPlain candidate (mem_append_left _ inForce)) same]
        exact matched
      · exact ⟨pattern, listed, contained pattern (inManaged pattern listed) candidate inForce allows
          host dns matched⟩

/-- Tools for the hosts below: `foo.1` and `bar.1` end in a number without being addresses, so
they do not parse. -/
def dnsTools : NetworkTools where
  parseIp _ := none
  urlHost text := if text = "foo.1" ∨ text = "bar.1" then none else some (toAsciiLowercase text)
  globBuilds _ := true
  globMatches glob host :=
    match stripLeading "?*." glob with
    | some name =>
      let suffix := '.' :: name.toList.map toLower
      suffix.isSuffixOf (host.toList.map toLower) && suffix.length < host.toList.length
    | none => host.toList.map toLower = glob.toList.map toLower
  lookupHost _ _ := some []
  debugList _ := ""

theorem dnsTools_globLaws : GlobLaws dnsTools := by
  constructor
  · intro name host plain _
    have noMark : stripLeading "?*." name = none := by
      apply stripLeading_eq_none "?*." '?' rfl
      intro starts
      have named := plain _ (mem_of_mem_head? starts)
      exact absurd (isNameChar_iff.mp named) (by decide)
    simp only [dnsTools, noMark, decide_eq_true_eq]
  · intro name host _ _
    have marked : stripLeading "?*." ("?*." ++ name) = some name := stripLeading_eq_some.mpr rfl
    simp only [dnsTools, marked, Bool.and_eq_true, decide_eq_true_eq, isSuffixOf_iff_suffix,
      length_cons, length_map]
    constructor
    · rintro ⟨⟨front, whole⟩, _⟩
      refine ⟨front, ?_, whole.symm⟩
      rintro rfl
      have length := congrArg length whole
      simp only [nil_append, length_cons, length_map] at length
      omega
    · rintro ⟨front, nonempty, whole⟩
      refine ⟨⟨front, whole.symm⟩, ?_⟩
      have length := congrArg length whole
      simp only [length_append, length_cons, length_map] at length
      have positive := length_pos_of_ne_nil nonempty
      omega

/-- A configuration with one allowed and one denied pattern. -/
def exampleConfig : NetworkProxyConfig where
  domains := some [⟨"api.example.com", .allow⟩, ⟨"evil.example.org", .deny⟩]

def exampleConstraints : NetworkProxyConstraints where
  allowedDomains := some ["**.Example.com"]
  deniedDomains := some ["Evil.example.org"]

def exampleState : ConfigState Unit where
  config := exampleConfig
  allowSet := ["api.example.com"]
  denySet := ["evil.example.org"]
  constraints := exampleConstraints

/-- The allowed pattern lies within the managed one, and the managed denial is configured. -/
theorem exampleDomains_hold :
    ManagedDomainsHold dnsTools exampleConfig exampleConstraints exampleState := by
  have plain : ∀ wildcard : Wildcard, ∀ name : String,
      name.toList.all isNameChar = true → PlainPattern (wildcard.lead ++ name) :=
    fun wildcard name named => ⟨wildcard, name, all_eq_true.mp named, rfl⟩
  apply (managedDomains_hold_iff dnsTools .passing exampleConfig exampleConstraints exampleState
    dnsTools_globLaws ?_ ?_ (by decide +kernel) (by decide +kernel)).mpr
  · intro managed listed candidate configured _ _
    have isManaged : managed = "**.Example.com" := mem_singleton.mp listed
    have isCandidate : candidate = "api.example.com" := by
      have configuredOnly : exampleConfig.allowedDomains.getD [] = ["api.example.com"] := by
        decide +kernel
      rw [configuredOnly] at configured
      simpa using configured
    rw [isManaged, isCandidate]
    decide +kernel
  · have configured : exampleConfig.allowedDomains.getD [] ++ exampleConfig.deniedDomains.getD [] =
        ["api.example.com", "evil.example.org"] := by decide +kernel
    rw [configured, forall_mem_cons, forall_mem_singleton]
    exact ⟨plain .exactly "api.example.com" (by decide +kernel),
      plain .exactly "evil.example.org" (by decide +kernel)⟩
  · refine forall_mem_cons.mpr ⟨?_, forall_mem_singleton.mpr ?_⟩
    · exact plain .apexAndBelow "Example.com" (by decide +kernel)
    · exact plain .exactly "Evil.example.org" (by decide +kernel)

/-- Two names that do not parse are taken for the same: with `bar.1` managed, a configuration
that allows `foo.1` passes, and the host `foo.1` is let through. -/
theorem unparsedName_allowed :
    let config : NetworkProxyConfig :=
      { domains := some [⟨"foo.1", .allow⟩], allowLocalBinding := true }
    let constraints : NetworkProxyConstraints := { allowedDomains := some ["bar.1"] }
    let state : ConfigState Unit := { config, allowSet := ["foo.1"], denySet := [], constraints }
    validatePolicyAgainstConstraints dnsTools .passing config constraints = .ok () ∧
      buildConfigState dnsTools .passing Unit config constraints = .ok state ∧
      DnsHost "foo.1" ∧ hostBlocked dnsTools state "foo.1" 443 = .allowed ∧
      ∀ pattern ∈ ["bar.1"], patternMatches dnsTools pattern "foo.1" = false := by
  have plain : PlainName "foo.1" := all_eq_true.mp (by decide +kernel)
  have wellFormed : WellFormed (nameChars "foo.1") :=
    ⟨by decide +kernel, by decide +kernel, by decide +kernel, by decide +kernel⟩
  exact ⟨by decide +kernel, by decide +kernel, ⟨plain, wellFormed⟩, by decide +kernel,
    by decide +kernel⟩

end WeaveCodex.NetworkProxy
