/-
Purpose: Patterns for hosts: how they are normalised, expanded to globs and compiled, and
  how a managed pattern is compared with a configured one.
Trusted boundary: translation of the second half of `network-proxy/src/policy.rs`; globs, and
  the parsing of hosts for constraints, are parameters
-/
import WeaveCodex.NetworkProxy.Hosts

namespace WeaveCodex.NetworkProxy

open ApplyPatch

/-- What the proxy takes from the standard library and from other crates. -/
structure NetworkTools where
  /-- `text.parse::<IpAddr>()`. -/
  parseIp : String → Option IpAddr
  /-- `url::Host::parse(text)`, written back. -/
  urlHost : String → Option String
  /-- The glob can be built. -/
  globBuilds : String → Bool
  /-- The glob, built without regard to case, matches a text. -/
  globMatches : String → String → Bool
  /-- The addresses found for a host and port, unless the lookup fails or takes too long. -/
  lookupHost : String → Nat → Option (List IpAddr)
  /-- A list of texts as `Debug` writes it. -/
  debugList : List String → String

variable (tools : NetworkTools)

/-- `normalize_pattern`. -/
def normalizePattern (pattern : String) : String :=
  let pattern := trim pattern
  if pattern = "*" then "*"
  else
    match stripLeading "**." pattern with
    | some domain => "**." ++ normalizeHost tools.parseIp domain
    | none =>
      match stripLeading "*." pattern with
      | some domain => "*." ++ normalizeHost tools.parseIp domain
      | none => normalizeHost tools.parseIp pattern

inductive DomainPattern where
  | apexAndSubdomains (domain : String)
  | subdomainsOnly (domain : String)
  | exact (domain : String)
deriving DecidableEq, Repr

/-- `normalize_domain`. -/
def normalizeDomain (domain : String) : String :=
  toAsciiLowercase (trimEndDots domain)

def domainEq (left right : String) : Bool :=
  normalizeDomain left = normalizeDomain right

/-- `child.ends_with(&format!(".{parent}"))` for normalised names. -/
def endsWithDomain (child parent : String) : Bool :=
  ('.' :: parent.toList).isSuffixOf child.toList

def isSubdomainOrEqual (child parent : String) : Bool :=
  let child := normalizeDomain child
  let parent := normalizeDomain parent
  child = parent || endsWithDomain child parent

def isStrictSubdomain (child parent : String) : Bool :=
  let child := normalizeDomain child
  let parent := normalizeDomain parent
  child ≠ parent && endsWithDomain child parent

/-- `parse_domain_for_constraints`: a name that does not parse becomes the empty name. -/
def parseDomainForConstraints (domain : String) : String :=
  let domain := trimEndDots (trim domain)
  if domain.isEmpty then ""
  else
    let host :=
      if domain.toList.head? = some '[' && domain.toList.getLast? = some ']' then
        String.ofList domain.toList.tail.dropLast
      else domain
    if '*' ∈ host.toList || '?' ∈ host.toList || '%' ∈ host.toList then domain
    else (tools.urlHost host).getD ""

namespace DomainPattern

/-- `parse_domain`. -/
def parseDomain (domain : String) (build : String → DomainPattern) : DomainPattern :=
  let domain := trim domain
  if domain.isEmpty then .exact "" else build domain

def parse (input : String) : DomainPattern :=
  let input := trim input
  if input.isEmpty then .exact ""
  else
    match stripLeading "**." input with
    | some domain => parseDomain domain .apexAndSubdomains
    | none =>
      match stripLeading "*." input with
      | some domain => parseDomain domain .subdomainsOnly
      | none => .exact input

/-- `parse_for_constraints`. -/
def parseForConstraints (input : String) : DomainPattern :=
  let input := trim input
  if input.isEmpty then .exact ""
  else
    match stripLeading "**." input with
    | some domain => .apexAndSubdomains (parseDomainForConstraints tools domain)
    | none =>
      match stripLeading "*." input with
      | some domain => .subdomainsOnly (parseDomainForConstraints tools domain)
      | none => .exact (parseDomainForConstraints tools input)

def allows : DomainPattern → DomainPattern → Bool
  | .exact domain, .exact candidate => domainEq candidate domain
  | .exact _, _ => false
  | .subdomainsOnly domain, .exact candidate => isStrictSubdomain candidate domain
  | .subdomainsOnly domain, .subdomainsOnly candidate => isSubdomainOrEqual candidate domain
  | .subdomainsOnly domain, .apexAndSubdomains candidate => isStrictSubdomain candidate domain
  | .apexAndSubdomains domain, .exact candidate
  | .apexAndSubdomains domain, .subdomainsOnly candidate
  | .apexAndSubdomains domain, .apexAndSubdomains candidate => isSubdomainOrEqual candidate domain

end DomainPattern

/-- `expand_domain_pattern`. -/
def expandDomainPattern (pattern : String) : List String :=
  match DomainPattern.parse pattern with
  | .exact domain => [domain]
  | .subdomainsOnly domain => ["?*." ++ domain]
  | .apexAndSubdomains domain => [domain, "?*." ++ domain]

/-- `is_global_wildcard_domain_pattern`. -/
def isGlobalWildcardDomainPattern (pattern : String) : Bool :=
  (expandDomainPattern (normalizePattern tools pattern)).any (· = "*")

inductive GlobalWildcard where
  | allow | reject
deriving DecidableEq, Repr

/-- One pattern of `compile_globset_with_policy`: its globs join those seen before. -/
def compilePattern (globalWildcard : GlobalWildcard) (globs : List String) (pattern : String) :
    Except String (List String) :=
  if globalWildcard = .reject && isGlobalWildcardDomainPattern tools pattern then
    .error ("unsupported global wildcard domain pattern \"*\"; use exact hosts or scoped " ++
      "wildcards like *.example.com or **.example.com")
  else
    (expandDomainPattern (normalizePattern tools pattern)).foldlM (fun globs candidate =>
        if candidate ∈ globs then .ok globs
        else if tools.globBuilds candidate then .ok (globs ++ [candidate])
        else .error ("invalid glob pattern: " ++ candidate))
      globs

variable (patterns : List String)

/-- `compile_globset_with_policy`. -/
def compileGlobsetWithPolicy (globalWildcard : GlobalWildcard) : Except String (List String) :=
  patterns.foldlM (compilePattern tools globalWildcard) []

def compileAllowlistGlobset : Except String (List String) :=
  compileGlobsetWithPolicy tools patterns .allow

def compileDenylistGlobset : Except String (List String) :=
  compileGlobsetWithPolicy tools patterns .reject

/-- `set.is_match(host)`. -/
def globsetIsMatch (globs : List String) (host : String) : Bool :=
  globs.any fun glob => tools.globMatches glob host

/-- `globset_matches_host_or_unscoped`. -/
def globsetMatchesHostOrUnscoped (globs : List String) (host : String) : Bool :=
  globsetIsMatch tools globs host ||
    ((unscopedIpLiteral tools.parseIp host).map (globsetIsMatch tools globs)).getD false

end WeaveCodex.NetworkProxy
