/-
Purpose: Host names as the network proxy compares them: lower case, without port, brackets
  and trailing dots, with the addresses that do not lie in the public network.
Trusted boundary: translation of the first half of `network-proxy/src/policy.rs`; the standard
  library's reading of an address is a parameter
-/
import Mathlib.Data.List.DropRight
import WeaveCodex.ApplyPatch.TextFile

namespace WeaveCodex.NetworkProxy

open ApplyPatch

/-! ### Addresses -/

inductive IpAddr where
  | v4 (bits : BitVec 32)
  | v6 (bits : BitVec 128)
deriving DecidableEq, Repr

/-- The address with the given octets. -/
def ipv4Octets (first second third fourth : Nat) : BitVec 32 :=
  BitVec.ofNat 32 (((first * 256 + second) * 256 + third) * 256 + fourth)

/-- `ipv4_in_cidr`. -/
def ipv4InCidr (address base : BitVec 32) (bits : Nat) : Bool :=
  let mask : BitVec 32 := if bits = 0 then 0 else BitVec.allOnes 32 <<< (32 - bits)
  (address &&& mask) == (base &&& mask)

def ipv4IsLoopback (address : BitVec 32) : Bool :=
  ipv4InCidr address (ipv4Octets 127 0 0 0) 8

/-- `is_non_public_ipv4`. -/
def isNonPublicIpv4 (address : BitVec 32) : Bool :=
  ipv4IsLoopback address ||
    -- `is_private`
    (ipv4InCidr address (ipv4Octets 10 0 0 0) 8 || ipv4InCidr address (ipv4Octets 172 16 0 0) 12 ||
      ipv4InCidr address (ipv4Octets 192 168 0 0) 16) ||
    -- `is_link_local`, `is_unspecified`, `is_multicast`, `is_broadcast`
    ipv4InCidr address (ipv4Octets 169 254 0 0) 16 ||
    address == 0 ||
    ipv4InCidr address (ipv4Octets 224 0 0 0) 4 ||
    address == BitVec.allOnes 32 ||
    ipv4InCidr address (ipv4Octets 0 0 0 0) 8 ||
    ipv4InCidr address (ipv4Octets 100 64 0 0) 10 ||
    ipv4InCidr address (ipv4Octets 192 0 0 0) 24 ||
    ipv4InCidr address (ipv4Octets 192 0 2 0) 24 ||
    ipv4InCidr address (ipv4Octets 198 18 0 0) 15 ||
    ipv4InCidr address (ipv4Octets 198 51 100 0) 24 ||
    ipv4InCidr address (ipv4Octets 203 0 113 0) 24 ||
    ipv4InCidr address (ipv4Octets 240 0 0 0) 4

/-- `to_ipv4`: an address that is compatible with, or mapped from, one of the older kind. -/
def ipv6ToIpv4 (address : BitVec 128) : Option (BitVec 32) :=
  let upper := address >>> 32
  if upper == 0 || upper == 0xffff then some (address.truncate 32) else none

/-- `is_non_public_ipv6`. -/
def isNonPublicIpv6 (address : BitVec 128) : Bool :=
  match ipv6ToIpv4 address with
  | some old => isNonPublicIpv4 old || address == 1
  | none =>
    address == 1 || address == 0 ||
      -- `is_multicast`, `is_unique_local`, `is_unicast_link_local`
      address >>> 120 == 0xff || address >>> 121 == 0x7e || address >>> 118 == 0x3fa

def isNonPublicIp : IpAddr → Bool
  | .v4 address => isNonPublicIpv4 address
  | .v6 address => isNonPublicIpv6 address

def ipIsLoopback : IpAddr → Bool
  | .v4 address => ipv4IsLoopback address
  | .v6 address => address == 1

/-! ### Names -/

/-- `text.to_ascii_lowercase()`. -/
def toAsciiLowercase (text : String) : String :=
  String.ofList (text.toList.map Char.toLower)

/-- `text.trim_end_matches('.')`. -/
def trimEndDots (text : String) : String :=
  String.ofList (text.toList.rdropWhile (· = '.'))

section

-- `text.parse::<IpAddr>()`
variable (parseIp : String → Option IpAddr) (host : String)

/-- `normalize_ip_literal`: `%25` and `%` both stand before a scope. -/
def normalizeIpLiteral : Option String :=
  if (parseIp host).isSome then some host
  else
    ["%25", "%"].findSome? fun delimiter =>
      match splitOnce delimiter host with
      | some (address, scope) =>
        if (parseIp address).isSome then some (address ++ "%" ++ scope) else none
      | none => none

/-- `normalize_dns_host_or_ip_literal`. -/
def normalizeDnsHostOrIpLiteral : String :=
  let host := trimEndDots (toAsciiLowercase host)
  (normalizeIpLiteral parseIp host).getD host

/-- `normalize_host`: without brackets, and without a port if there is exactly one colon. -/
def normalizeHost : String :=
  let host := trim host
  match host.toList with
  | '[' :: inside =>
    if ']' ∈ inside then
      normalizeDnsHostOrIpLiteral parseIp (String.ofList (inside.takeWhile (· ≠ ']')))
    else if host.toList.count ':' = 1 then
      normalizeDnsHostOrIpLiteral parseIp (String.ofList (host.toList.takeWhile (· ≠ ':')))
    else normalizeDnsHostOrIpLiteral parseIp host
  | chars =>
    if chars.count ':' = 1 then
      normalizeDnsHostOrIpLiteral parseIp (String.ofList (chars.takeWhile (· ≠ ':')))
    else normalizeDnsHostOrIpLiteral parseIp host

/-- `Host::parse`. -/
def hostParse (input : String) : Except String String :=
  let normalized := normalizeHost parseIp input
  if normalized.isEmpty then .error "host is empty" else .ok normalized

def unscopedIpLiteral : Option String :=
  match splitOnce "%" host with
  | some (address, _) => if (parseIp address).isSome then some address else none
  | none => none

def isLoopbackHost : Bool :=
  let host := (unscopedIpLiteral parseIp host).getD host
  host = "localhost" || ((parseIp host).map ipIsLoopback).getD false

end

end WeaveCodex.NetworkProxy
