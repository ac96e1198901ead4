/-
Purpose: File URIs by their segments, how two of them are compared, and which URIs lie below
  another one. On POSIX the segments are compared as they are spelled.
Trusted boundary: translation of the comparisons in `utils/path-uri/src/lib.rs`; a URL is its
  host and the text between the slashes of its path, base64 and the check for UTF-8 are
  functions
-/

namespace WeaveCodex.Paths

/-- A `file:` URL: its host, and the text between the slashes of its path. -/
structure PathUri where
  host : Option String
  segments : List (List Char)
deriving DecidableEq

inductive PathConvention where
  | posix | windows
deriving DecidableEq

structure UriTools where
  /-- The bytes of a canonical URL-safe base64 text. -/
  decodeBase64 : List Char → Option (List UInt8)
  isUtf8 : List UInt8 → Bool

def fromHexDigit (char : Char) : Option Nat :=
  if char.isDigit then some (char.toNat - 48)
  else if 'a' ≤ char.toLower ∧ char.toLower ≤ 'f' then some (char.toLower.toNat - 87)
  else none

/-- `urlencoding::decode_binary`, as that crate documents it: a percent sign that is not followed
by two hexadecimal digits stands for itself. -/
def decodeBinary : List Char → List UInt8
  | [] => []
  | '%' :: first :: second :: rest =>
    match fromHexDigit first, fromHexDigit second with
    | some high, some low => UInt8.ofNat (16 * high + low) :: decodeBinary rest
    | _, _ => 37 :: decodeBinary (first :: second :: rest)
  | char :: rest => UInt8.ofNat char.toNat :: decodeBinary rest

def isAsciiAlphabetic (byte : UInt8) : Bool :=
  (Char.ofNat byte.toNat).isAlpha

/-- `infer_opaque_path_convention`: a slash, or a drive or two backslashes in UTF-16LE. -/
def inferOpaquePathConvention : List UInt8 → Option PathConvention
  | 47 :: _ => some .posix
  | first :: 0 :: second :: 0 :: rest =>
    if rest.length % 2 = 0 ∧ (isAsciiAlphabetic first ∧ second = 58 ∨ first = 92 ∧ second = 92) then
      some .windows
    else none
  | _ => none

def isWindowsDriveUriSegment : List Char → Bool
  | [drive, ':'] => drive.isAlpha
  | _ => false

namespace PathUri

variable (tools : UriTools) (uri base : PathUri)

def nonEmptySegments : List (List Char) :=
  uri.segments.filter (· ≠ [])

def decodeBadPathUri : Option (List UInt8) :=
  match uri.host, uri.segments with
  | none, [['%', '0', '0'], ['b', 'a', 'd'], ['p', 'a', 't', 'h'], encodedPath] =>
    if encodedPath = [] then none else tools.decodeBase64 encodedPath
  | _, _ => none

def inferPathConvention : Option PathConvention :=
  match uri.decodeBadPathUri tools with
  | some pathBytes => inferOpaquePathConvention pathBytes
  | none =>
    if uri.host.isSome then some .windows
    else if uri.nonEmptySegments.head?.any isWindowsDriveUriSegment then some .windows
    else some .posix

def containmentPathSegments (convention : PathConvention) : Option (List (List Char)) :=
  if uri.nonEmptySegments.any fun segment => (decodeBinary segment).any fun byte =>
      byte = 47 || convention = .windows && byte = 92 then none
  else some uri.nonEmptySegments

/-- `windows_identity_path_bytes`. -/
def windowsIdentityPathBytes : Option (List UInt8) :=
  if uri.inferPathConvention tools ≠ some .windows || (uri.decodeBadPathUri tools).isSome ||
      uri.segments.any fun segment => (decodeBinary segment).any fun byte => byte = 47 || byte = 92 then
    none
  else some (decodeBinary (uri.segments.flatMap ('/' :: ·)))

def eqIgnoreAsciiCase (first second : List UInt8) : Bool :=
  first.map (fun byte => (Char.ofNat byte.toNat).toLower) =
    second.map fun byte => (Char.ofNat byte.toNat).toLower

/-- `PartialEq::eq`. -/
def beq : Bool :=
  uri = base ||
    match uri.windowsIdentityPathBytes tools, base.windowsIdentityPathBytes tools with
    | some path, some otherPath => uri.host = base.host && eqIgnoreAsciiCase path otherPath
    | _, _ => false

/-- The bytes of `decode_uri_path`, which leaves a segment that is no UTF-8. -/
def decodeUriPath (path : List Char) : List UInt8 :=
  if tools.isUtf8 (decodeBinary path) then decodeBinary path
  else path.map fun char => UInt8.ofNat char.toNat

def nativePathSegmentsStartWith (pathSegments baseSegments : List (List Char)) : PathConvention → Bool
  | .posix => baseSegments.isPrefixOf pathSegments
  | .windows => baseSegments.length ≤ pathSegments.length &&
    (pathSegments.zip baseSegments).all fun (path, base) =>
      path.map Char.toLower = base.map Char.toLower ||
        eqIgnoreAsciiCase (decodeUriPath tools path) (decodeUriPath tools base)

/-- `starts_with`. -/
def startsWith : Bool :=
  if uri.beq tools base then true
  else if (uri.decodeBadPathUri tools).isSome || (base.decodeBadPathUri tools).isSome then false
  else if uri.host ≠ base.host then false
  else if uri.inferPathConvention tools ≠ base.inferPathConvention tools then false
  else
    let convention := (uri.inferPathConvention tools).getD .posix
    match uri.containmentPathSegments convention, base.containmentPathSegments convention with
    | some pathSegments, some baseSegments =>
      nativePathSegmentsStartWith tools pathSegments baseSegments convention
    | _, _ => false

/-! ### POSIX paths -/

/-- A POSIX path that is no fallback, and whose segments hide no slash. -/
structure IsPosix : Prop where
  ordinary : uri.decodeBadPathUri tools = none
  posix : uri.inferPathConvention tools = some .posix
  noSlash : ∀ segment ∈ uri.nonEmptySegments, 47 ∉ decodeBinary segment

/-- The components of the native path. -/
def nativeComponents : List (List UInt8) :=
  uri.nonEmptySegments.map decodeBinary

variable {tools uri base}

theorem IsPosix.host (isPosix : uri.IsPosix tools) : uri.host = none := by
  have posix := isPosix.posix
  rw [inferPathConvention, isPosix.ordinary] at posix
  cases host : uri.host with
  | none => rfl
  | some => simp [host] at posix

theorem IsPosix.containmentPathSegments (isPosix : uri.IsPosix tools) :
    uri.containmentPathSegments .posix = some uri.nonEmptySegments := by
  rw [PathUri.containmentPathSegments, if_neg]
  simpa using isPosix.noSlash

/-- A POSIX path starts with another if its segments do, as they are spelled. Then the native
path is the same or lies below. -/
theorem startsWith_posix_iff (isPosix : uri.IsPosix tools) (basePosix : base.IsPosix tools) :
    (uri.startsWith tools base = true ↔ base.nonEmptySegments <+: uri.nonEmptySegments) ∧
      (uri.startsWith tools base = true → base.nativeComponents <+: uri.nativeComponents) := by
  have equal : uri.beq tools base = true ↔ uri = base := by
    simp [beq, windowsIdentityPathBytes, isPosix.posix]
  have spelled : uri.startsWith tools base = true ↔ base.nonEmptySegments <+: uri.nonEmptySegments := by
    unfold startsWith
    simp only [equal, isPosix.ordinary, basePosix.ordinary, isPosix.host, basePosix.host,
      isPosix.posix, basePosix.posix, Option.getD_some, isPosix.containmentPathSegments,
      basePosix.containmentPathSegments, nativePathSegmentsStartWith]
    split
    · rename_i same
      simp [same]
    · simp
  refine ⟨spelled, ?_⟩
  intro starts
  exact (spelled.mp starts).map decodeBinary

/-- `file:///a/b` starts with `file:///a`. -/
theorem startsWith_posix_below :
    (⟨none, [['a'], ['b']]⟩ : PathUri).startsWith ⟨fun _ => none, fun _ => true⟩ ⟨none, [['a']]⟩ = true :=
  (startsWith_posix_iff ⟨by decide, by decide, by decide⟩ ⟨by decide, by decide, by decide⟩).1.mpr
    (by decide)

/-- `file:///%61/b` names `/a/b`, and does not start with `file:///a`. -/
theorem startsWith_posix_encoded :
    let tools : UriTools := ⟨fun _ => none, fun _ => true⟩
    let uri : PathUri := ⟨none, ["%61".toList, ['b']]⟩
    let base : PathUri := ⟨none, [['a']]⟩
    uri.IsPosix tools ∧ base.IsPosix tools ∧ base.nativeComponents <+: uri.nativeComponents ∧
      uri.startsWith tools base = false :=
  ⟨⟨by decide, by decide, by decide⟩, ⟨by decide, by decide, by decide⟩, by decide, by decide⟩

end PathUri

end WeaveCodex.Paths
