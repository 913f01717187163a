/-
# Query mutations of a callback review

`termivar-scanner/src/ssrf_oast_review.rs`: of an observed resource URL one
query pair is selected whose value is an absolute URL; the three target URLs
of a review carry another value there.

The `url` crate is a parameter, as is SHA-256. Texts of queries are lists of
characters; what the source asks of their bytes, the model asks of the
characters, of which one is one byte or all of its bytes are above ASCII.
-/
import Termivar.Framing
import Termivar.Oast.Route
import Termivar.Url

namespace Termivar.SsrfOast

open Oast (NativeOastRoute)

/-! ### What is not the crate's own -/

/-- What the review uses of other crates. -/
structure UrlLibrary where
  parse : String → Option Url
  setPath : Url → String → Url
  setQuery : Url → Option String → Url
  setFragment : Url → Option String → Url
  /-- `form_urlencoded::parse`. -/
  formParse : String → List (String × String)
  ipv4Text : Nat → String
  ipv6Text : Nat → String
  sha256 : Bytes → Bytes

def maxSsrfOastReviewParameters : Nat := 1
def maxTargetBytes : Nat := 8 * 1024
def maxSubjectIdentityBytes : Nat := 512
def maxParameterNameBytes : Nat := 256

def resourceIdDomain : String := "security.ssrf-oast-review-resource.v1\x00"
def parameterIdDomain : String := "security.ssrf-oast-review-parameter.v1\x00"
def selectionIdDomain : String := "security.ssrf-oast-review-selection.v1\x00"
def controlLabelDomain : String := "security.ssrf-oast-review-control-label.v1\x00"

inductive SsrfOastContractError where
  | invalidControlSeed
  | invalidCallbackTarget
  | callbackIdentityConflict
  | mutationInvariant

inductive SsrfOastCandidateSource where
  | observedUrlQuery
  | openApiOptionalUrlQuery
  deriving DecidableEq

def SsrfOastCandidateSource.asStr : SsrfOastCandidateSource → String
  | observedUrlQuery => "observed_url_query"
  | openApiOptionalUrlQuery => "openapi_optional_url_query"

/-- One private exact query position. -/
structure SsrfOastQueryCandidate where
  source : SsrfOastCandidateSource
  executionResource : Url
  parameterName : String
  selectedPairIndex : Option Nat
  (parameterId selectionId subjectIdentity : String)
  deriving DecidableEq

inductive SsrfOastCandidateSelection where
  | selected (candidate : SsrfOastQueryCandidate)
  | notEligible
  deriving DecidableEq

variable (library : UrlLibrary)

/-! ### Digests -/

def digestMany (domain : String) (values : List Bytes) : Bytes :=
  library.sha256 (frame 8 (utf8Bytes domain) ++ values.flatMap (frame 8))

def digestParts (domain : String) (context : List Bytes) (entropy : Bytes) :
    Bytes :=
  digestMany library domain (context ++ [entropy])

def prefixedDigest (start domain : String) (values : List Bytes) : String :=
  start ++ hex (digestMany library domain values)

/-! ### Origins -/

def normalizedHost (url : Url) : Option String :=
  url.host.map fun
    | .domain value => String.ofList (value.toList.map Char.toLower)
    | .ipv4 address => library.ipv4Text address
    | .ipv6 address => library.ipv6Text address

def sameOrigin (left right : Url) : Bool :=
  left.scheme = right.scheme ∧ normalizedHost library left = normalizedHost library right ∧
    left.port = right.port

def canonicalTargetOrigin (source : Url) : Option Url :=
  if !source.isHttp || source.host.isNone || !source.username.isEmpty || source.password.isSome then
    none
  else
    some (library.setFragment (library.setQuery (library.setPath source "/") none) none)

def canonicalOriginString (url : Url) : String :=
  ((canonicalTargetOrigin library url).map Url.text).getD ""

/-! ### The selected pair -/

structure ParsedQueryPair where
  (name value : String)

def isHexDigit (c : Char) : Bool :=
  ('0' ≤ c && c ≤ '9') || ('a' ≤ c && c ≤ 'f') || ('A' ≤ c && c ≤ 'F')

def validPercentEncoding : List Char → Bool
  | '%' :: high :: low :: rest => isHexDigit high && isHexDigit low && validPercentEncoding rest
  | '%' :: _ => false
  | _ :: rest => validPercentEncoding rest
  | [] => true

def parseQueryPairs (query : String) : Option (List ParsedQueryPair) :=
  if query.isEmpty || !validPercentEncoding query.toList then none
  else
    let rawPairs := query.toList.splitOn '&'
    if rawPairs.any List.isEmpty then none
    else
      let decoded := library.formParse query
      if decoded.length ≠ rawPairs.length then none
      else decoded.mapM fun (name, value) => if name.isEmpty then none else some ⟨name, value⟩

def absoluteHttpUrlValue (value : String) : Bool :=
  (library.parse value).any fun url =>
    url.isHttp && url.host.isSome && url.username.isEmpty && url.password.isNone &&
      url.fragment.isNone

def safePath (path : String) : Bool :=
  path.toList.head? = some '/' && !(path.toList.any fun c => c ∈ ['\x5c', '\r', '\n', '\x00']) &&
    !((path.toList.splitOn '/').any fun segment => segment = ['.'] || segment = ['.', '.'])

def safeExactOriginResource (origin resource : Url) : Bool :=
  resource.text.utf8ByteSize ≤ maxTargetBytes && resource.isHttp && resource.host.isSome &&
    resource.username.isEmpty && resource.password.isNone && resource.fragment.isNone &&
    sameOrigin library origin resource && safePath resource.path

def isVisibleAscii (c : Char) : Bool := 0x21 ≤ c.toNat && c.toNat ≤ 0x7e

def validSubjectIdentity (identity : String) : Bool :=
  !identity.isEmpty && identity.utf8ByteSize ≤ maxSubjectIdentityBytes &&
    identity.toList.all isVisibleAscii

def validParameterName (name : String) : Bool :=
  !name.isEmpty && name.utf8ByteSize ≤ maxParameterNameBytes && name.toList.all isVisibleAscii &&
    !name.toList.any fun c => c ∈ ['&', '=', '#']

def buildCandidate (source : SsrfOastCandidateSource) (executionResource : Url)
    (parameterName : String) (selectedPairIndex : Option Nat) (subjectIdentity : String)
    (parameterPosition : Nat) : SsrfOastQueryCandidate :=
  let resourceId := prefixedDigest library "ssrf-oast-resource-sha256:" resourceIdDomain
    [utf8Bytes (canonicalOriginString library executionResource), utf8Bytes executionResource.path]
  let position := beBytes 8 (min parameterPosition u64Max)
  let parameterId := prefixedDigest library "ssrf-oast-parameter-sha256:" parameterIdDomain
    [utf8Bytes resourceId, utf8Bytes parameterName, position]
  let selectionId := prefixedDigest library "ssrf-oast-selection-sha256:" selectionIdDomain
    [utf8Bytes source.asStr, utf8Bytes subjectIdentity, utf8Bytes resourceId, utf8Bytes parameterId]
  { source, executionResource, parameterName, selectedPairIndex, parameterId, selectionId,
    subjectIdentity }

/-- A pair the review may take: its name occurs once, its value is a URL. -/
def isEligible (pairs : List ParsedQueryPair) (pair : ParsedQueryPair) : Bool :=
  (pairs.filter fun candidate => candidate.name = pair.name).length = 1 &&
    validParameterName pair.name && absoluteHttpUrlValue library pair.value

def selectObservedQueryCandidate (assessmentOrigin resource : Url) (subjectIdentity : String)
    (complete replayStable defenseClear : Bool) : SsrfOastCandidateSelection :=
  if !complete || !replayStable || !defenseClear || !validSubjectIdentity subjectIdentity ||
      !safeExactOriginResource library assessmentOrigin resource then .notEligible
  else
    match resource.query.bind (parseQueryPairs library) with
    | none => .notEligible
    | some pairs =>
      let eligible := pairs.zipIdx.filterMap fun (pair, index) =>
        if isEligible library pairs pair then
          some (buildCandidate library .observedUrlQuery resource pair.name (some index)
            subjectIdentity index)
        else none
      if eligible.length ≠ maxSsrfOastReviewParameters then .notEligible
      else
        match eligible with
        | candidate :: _ => .selected candidate
        | [] => .notEligible

/-! ### The mutation -/

/-- One digit of an escape, upper-case. -/
def upperHexDigit (value : Nat) : Char := Char.ofNat (if value < 10 then 48 + value else 55 + value)

def isUnreserved (byte : UInt8) : Bool :=
  (48 ≤ byte && byte ≤ 57) || (65 ≤ byte && byte ≤ 90) || (97 ≤ byte && byte ≤ 122) ||
    byte ∈ [45, 46, 95, 126]

def encodeByte (byte : UInt8) : List Char :=
  if isUnreserved byte then [Char.ofNat byte.toNat]
  else ['%', upperHexDigit (byte.toNat / 16), upperHexDigit (byte.toNat % 16)]

def encodeQueryComponent (bytes : Bytes) : List Char := bytes.flatMap encodeByte

/-- What stands before the first equals sign of a raw pair. -/
def rawName (pair : List Char) : List Char := ((splitOnce '=' pair).map Prod.fst).getD pair

variable (selected : SsrfOastQueryCandidate)

/-- The query with another value in the selected pair. -/
def mutatedQuery (encoded : List Char) :
    Except SsrfOastContractError (List Char) :=
  match selected.executionResource.query, selected.selectedPairIndex with
  | some original, some selectedIndex =>
    let pairs := original.toList.splitOn '&'
    match pairs[selectedIndex]? with
    | some pair => .ok (['&'].intercalate (pairs.set selectedIndex (rawName pair ++ '=' :: encoded)))
    | none => .error .mutationInvariant
  | none, none => .ok (encodeQueryComponent (utf8Bytes selected.parameterName) ++ '=' :: encoded)
  | _, _ => .error .mutationInvariant

def materializeQuery (replacement : String) :
    Except SsrfOastContractError Url := do
  let query ← mutatedQuery selected (encodeQueryComponent (utf8Bytes replacement))
  let target := library.setQuery selected.executionResource (some (String.ofList query))
  if target.query ≠ some (String.ofList query) ∨ target.text.utf8ByteSize > maxTargetBytes then
    throw .mutationInvariant
  return target

def isHttpLoopbackOrigin (url : Url) : Bool :=
  url.scheme = "http" && match url.host with
    | some (.ipv4 address) => address / 2 ^ 24 = 127
    | some (.ipv6 address) => address = 1
    | _ => false

def isCallbackPath (path : String) : Bool :=
  match NativeOastRoute.fromStr path with
  | .ok (.callback _ _) => true
  | _ => false

def validateCallbackTarget (source providerOrigin : String) (allowTestLoopback : Bool) :
    Except SsrfOastContractError Url := do
  let parsed ← okOr (library.parse source) .invalidCallbackTarget
  let provider ← okOr (library.parse providerOrigin) .invalidCallbackTarget
  let schemeAllowed := parsed.scheme = "https" || (allowTestLoopback && isHttpLoopbackOrigin parsed)
  if !schemeAllowed || !sameOrigin library parsed provider || !parsed.username.isEmpty ||
      parsed.password.isSome || parsed.query.isSome || parsed.fragment.isSome ||
      !isCallbackPath parsed.path then
    throw .invalidCallbackTarget
  return parsed

def inertControlUrl (seed : Bytes) (selectionId : String) : Except SsrfOastContractError Url :=
  let digest := digestParts library controlLabelDomain [utf8Bytes selectionId] seed
  let label := String.ofList ((hex digest).toList.take 60)
  okOr (library.parse ("https://c-" ++ label ++ ".invalid/")) .mutationInvariant

def SsrfOastQueryCandidate.controlExecutionUrl (controlSeed : Bytes) :
    Except SsrfOastContractError Url := do
  if controlSeed.all (· = 0) then throw .invalidControlSeed
  let controlPayload ← inertControlUrl library controlSeed selected.selectionId
  let control ← materializeQuery library selected controlPayload.text
  if !sameOrigin library selected.executionResource control ∨
      selected.executionResource.path ≠ control.path then
    throw .mutationInvariant
  return control

structure SsrfOastMutationPlan where
  (candidate replay : Url)

/-- URLs are equal if their texts are. -/
def fromCallbackStringsInner (controlSeed : Bytes)
    (candidateTarget replayTarget providerOrigin : String) (allowTestLoopback : Bool) :
    Except SsrfOastContractError SsrfOastMutationPlan := do
  if candidateTarget = replayTarget then throw .callbackIdentityConflict
  let candidateCallback ←
    validateCallbackTarget library candidateTarget providerOrigin allowTestLoopback
  let replayCallback ← validateCallbackTarget library replayTarget providerOrigin allowTestLoopback
  let control ← selected.controlExecutionUrl library controlSeed
  let candidate ← materializeQuery library selected candidateCallback.text
  let replay ← materializeQuery library selected replayCallback.text
  if candidate.text = replay.text ∨ !sameOrigin library selected.executionResource control ∨
      !sameOrigin library selected.executionResource candidate ∨
      !sameOrigin library selected.executionResource replay ∨
      selected.executionResource.path ≠ control.path ∨
      selected.executionResource.path ≠ candidate.path ∨
      selected.executionResource.path ≠ replay.path then
    throw .mutationInvariant
  return { candidate, replay }

end Termivar.SsrfOast
