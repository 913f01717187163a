/-
# The records of a Wordfence feed

`termivar-scanner/src/wordpress_review/wordfence_v3.rs`: the records of a feed
and how one is decoded from its JSON value. Every list a record holds is
sorted, so a record does not depend on the order in which its parts were
written.

SHA-256, `Url::parse` and the reading of floats are parameters.
-/
import Termivar.Json
import Termivar.Slice
import Termivar.Sorting
import Termivar.SortedList
import Termivar.Url
import Termivar.Artifact.Builder
import Termivar.WordPress.Component
import Termivar.WordPress.Version
import Termivar.Text

namespace Termivar

inductive WordfenceV3ProductionError where
  | readFailed
  | emptyInput
  | inputTooLarge
  | recordTooLarge
  | malformedJson
  | duplicateKey
  | structuralLimitExceeded
  | unsupportedValue
  | conflictingIdentity
  | retainedDataTooLarge

inductive WordfenceV3IdentityMapping where
  | exact
  | asciiCaseFoldCandidate
  | asciiCaseFoldAmbiguous
  deriving DecidableEq

def WordfenceV3IdentityMapping.asStr : WordfenceV3IdentityMapping → String
  | .exact => "exact"
  | .asciiCaseFoldCandidate => "ascii_case_fold_candidate"
  | .asciiCaseFoldAmbiguous => "ascii_case_fold_ambiguous"

inductive WordfenceV3RangeValue where
  | any
  | declared (value : String)

def WordfenceV3RangeValue.text : WordfenceV3RangeValue → String
  | .any => "*"
  | .declared value => value

structure WordfenceV3RangeEndpoint where
  value : WordfenceV3RangeValue
  inclusive : Bool

structure WordfenceV3AffectedRange where
  label : String
  (lower upper : WordfenceV3RangeEndpoint)

structure WordfenceV3AssociationKey where
  upstreamId : String
  component : WordPressComponentIdentity
  sourceComponent : WordfenceV3SourceComponentIdentity
  sourceAssociationSha256 : Bytes
  deriving DecidableEq

structure WordfenceV3SoftwareAssociation where
  key : WordfenceV3AssociationKey
  identityMapping : WordfenceV3IdentityMapping
  identityCollisionRawCount : Option Nat
  displayName : String
  affectedRanges : List WordfenceV3AffectedRange
  patched : Bool
  patchedVersions : List String
  remediation : String

def WordfenceV3SoftwareAssociation.component (association : WordfenceV3SoftwareAssociation) :
    WordPressComponentIdentity := association.key.component

def WordfenceV3SoftwareAssociation.sourceComponent (association : WordfenceV3SoftwareAssociation) :
    WordfenceV3SourceComponentIdentity := association.key.sourceComponent

structure WordfenceV3UnresolvedSoftwareAssociation where
  upstreamId : String
  sourceComponent : WordfenceV3SourceComponentIdentity
  sourceAssociationSha256 : Bytes
  displayName : String
  affectedRanges : List WordfenceV3AffectedRange
  patched : Bool
  patchedVersions : List String
  remediation : String

structure WordfenceV3Cwe where
  id : Nat
  (name description : String)

inductive WordfenceV3CvssRating where
  | none
  | low
  | medium
  | high
  | critical

structure WordfenceV3Cvss where
  (vector score : String)
  rating : WordfenceV3CvssRating

structure WordfenceV3Notice where
  (id message party notice license licenseUrl : String)
  deriving DecidableEq

structure WordfenceV3Record where
  (upstreamId title : String)
  informational : Bool
  description : String
  references : List String
  cwe : Option WordfenceV3Cwe
  cvss : Option WordfenceV3Cvss
  (cve cveLink : Option String)
  researchers : List String
  (published updated : Option String)
  noticeIds : List String
  software : List WordfenceV3SoftwareAssociation
  unresolvedSoftware : List WordfenceV3UnresolvedSoftwareAssociation

structure WordfenceV3IdentityCounts where
  (exact candidate ambiguous unresolved : Nat)

def WordfenceV3IdentityCounts.requiresSourceIdentityMapping (counts : WordfenceV3IdentityCounts) : Bool :=
  counts.candidate ≠ 0 || counts.ambiguous ≠ 0 || counts.unresolved ≠ 0

namespace Wordfence

/-! ### Orders -/

/-- The derived order of values: `Any` first. -/
def compareRangeValue : WordfenceV3RangeValue → WordfenceV3RangeValue → Ordering
  | .any, .any => .eq
  | .any, .declared _ => .lt
  | .declared _, .any => .gt
  | .declared a, .declared b => compare a b

def compareEndpoint : WordfenceV3RangeEndpoint → WordfenceV3RangeEndpoint → Ordering :=
  compareLex (fun a b => compareRangeValue a.value b.value)
    (compareOn fun e => e.inclusive.toNat)

def compareRange : WordfenceV3AffectedRange → WordfenceV3AffectedRange → Ordering :=
  compareLex (compareOn WordfenceV3AffectedRange.label)
    (compareLex (fun a b => compareEndpoint a.lower b.lower)
      (fun a b => compareEndpoint a.upper b.upper))

def compareKey : WordfenceV3AssociationKey → WordfenceV3AssociationKey → Ordering :=
  compareLex (compareOn WordfenceV3AssociationKey.upstreamId)
    (compareLex (compareOn WordfenceV3AssociationKey.component)
      (compareLex (compareOn WordfenceV3AssociationKey.sourceComponent)
        (compareOn WordfenceV3AssociationKey.sourceAssociationSha256)))

/-- The order of associations that are mapped to a component. -/
def compareSoftware (a b : WordfenceV3SoftwareAssociation) : Ordering := compareKey a.key b.key

/-- The order of associations that are not. -/
def compareUnresolved : WordfenceV3UnresolvedSoftwareAssociation →
    WordfenceV3UnresolvedSoftwareAssociation → Ordering :=
  compareLex (compareOn WordfenceV3UnresolvedSoftwareAssociation.sourceComponent)
    (compareLex (compareOn WordfenceV3UnresolvedSoftwareAssociation.upstreamId)
      (compareOn WordfenceV3UnresolvedSoftwareAssociation.sourceAssociationSha256))

def compareNotice : WordfenceV3Notice → WordfenceV3Notice → Ordering :=
  compareLex (compareOn WordfenceV3Notice.id)
    (compareLex (compareOn WordfenceV3Notice.message)
      (compareLex (compareOn WordfenceV3Notice.party)
        (compareLex (compareOn WordfenceV3Notice.notice)
          (compareLex (compareOn WordfenceV3Notice.license)
            (compareOn WordfenceV3Notice.licenseUrl)))))

/-- `sort_by`. -/
def sortBy {α : Type} (cmp : α → α → Ordering) (values : List α) : List α :=
  values.mergeSort fun a b => (cmp a b).isLE

/-! ### JSON values -/

/-- `serde_json::Number`. -/
inductive Number (F : Type) where
  | posInt (value : Nat)
  | negInt (magnitude : Nat)
  | float (value : F)

/-- `serde_json::Value`: the members of an object are in the order of their
names. -/
inductive Value (F : Type) where
  | null
  | bool (value : Bool)
  | number (value : Number F)
  | string (value : String)
  | array (items : List (Value F))
  | object (members : List (String × Value F))

/-- What is outside of the repository: the digest, URLs, and `f64` with its
reading and writing. -/
structure Library (F : Type) where
  sha256 : Bytes → Bytes
  parseUrl : String → Option Url
  readFloat : Bytes → Option F
  showFloat : F → String

variable {F : Type} (lib : Library F)

/-- The number of a text: integers of 64 bits, all else as a float. -/
def Number.ofLexeme (lexeme : Bytes) : Option (Number F) :=
  match Json.numberParts lexeme with
  | some ⟨negative, integer, [], none⟩ =>
    let magnitude := Json.digitsValue integer
    if negative then
      if magnitude ≠ 0 ∧ magnitude ≤ 2 ^ 63 then some (.negInt magnitude)
      else (lib.readFloat lexeme).map .float
    else if magnitude ≤ u64Max then some (.posInt magnitude)
    else (lib.readFloat lexeme).map .float
  | _ => (lib.readFloat lexeme).map .float

/-- `Number::to_string`. -/
def Number.show : Number F → String
  | .posInt value => toString value
  | .negInt magnitude => "-" ++ toString magnitude
  | .float value => lib.showFloat value

structure WordfenceJsonLimits where
  (maximumNodes maximumArrayLength maximumObjectMembers maximumKeyBytes maximumStringBytes : Nat)
  maximumDepth : Nat

def recordLimits : WordfenceJsonLimits where
  maximumNodes := 32768
  maximumArrayLength := 4096
  maximumObjectMembers := 128
  maximumKeyBytes := 256
  maximumStringBytes := 4096
  maximumDepth := 10

/-- One more node at a depth. -/
def admitNode (limits : WordfenceJsonLimits) (depth nodes : Nat) :
    Except WordfenceV3ProductionError Nat :=
  if depth > limits.maximumDepth ∨ nodes = limits.maximumNodes then .error .structuralLimitExceeded
  else .ok (nodes + 1)

mutual

/-- `WordfenceBoundedValueSeed`: a value at a depth, with the nodes so far. -/
def boundedValue (limits : WordfenceJsonLimits) (depth nodes : Nat) :
    Json → Except WordfenceV3ProductionError (Value F × Nat)
  | .null => do
    let nodes ← admitNode limits depth nodes
    return (.null, nodes)
  | .bool value => do
    let nodes ← admitNode limits depth nodes
    return (.bool value, nodes)
  | .number lexeme => do
    let nodes ← admitNode limits depth nodes
    let number ← okOr (Number.ofLexeme lib lexeme) .malformedJson
    return (.number number, nodes)
  | .string value => do
    let nodes ← admitNode limits depth nodes
    if value.utf8ByteSize > limits.maximumStringBytes then throw .structuralLimitExceeded
    return (.string value, nodes)
  | .array items => do
    let nodes ← admitNode limits depth nodes
    let (values, nodes) ← boundedItems limits depth [] nodes items
    return (.array values, nodes)
  | .object members => do
    let nodes ← admitNode limits depth nodes
    let (values, nodes) ← boundedMembers limits depth [] nodes members
    return (.object values, nodes)

/-- `visit_seq`: the items so far and those left. -/
def boundedItems (limits : WordfenceJsonLimits) (depth : Nat) (array : List (Value F)) (nodes : Nat) :
    List Json → Except WordfenceV3ProductionError (List (Value F) × Nat)
  | [] => .ok (array, nodes)
  | item :: items =>
    if array.length = limits.maximumArrayLength then .error .structuralLimitExceeded
    else do
      let (value, nodes) ← boundedValue limits (depth + 1) nodes item
      boundedItems limits depth (array ++ [value]) nodes items

/-- `visit_map`: the members so far and those left. -/
def boundedMembers (limits : WordfenceJsonLimits) (depth : Nat) (object : List (String × Value F))
    (nodes : Nat) : List (String × Json) →
    Except WordfenceV3ProductionError (List (String × Value F) × Nat)
  | [] => .ok (object, nodes)
  | (key, json) :: members =>
    if key.utf8ByteSize > limits.maximumKeyBytes then .error .structuralLimitExceeded
    else if object.length = limits.maximumObjectMembers then .error .structuralLimitExceeded
    else if object.any fun member => member.1 = key then .error .duplicateKey
    else do
      let (value, nodes) ← boundedValue limits (depth + 1) nodes json
      boundedMembers limits depth (SortedList.put Prod.fst (key, value) object) nodes members

end

/-- `decode_bounded_record`, from the syntax tree of the text. -/
def decodeBoundedValue (json : Json) : Except WordfenceV3ProductionError (Value F) := do
  let (value, _) ← boundedValue lib recordLimits 0 0 json
  return value

/-! ### Checks of texts -/

def unsupportedUnless (accepted : Bool) : Except WordfenceV3ProductionError Unit :=
  if accepted then .ok () else .error .unsupportedValue

def isLowerHex (byte : UInt8) : Bool := isAsciiDigit byte || (97 ≤ byte && byte ≤ 102)

def isAsciiAlphanumeric (byte : UInt8) : Bool :=
  isAsciiDigit byte || (97 ≤ byte && byte ≤ 122) || (65 ≤ byte && byte ≤ 90)

variable (value : String)

def validateUuid : Except WordfenceV3ProductionError Unit :=
  let bytes := utf8Bytes value
  unsupportedUnless (bytes.length = 36 && bytes.zipIdx.all fun (byte, index) =>
    if index = 8 ∨ index = 13 ∨ index = 18 ∨ index = 23 then byte = 45 else isLowerHex byte)

def validateCve : Except WordfenceV3ProductionError Unit :=
  let bytes := utf8Bytes value
  unsupportedUnless (bytes.length ≤ 32 && match bytes.splitOn 45 with
    | [start, year, id] => start = utf8Bytes "CVE" && year.length = 4 && year.all isAsciiDigit &&
      4 ≤ id.length && id.all isAsciiDigit
    | _ => false)

def daysInMonth (year month : Nat) : Nat :=
  if month ∈ [1, 3, 5, 7, 8, 10, 12] then 31
  else if month ∈ [4, 6, 9, 11] then 30
  else if month = 2 then
    if year % 400 = 0 ∨ (year % 4 = 0 ∧ year % 100 ≠ 0) then 29 else 28
  else 0

/-- The number of the digits from a place on. -/
def digitsAt (bytes : Bytes) (start count : Nat) : Nat :=
  Json.digitsValue ((bytes.drop start).take count)

def validateTimestamp : Except WordfenceV3ProductionError Unit :=
  let bytes := utf8Bytes value
  unsupportedUnless (bytes.length = 19 && bytes.zipIdx.all (fun (byte, index) =>
      if index = 4 ∨ index = 7 then byte = 45
      else if index = 10 then byte = 32
      else if index = 13 ∨ index = 16 then byte = 58
      else isAsciiDigit byte) &&
    let day := digitsAt bytes 8 2
    !(day = 0 || day > daysInMonth (digitsAt bytes 0 4) (digitsAt bytes 5 2) ||
      digitsAt bytes 11 2 > 23 || digitsAt bytes 14 2 > 59 || digitsAt bytes 17 2 > 59))

def validateVersion : Except WordfenceV3ProductionError Unit :=
  unsupportedUnless (!(value = "" || value.utf8ByteSize > 64 || value = "*" ||
    value.toList.any isControl || value.toList.head?.any isWhitespace ||
    value.toList.getLast?.any isWhitespace))

def validateIdentifier (maximum : Nat) : Except WordfenceV3ProductionError Unit :=
  unsupportedUnless (!(value = "" || value.utf8ByteSize > maximum ||
    !(utf8Bytes value).all fun byte =>
      isAsciiAlphanumeric byte || byte = 45 || byte = 95 || byte = 46))

/-- A source slug is opaque: printable ASCII with a letter or digit. -/
def validateSourceSlug : Except WordfenceV3ProductionError Unit :=
  let bytes := utf8Bytes value
  unsupportedUnless (!(bytes.isEmpty || bytes.length > 128 || bytes.any (fun byte => 128 ≤ byte) ||
    bytes.any (fun byte => byte < 32 || byte = 127) || !bytes.any isAsciiAlphanumeric))

def validateText (maximum : Nat) (allowEmpty : Bool) :
    Except WordfenceV3ProductionError Unit :=
  unsupportedUnless (!((!allowEmpty && value = "") || value.utf8ByteSize > maximum ||
    value.toList.any fun c => isControl c && !(c = '\n' || c = '\r' || c = '\t')))

def validateHttpReference : Except WordfenceV3ProductionError Unit := do
  validateText value 2048 false
  let parsed ← okOr (lib.parseUrl value) .unsupportedValue
  unsupportedUnless (parsed.isHttp && parsed.host.isSome && parsed.username = "" &&
    parsed.password.isNone)

/-- `url.port().is_none()`: the port is that of the scheme. -/
def hasDefaultPort (url : Url) : Bool :=
  url.port = some (if url.scheme = "http" then 80 else 443)

def hasSupportedWordfenceReferenceQuery (url : Url) : Bool :=
  match url.query with
  | none => true
  | some query =>
    match stripPrefix "source=".toList query.toList with
    | none => false
    | some value =>
      let bytes := utf8Bytes (String.ofList value)
      !bytes.isEmpty && bytes.length ≤ 64 && bytes.all fun byte =>
        isAsciiAlphanumeric byte || byte = 45 || byte = 46 || byte = 95 || byte = 126

def isOfficialWordfenceVulnerabilityReference : Bool :=
  (lib.parseUrl value).any fun url =>
    url.isHttp && url.host = some (.domain "www.wordfence.com") && url.username = "" &&
    url.password.isNone && hasDefaultPort url && url.text = value &&
    "/threat-intel/vulnerabilities/".toList.isPrefixOf url.path.toList &&
    url.path.utf8ByteSize > "/threat-intel/vulnerabilities/".utf8ByteSize &&
    hasSupportedWordfenceReferenceQuery url && url.fragment.isNone

/-- The loop of `validate_string_set`, with the values seen. -/
def validateDistinct (maximumBytes : Nat) (validate : String → Except WordfenceV3ProductionError Unit) :
    List String → List String → Except WordfenceV3ProductionError Unit
  | _, [] => .ok ()
  | seen, value :: values => do
    if value.utf8ByteSize > maximumBytes then throw .unsupportedValue
    validate value
    if value ∈ seen then throw .conflictingIdentity
    validateDistinct maximumBytes validate (value :: seen) values

variable (values : List String) (mapId : String)

def validateStringSet (maximumCount maximumBytes : Nat)
    (validate : String → Except WordfenceV3ProductionError Unit) :
    Except WordfenceV3ProductionError Unit :=
  if values.length > maximumCount then .error .structuralLimitExceeded
  else validateDistinct maximumBytes validate [] values

def validateStringSequence (maximumCount maximumBytes : Nat)
    (validate : String → Except WordfenceV3ProductionError Unit) :
    Except WordfenceV3ProductionError Unit :=
  if values.length > maximumCount then .error .structuralLimitExceeded
  else Checked.each (fun value => do
    if value.utf8ByteSize > maximumBytes then throw .unsupportedValue
    validate value) values

/-! ### Digests -/

/-- The framed bytes of a text. -/
def frameText : Bytes := frame 8 (utf8Bytes value)

def frameUsize (value : Nat) : Bytes := beBytes 8 value

def frameBool (value : Bool) : UInt8 := if value then 1 else 0

def hashStrings : Bytes :=
  frameUsize values.length ++ values.flatMap frameText

def hashOptionalString : Option String → Bytes
  | some value => 1 :: frameText value
  | none => [0]

def kindByte (kind : WordPressComponentKind) : UInt8 := UInt8.ofNat kind.rank

def hashRange (range : WordfenceV3AffectedRange) : Bytes :=
  frameText range.label ++ frameText range.lower.value.text ++ [frameBool range.lower.inclusive] ++
    frameText range.upper.value.text ++ [frameBool range.upper.inclusive]

def hashAssociationValues (affectedRanges : List WordfenceV3AffectedRange) (patched : Bool)
    (patchedVersions : List String) (remediation : String) : Bytes :=
  frameUsize affectedRanges.length ++ affectedRanges.flatMap hashRange ++ [frameBool patched] ++
    hashStrings patchedVersions ++ frameText remediation

def sourceAssociationPreimage (sourceComponent : WordfenceV3SourceComponentIdentity)
    (displayName : String) (affectedRanges : List WordfenceV3AffectedRange) (patched : Bool)
    (patchedVersions : List String) (remediation : String) : Bytes :=
  utf8Bytes "termivar.wordfence-v3.source-association/v1\x00" ++ [kindByte sourceComponent.kind] ++
    frameText sourceComponent.slug ++ frameText displayName ++
    hashAssociationValues affectedRanges patched patchedVersions remediation

def noticeId (message party notice license url : String) : String :=
  "wordfence-notice-sha256:" ++ hex (lib.sha256
    (utf8Bytes "termivar.wordfence-v3.notice/v1\x00" ++
      [message, party, notice, license, url].flatMap frameText))

/-! ### Wire forms -/

def Value.asString : Value F → Option String
  | .string value => some value
  | _ => none

def Value.asBool : Value F → Option Bool
  | .bool value => some value
  | _ => none

def Value.asArray : Value F → Option (List (Value F))
  | .array items => some items
  | _ => none

def Value.asU32 : Value F → Option Nat
  | .number (.posInt value) => if value ≤ u32Max then some value else none
  | _ => none

def Value.asNumber : Value F → Option (Number F)
  | .number value => some value
  | _ => none

def Value.asStrings (value : Value F) : Option (List String) := do
  (← value.asArray).mapM Value.asString

/-- A record with the named fields, none missing and no other: as an object,
or as an array of their values. -/
def readStruct (names : List String) : Value F → Option (List (Value F))
  | .object members =>
    if members.all fun member => member.1 ∈ names then
      names.mapM fun name => (members.find? fun member => member.1 = name).map Prod.snd
    else none
  | .array items => if items.length = names.length then some items else none
  | _ => none

structure AffectedRangeWire where
  fromVersion : String
  fromInclusive : Bool
  toVersion : String
  toInclusive : Bool

def AffectedRangeWire.read (value : Value F) : Option AffectedRangeWire := do
  match ← readStruct ["from_version", "from_inclusive", "to_version", "to_inclusive"] value with
  | [fromVersion, fromInclusive, toVersion, toInclusive] =>
    return ⟨← fromVersion.asString, ← fromInclusive.asBool, ← toVersion.asString, ← toInclusive.asBool⟩
  | _ => none

/-- The entries of a map from labels to ranges. -/
def readRanges : Value F → Option (List (String × AffectedRangeWire))
  | .object members => members.mapM fun (label, range) => (AffectedRangeWire.read range).map (label, ·)
  | _ => none

structure SoftwareWire where
  (kind name slug : String)
  affectedVersions : List (String × AffectedRangeWire)
  patched : Bool
  patchedVersions : List String
  remediation : String

def SoftwareWire.read (value : Value F) : Option SoftwareWire := do
  match ← readStruct ["type", "name", "slug", "affected_versions", "patched", "patched_versions",
      "remediation"] value with
  | [kind, name, slug, affectedVersions, patched, patchedVersions, remediation] =>
    return ⟨← kind.asString, ← name.asString, ← slug.asString, ← readRanges affectedVersions,
      ← patched.asBool, ← patchedVersions.asStrings, ← remediation.asString⟩
  | _ => none

structure CweWire where
  id : Nat
  (name description : String)

def CweWire.read (value : Value F) : Option CweWire := do
  match ← readStruct ["id", "name", "description"] value with
  | [id, name, description] => return ⟨← id.asU32, ← name.asString, ← description.asString⟩
  | _ => none

structure CvssWire (F : Type) where
  vector : String
  score : Number F
  rating : String

def CvssWire.read (value : Value F) : Option (CvssWire F) := do
  match ← readStruct ["vector", "score", "rating"] value with
  | [vector, score, rating] => return ⟨← vector.asString, ← score.asNumber, ← rating.asString⟩
  | _ => none

structure NoticePartyWire where
  (notice license licenseUrl : String)

def NoticePartyWire.read (value : Value F) : Option NoticePartyWire := do
  match ← readStruct ["notice", "license", "license_url"] value with
  | [notice, license, licenseUrl] =>
    return ⟨← notice.asString, ← license.asString, ← licenseUrl.asString⟩
  | _ => none

structure ProductionRecordWire (F : Type) where
  (id title : String)
  software : List SoftwareWire
  informational : Bool
  description : String
  references : List String
  (cwe cvss cve cveLink : Value F)
  researchers : List String
  (published updated copyrights : Value F)

def ProductionRecordWire.names : List String :=
  ["id", "title", "software", "informational", "description", "references", "cwe", "cvss", "cve",
    "cve_link", "researchers", "published", "updated", "copyrights"]

def ProductionRecordWire.read (value : Value F) : Option (ProductionRecordWire F) := do
  match ← readStruct ProductionRecordWire.names value with
  | [id, title, software, informational, description, references, cwe, cvss, cve, cveLink,
      researchers, published, updated, copyrights] =>
    return ⟨← id.asString, ← title.asString, ← (← software.asArray).mapM SoftwareWire.read,
      ← informational.asBool, ← description.asString, ← references.asStrings, cwe, cvss, cve, cveLink,
      ← researchers.asStrings, published, updated, copyrights⟩
  | _ => none

/-! ### Decoding -/

/-- `decode_nullable`. -/
def decodeNullable {α : Type} (read : Value F → Option α) :
    Value F → Except WordfenceV3ProductionError (Option α)
  | .null => .ok none
  | value => (okOr (read value) .unsupportedValue).map some

/-- A nullable text with its check. -/
def decodeNullableText (validate : String → Except WordfenceV3ProductionError Unit) (value : Value F) :
    Except WordfenceV3ProductionError (Option String) := do
  match ← decodeNullable Value.asString value with
  | none => return none
  | some text => do
    validate text
    return some text

def validateCwe (wire : CweWire) : Except WordfenceV3ProductionError WordfenceV3Cwe := do
  if wire.id = 0 then throw .unsupportedValue
  validateText wire.name 1024 false
  validateText wire.description 4096 true
  return ⟨wire.id, wire.name, wire.description⟩

/-- The grammar of scores: at most ten, with one decimal place or none. -/
def validScore (score : String) : Bool :=
  let integerOk (integer : Bytes) : Bool :=
    Json.digits1 integer && !(1 < integer.length && integer.head? = some 48)
  match (utf8Bytes score).splitOn 46 with
  | [integer] => integerOk integer && Json.digitsValue integer ≤ 10
  | [integer, fraction] =>
    integerOk integer && fraction.length = 1 && fraction.all Json.isDigit &&
      (Json.digitsValue integer ≤ 9 || (Json.digitsValue integer = 10 && fraction = [48]))
  | _ => false

def readRating (rating : String) : Option WordfenceV3CvssRating :=
  if rating = "None" then some .none
  else if rating = "Low" then some .low
  else if rating = "Medium" then some .medium
  else if rating = "High" then some .high
  else if rating = "Critical" then some .critical
  else none

def validateCvss (wire : CvssWire F) : Except WordfenceV3ProductionError WordfenceV3Cvss := do
  validateText wire.vector 256 false
  unsupportedUnless ("CVSS:3.0/".toList.isPrefixOf wire.vector.toList ||
    "CVSS:3.1/".toList.isPrefixOf wire.vector.toList)
  let score := wire.score.show lib
  unsupportedUnless (validScore score)
  let rating ← okOr (readRating wire.rating) .unsupportedValue
  return ⟨wire.vector, score, rating⟩

def decodeRangeValue : Except WordfenceV3ProductionError WordfenceV3RangeValue := do
  if value = "*" then return .any
  validateVersion value
  return .declared value

def decodeRange (label : String) (wire : AffectedRangeWire) :
    Except WordfenceV3ProductionError WordfenceV3AffectedRange := do
  validateText label 256 false
  let lower ← decodeRangeValue wire.fromVersion
  let upper ← decodeRangeValue wire.toVersion
  return ⟨label, ⟨lower, wire.fromInclusive⟩, ⟨upper, wire.toInclusive⟩⟩

inductive DecodedSoftwareAssociation where
  | mapped (association : WordfenceV3SoftwareAssociation)
  | unresolved (association : WordfenceV3UnresolvedSoftwareAssociation)

def readKind (kind : String) : Option WordPressComponentKind :=
  if kind = "core" then some .core
  else if kind = "plugin" then some .plugin
  else if kind = "theme" then some .theme
  else none

/-- `to_ascii_lowercase`. -/
def toAsciiLowercase : String :=
  String.ofList (value.toList.map fun c =>
    if 'A' ≤ c ∧ c ≤ 'Z' then Char.ofNat (c.toNat + 32) else c)

/-- The component of a source identity: itself if it is a valid one, else the
one in lower case. -/
def mapComponent (source : WordfenceV3SourceComponentIdentity) :
    Option (WordPressComponentIdentity × WordfenceV3IdentityMapping) :=
  match WordPressComponentIdentity.new source.kind source.slug with
  | some component => some (component, .exact)
  | none =>
    (WordPressComponentIdentity.new source.kind (toAsciiLowercase source.slug)).map
      (·, .asciiCaseFoldCandidate)

def decodeSoftware (upstreamId : String) (wire : SoftwareWire) :
    Except WordfenceV3ProductionError DecodedSoftwareAssociation := do
  let kind ← okOr (readKind wire.kind) .unsupportedValue
  validateText wire.name 1024 false
  validateSourceSlug wire.slug
  let source : WordfenceV3SourceComponentIdentity := ⟨kind, wire.slug⟩
  if wire.affectedVersions.length > 128 ∨ wire.patchedVersions.length > 128 then
    throw .structuralLimitExceeded
  let ranges ← wire.affectedVersions.mapM fun (label, range) => decodeRange label range
  let affectedRanges := sortBy compareRange ranges
  Checked.each validateVersion wire.patchedVersions
  let patchedVersions := sortBy compare wire.patchedVersions
  if Slice.adjacentAny (fun a b => a = b) patchedVersions then throw .conflictingIdentity
  validateText wire.remediation 2048 true
  let digest := lib.sha256 (sourceAssociationPreimage source wire.name affectedRanges wire.patched
    patchedVersions wire.remediation)
  return match mapComponent source with
  | some (component, identityMapping) => .mapped {
      key := ⟨upstreamId, component, source, digest⟩
      identityMapping
      identityCollisionRawCount := none
      displayName := wire.name
      affectedRanges
      patched := wire.patched
      patchedVersions
      remediation := wire.remediation }
  | none => .unresolved {
      upstreamId
      sourceComponent := source
      sourceAssociationSha256 := digest
      displayName := wire.name
      affectedRanges
      patched := wire.patched
      patchedVersions
      remediation := wire.remediation }

/-- One party of the copyrights. -/
def decodeParty (message : String) (member : String × Value F) :
    Except WordfenceV3ProductionError WordfenceV3Notice := do
  validateIdentifier member.1 128
  let wire ← okOr (NoticePartyWire.read member.2) .unsupportedValue
  validateText wire.notice 2048 true
  validateText wire.license 2048 true
  validateHttpReference lib wire.licenseUrl
  return ⟨noticeId lib message member.1 wire.notice wire.license wire.licenseUrl, message, member.1,
    wire.notice, wire.license, wire.licenseUrl⟩

def decodeNotices : Value F → Except WordfenceV3ProductionError (List WordfenceV3Notice)
  | .null => .ok []
  | .object members => do
    let message ← okOr (((members.find? fun member => member.1 = "message").map Prod.snd).bind
      Value.asString) .unsupportedValue
    let parties := members.filter fun member => member.1 ≠ "message"
    validateText message 2048 true
    if parties.isEmpty ∨ parties.length > 15 then throw .structuralLimitExceeded
    let notices ← parties.mapM (decodeParty lib message)
    return sortBy compareNotice notices
  | _ => .error .unsupportedValue

/-- The associations that are mapped to a component. -/
def mappedOf : DecodedSoftwareAssociation → Option WordfenceV3SoftwareAssociation
  | .mapped association => some association
  | .unresolved _ => none

/-- The associations that are not. -/
def unresolvedOf : DecodedSoftwareAssociation → Option WordfenceV3UnresolvedSoftwareAssociation
  | .mapped _ => none
  | .unresolved association => some association

/-- The checks of a record before its parts are decoded. -/
def validateRecord (wire : ProductionRecordWire F) :
    Except WordfenceV3ProductionError Unit := do
  validateUuid wire.id
  if wire.id ≠ mapId then throw .conflictingIdentity
  validateText wire.title 1024 false
  validateText wire.description 4096 true
  if wire.software.isEmpty ∨ wire.software.length > 2048 then throw .structuralLimitExceeded
  validateStringSet wire.references 64 2048 (validateHttpReference lib)
  validateStringSequence wire.researchers 64 512 fun value => validateText value 512 false

/-- The associations of a record, sorted, and no two equal. -/
def decodeAssociations (wires : List SoftwareWire) :
    Except WordfenceV3ProductionError
      (List WordfenceV3SoftwareAssociation × List WordfenceV3UnresolvedSoftwareAssociation) := do
  let decoded ← wires.mapM (decodeSoftware lib mapId)
  let software := sortBy compareSoftware (decoded.filterMap mappedOf)
  if Slice.adjacentAny (fun a b => a.key = b.key) software then throw .conflictingIdentity
  let unresolved := sortBy compareUnresolved (decoded.filterMap unresolvedOf)
  if Slice.adjacentAny (fun a b => a.upstreamId = b.upstreamId &&
      a.sourceComponent = b.sourceComponent &&
      a.sourceAssociationSha256 = b.sourceAssociationSha256) unresolved then
    throw .conflictingIdentity
  return (software, unresolved)

def decodeRecord (value : Value F) :
    Except WordfenceV3ProductionError (WordfenceV3Record × List WordfenceV3Notice) := do
  let wire ← okOr (ProductionRecordWire.read value) .unsupportedValue
  validateRecord lib mapId wire
  let cwe ← (← decodeNullable CweWire.read wire.cwe).mapM validateCwe
  let cvss ← (← decodeNullable CvssWire.read wire.cvss).mapM (validateCvss lib)
  let cve ← decodeNullableText validateCve wire.cve
  let cveLink ← decodeNullableText (validateHttpReference lib) wire.cveLink
  if cveLink.isSome ∧ cve.isNone then throw .conflictingIdentity
  let published ← decodeNullableText validateTimestamp wire.published
  let updated ← decodeNullableText validateTimestamp wire.updated
  let (software, unresolvedSoftware) ← decodeAssociations lib mapId wire.software
  let notices ← decodeNotices lib wire.copyrights
  if notices.any (fun notice => notice.party = "defiant") ∧
      ¬wire.references.any (isOfficialWordfenceVulnerabilityReference lib) then
    throw .unsupportedValue
  return ({
      upstreamId := mapId
      title := wire.title
      informational := wire.informational
      description := wire.description
      references := sortBy compare wire.references
      cwe
      cvss
      cve
      cveLink
      researchers := sortBy compare wire.researchers
      published
      updated
      noticeIds := sortBy compare (notices.map WordfenceV3Notice.id)
      software
      unresolvedSoftware }, notices)

end Wordfence
end Termivar
