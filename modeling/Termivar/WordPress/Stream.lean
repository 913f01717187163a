/-
# Reading a Wordfence feed

`termivar-scanner/src/wordpress_review/wordfence_v3.rs`: a feed is read byte
by byte. The reader finds the end of every record on its own, by counting
brackets outside of strings, and hands the text of the record to the JSON
decoder. What was read is then resolved, sorted and indexed.

`serde_json` is a parameter: it gives the syntax tree of a text, or an error.
The source of the bytes may break off with an error of its own.
-/
import Termivar.WordPress.Digest

namespace Termivar.Wordfence

def maxRecords : Nat := 100000

def maxSoftwareAssociations : Nat := 200000

def maxRecordBytes : Nat := 768 * 1024

def maxProductionBytes : Nat := 256 * 1024 * 1024

def maxRetainedBytes : Nat := 160 * 1024 * 1024

/-! ### The cursor -/

/-- The bytes left, whether reading breaks off behind them, and those read. -/
structure MeasuredCursor where
  bytes : Bytes
  broken : Bool
  hashed : Bytes
  maximumBytes : Nat

namespace MeasuredCursor

variable (cursor : MeasuredCursor)

def nextByte :
    Except WordfenceV3ProductionError (Option UInt8 × MeasuredCursor) :=
  match cursor.bytes with
  | [] => if cursor.broken then .error .readFailed else .ok (none, cursor)
  | byte :: rest =>
    if cursor.hashed.length + 1 > cursor.maximumBytes then .error .inputTooLarge
    else .ok (some byte, { cursor with bytes := rest, hashed := cursor.hashed ++ [byte] })

/-- A byte that must be there. -/
def requireByte :
    Except WordfenceV3ProductionError (UInt8 × MeasuredCursor) := do
  let (byte, cursor) ← cursor.nextByte
  return (← okOr byte .malformedJson, cursor)

/-- The loop over whitespace; there are no more turns than bytes. -/
def skipWhitespace : Nat → MeasuredCursor →
    Except WordfenceV3ProductionError (Option UInt8 × MeasuredCursor)
  | 0, cursor => .ok (none, cursor)
  | fuel + 1, cursor => do
    let (byte, cursor) ← cursor.nextByte
    if byte.any Json.isWs then skipWhitespace fuel cursor else return (byte, cursor)

def nextNonWhitespace :
    Except WordfenceV3ProductionError (Option UInt8 × MeasuredCursor) :=
  cursor.skipWhitespace (cursor.bytes.length + 1)

/-- The loop over the bytes of a string. -/
def captureStringBytes : Nat → Bytes → Bool → MeasuredCursor →
    Except WordfenceV3ProductionError (Bytes × MeasuredCursor)
  | 0, _, _, _ => .error .malformedJson
  | fuel + 1, raw, escaped, cursor => do
    let (byte, cursor) ← cursor.requireByte
    let raw := raw ++ [byte]
    if raw.length > 256 then throw .structuralLimitExceeded
    if escaped then captureStringBytes fuel raw false cursor
    else if byte = 92 then captureStringBytes fuel raw true cursor
    else if byte = 34 then return (raw, cursor)
    else captureStringBytes fuel raw false cursor

/-- Where the reader stands in a record: the open brackets, innermost first,
whether it is inside of a string, and behind a backslash there. -/
structure Scan where
  stack : Bytes
  (inString escaped : Bool)

/-- One byte of a record. -/
def Scan.byte (scan : Scan) (byte : UInt8) : Except WordfenceV3ProductionError Scan :=
  if scan.inString then
    if scan.escaped then .ok { scan with escaped := false }
    else if byte = 92 then .ok { scan with escaped := true }
    else if byte = 34 then .ok { scan with inString := false }
    else .ok scan
  else if byte = 34 then .ok { scan with inString := true }
  else if byte = 123 ∨ byte = 91 then
    if scan.stack.length + 1 > 10 then .error .structuralLimitExceeded
    else .ok { scan with stack := byte :: scan.stack }
  else if byte = 125 ∨ byte = 93 then
    if scan.stack.head? = some (if byte = 125 then 123 else 91) then
      .ok { scan with stack := scan.stack.tail }
    else .error .malformedJson
  else .ok scan

/-- The loop over the bytes of a record. -/
def captureRecordBytes : Nat → Bytes → Scan → MeasuredCursor →
    Except WordfenceV3ProductionError (Bytes × MeasuredCursor)
  | 0, _, _, _ => .error .malformedJson
  | fuel + 1, raw, scan, cursor =>
    if scan.stack.isEmpty then .ok (raw, cursor)
    else do
      let (byte, cursor) ← cursor.requireByte
      let raw := raw ++ [byte]
      if raw.length > maxRecordBytes then throw .recordTooLarge
      let scan ← scan.byte byte
      captureRecordBytes fuel raw scan cursor

/-- The text of a record whose brace was read. -/
def captureRecordObject :
    Except WordfenceV3ProductionError (Bytes × MeasuredCursor) :=
  captureRecordBytes (cursor.bytes.length + 1) [123] ⟨[123], false, false⟩ cursor

end MeasuredCursor

/-! ### Records -/

/-- The library with the JSON decoder. -/
structure Serde (F : Type) extends Library F where
  readJson : Bytes → Except WordfenceV3ProductionError Json

variable {F : Type} (serde : Serde F) (memory : Memory)

/-- `serde_json::from_slice::<String>`. -/
def readJsonString (raw : Bytes) : Except WordfenceV3ProductionError String :=
  match serde.readJson raw with
  | .ok (.string value) => .ok value
  | _ => .error .malformedJson

variable (state : ParseState) (cursor : MeasuredCursor)

def MeasuredCursor.captureString :
    Except WordfenceV3ProductionError (String × MeasuredCursor) := do
  let (raw, cursor) ← cursor.captureStringBytes (cursor.bytes.length + 1) [34] false
  return (← readJsonString serde raw, cursor)

/-- `decode_bounded_record`. -/
def decodeBoundedRecord (bytes : Bytes) : Except WordfenceV3ProductionError (Value F) := do
  decodeBoundedValue serde.toLibrary (← serde.readJson bytes)

/-- What was read of a feed so far. -/
structure ParseState where
  upstreamIds : BTreeSet String
  records : Reserved WordfenceV3Record
  notices : BTreeMap String WordfenceV3Notice
  (softwareAssociationCount affectedRangeCount : Nat)
  (requiresResourcePolicyV2 requiresSemanticDigestV2 : Bool)
  retained : RetainedBudget

def ParseState.start (retained : RetainedBudget) : ParseState :=
  ⟨∅, Reserved.empty, ∅, 0, 0, false, false, retained⟩

/-- The key of one more record. -/
def admitKey (upstreamId : String) :
    Except WordfenceV3ProductionError ParseState := do
  validateUuid upstreamId
  if upstreamId ∈ state.upstreamIds then throw .duplicateKey
  let bytes ← addBytes memory.sizeOfString (memory.stringCapacity upstreamId)
  let retained ← state.retained.addBtreeEntry bytes
  return { state with upstreamIds := state.upstreamIds.insert upstreamId, retained }

/-- A notice of a record: it must be the one known under its id, if there is
one. -/
def admitNotice (notice : WordfenceV3Notice) :
    Except WordfenceV3ProductionError ParseState :=
  match state.notices[notice.id]? with
  | some existing => if existing ≠ notice then .error .conflictingIdentity else .ok state
  | none => do
    let retained ← state.retained.addNoticeMapEntry memory notice.id notice
    return { state with notices := state.notices.insert notice.id notice, retained }

/-- The number of ranges of all associations of a record. -/
def countRanges (record : WordfenceV3Record) : Except WordfenceV3ProductionError Nat :=
  (record.software.map (fun a => a.affectedRanges.length) ++
    record.unresolvedSoftware.map fun a => a.affectedRanges.length).foldlM countMore 0

/-- A decoded record. -/
def admitDecoded (recordLength : Nat)
    (decoded : WordfenceV3Record × List WordfenceV3Notice) :
    Except WordfenceV3ProductionError ParseState := do
  let record := decoded.1
  let state := { state with
    requiresResourcePolicyV2 := state.requiresResourcePolicyV2 ||
      recordRequiresResourcePolicyV2 recordLength record
    requiresSemanticDigestV2 := state.requiresSemanticDigestV2 || recordRequiresSemanticDigestV2 record }
  let state ← decoded.2.foldlM (admitNotice memory) state
  let recordAssociations ← countMore record.software.length record.unresolvedSoftware.length
  let softwareAssociationCount ← countMore state.softwareAssociationCount recordAssociations
  if softwareAssociationCount > maxSoftwareAssociations then throw .structuralLimitExceeded
  let affectedRangeCount ← countMore state.affectedRangeCount (← countRanges record)
  let dynamic ← okOr (memory.recordDynamicBytes record) .retainedDataTooLarge
  let retained ← state.retained.add dynamic
  let (records, retained) ← state.records.push memory .parse memory.sizeOfRecord record retained
  return { state with softwareAssociationCount, affectedRangeCount, records, retained }

/-- The text of one record. -/
def admitRecord (upstreamId : String) (recordBytes : Bytes) :
    Except WordfenceV3ProductionError ParseState := do
  let value ← decodeBoundedRecord serde recordBytes
  let decoded ← decodeRecord serde.toLibrary upstreamId value
  admitDecoded memory state recordBytes.length decoded

/-! ### The root object -/

/-- One member of the root object, from the byte that starts it. -/
def readMember (delimiter : Option UInt8) (state : ParseState) (cursor : MeasuredCursor) :
    Except WordfenceV3ProductionError (ParseState × MeasuredCursor) := do
  if delimiter ≠ some 34 then throw .malformedJson
  if state.records.values.length = maxRecords then throw .structuralLimitExceeded
  let (upstreamId, cursor) ← cursor.captureString serde
  let state ← admitKey memory state upstreamId
  let (colon, cursor) ← cursor.nextNonWhitespace
  if colon ≠ some 58 then throw .malformedJson
  let (brace, cursor) ← cursor.nextNonWhitespace
  if brace ≠ some 123 then throw .unsupportedValue
  let (recordBytes, cursor) ← cursor.captureRecordObject
  let state ← admitRecord serde memory state upstreamId recordBytes
  return (state, cursor)

/-- The loop over the members; a turn takes a byte at least. -/
def readMembers : Nat → Option UInt8 → ParseState → MeasuredCursor →
    Except WordfenceV3ProductionError (ParseState × MeasuredCursor)
  | 0, _, _, _ => .error .malformedJson
  | fuel + 1, delimiter, state, cursor => do
    let (state, cursor) ← readMember serde memory delimiter state cursor
    let (delimiter, cursor) ← cursor.nextNonWhitespace
    if delimiter = some 44 then do
      let (delimiter, cursor) ← cursor.nextNonWhitespace
      if delimiter = some 125 then throw .malformedJson
      readMembers fuel delimiter state cursor
    else if delimiter = some 125 then return (state, cursor)
    else throw .malformedJson

/-- The members of the root object, if it has any. -/
def readRoot (delimiter : Option UInt8) (state : ParseState) (cursor : MeasuredCursor) :
    Except WordfenceV3ProductionError (ParseState × MeasuredCursor) :=
  if delimiter = some 125 then .ok (state, cursor)
  else readMembers serde memory (cursor.bytes.length + 1) delimiter state cursor

/-- The whole input, up to its end. -/
def readFeed (retained : RetainedBudget) :
    Except WordfenceV3ProductionError (ParseState × MeasuredCursor) := do
  let (first, cursor) ← cursor.nextNonWhitespace
  if first = none ∧ cursor.hashed.length = 0 then throw .emptyInput
  if first ≠ some 123 then throw .malformedJson
  let (delimiter, cursor) ← cursor.nextNonWhitespace
  let (state, cursor) ← readRoot serde memory delimiter (ParseState.start retained) cursor
  let (trailing, cursor) ← cursor.nextNonWhitespace
  if trailing.isSome then throw .malformedJson
  return (state, cursor)

/-! ### The import -/

structure WordfenceV3ProductionImport where
  byteLength : Nat
  (sha256 semanticSha256 : Bytes)
  (retainedBytes softwareAssociationCount affectedRangeCount : Nat)
  identityCounts : WordfenceV3IdentityCounts
  resourcePolicy : String
  records : List WordfenceV3Record
  notices : List WordfenceV3Notice
  componentIndex : ComponentAssociationIndex

def resourcePolicyForImport (requiresExpandedRecordSemantics : Bool)
    (parsePeakBytes retainedBytes : Nat) : String :=
  let importEnvelopeBytes := max retainedBytes parsePeakBytes
  if importEnvelopeBytes > 128 * 1024 * 1024 then "termivar.wordfence-v3-bounded-capacity/v3"
  else if requiresExpandedRecordSemantics ∨ importEnvelopeBytes > 64 * 1024 * 1024 then
    "termivar.wordfence-v3-bounded-capacity/v2"
  else "termivar.wordfence-v3-bounded-capacity/v1"

def retainedRecordsAndNoticesBytes (records : List WordfenceV3Record) (recordsCapacity : Nat)
    (notices : List WordfenceV3Notice) (noticesCapacity maximum : Nat) :
    Except WordfenceV3ProductionError Nat := do
  let retained ← RetainedBudget.withBase maximum memory.sizeOfImport
  let retained ← retained.add (← mulBytes recordsCapacity memory.sizeOfRecord)
  let retained ← records.foldlM (fun (retained : RetainedBudget) record => do
    retained.add (← okOr (memory.recordDynamicBytes record) .retainedDataTooLarge)) retained
  let retained ← retained.add (← mulBytes noticesCapacity memory.sizeOfNotice)
  let retained ← notices.foldlM (fun (retained : RetainedBudget) notice => do
    retained.add (← okOr (memory.noticeDynamicBytes notice) .retainedDataTooLarge)) retained
  return retained.total

/-- `account_component_index`. -/
def accountComponentIndex (retained : RetainedBudget) (index : ComponentAssociationIndex) :
    Except WordfenceV3ProductionError RetainedBudget :=
  index.toList.foldlM (fun (retained : RetainedBudget) entry => do
    let bytes ← addBytes memory.sizeOfComponent memory.sizeOfCoordinates
    let bytes ← addBytes bytes (memory.stringCapacity entry.1.slug)
    let bytes ← addBytes bytes (← mulBytes entry.2.capacity memory.sizeOfCoordinate)
    retained.addBtreeEntry bytes) retained

def retainedImportBytes (records : List WordfenceV3Record) (recordsCapacity : Nat)
    (notices : List WordfenceV3Notice) (noticesCapacity : Nat) (index : ComponentAssociationIndex)
    (maximum : Nat) : Except WordfenceV3ProductionError Nat := do
  let base ← retainedRecordsAndNoticesBytes memory records recordsCapacity notices noticesCapacity
    maximum
  let retained ← RetainedBudget.withBase maximum base
  let retained ← accountComponentIndex memory retained index
  return retained.total

/-- What is done once the input was read. -/
def finishImport (maximumRetainedBytes : Nat) (state : ParseState) (cursor : MeasuredCursor) :
    Except WordfenceV3ProductionError WordfenceV3ProductionImport := do
  let (resolved, identityCounts, identityResolutionPeak) ← resolveIdentityMappings memory
    state.records.values state.retained.total maximumRetainedBytes
  let records := sortBy (compareOn WordfenceV3Record.upstreamId) resolved
  let (noticeValues, retained) ← (Reserved.empty : Reserved WordfenceV3Notice).reserveExact memory
    .parse memory.sizeOfNotice state.notices.size state.retained
  let notices := state.notices.toList.map Prod.snd
  let parsePeakBytes := max retained.total identityResolutionPeak
  let baseRetained ← retainedRecordsAndNoticesBytes memory records state.records.capacity notices
    noticeValues.capacity maximumRetainedBytes
  let (componentIndex, retainedBytes) ← buildComponentIndex memory records baseRetained
    maximumRetainedBytes
  let independentlyMeasured ← retainedImportBytes memory records state.records.capacity notices
    noticeValues.capacity componentIndex maximumRetainedBytes
  if retainedBytes ≠ independentlyMeasured then throw .retainedDataTooLarge
  return {
    byteLength := cursor.hashed.length
    sha256 := serde.sha256 cursor.hashed
    semanticSha256 := serde.sha256 (semanticPreimage records notices identityCounts
      state.requiresSemanticDigestV2)
    retainedBytes
    softwareAssociationCount := state.softwareAssociationCount
    affectedRangeCount := state.affectedRangeCount
    identityCounts
    resourcePolicy := resourcePolicyForImport state.requiresResourcePolicyV2 parsePeakBytes
      retainedBytes
    records
    notices
    componentIndex }

/-- A source of bytes: what it gives, and whether it then breaks off. -/
structure Reader where
  bytes : Bytes
  broken : Bool

def parseWordfenceV3ProductionWithLimits (reader : Reader)
    (maximumInputBytes maximumRetainedBytes : Nat) :
    Except WordfenceV3ProductionError WordfenceV3ProductionImport := do
  let retained ← RetainedBudget.withBase maximumRetainedBytes memory.sizeOfImport
  let (state, cursor) ← readFeed serde memory ⟨reader.bytes, reader.broken, [], maximumInputBytes⟩
    retained
  finishImport serde memory maximumRetainedBytes state cursor

def parseWordfenceV3Production (reader : Reader) :
    Except WordfenceV3ProductionError WordfenceV3ProductionImport :=
  parseWordfenceV3ProductionWithLimits serde memory reader maxProductionBytes maxRetainedBytes

/-- `associations_for`: an index that is out of bounds would be a panic. -/
def WordfenceV3ProductionImport.associationsFor (feed : WordfenceV3ProductionImport)
    (component : WordPressComponentIdentity) :
    Option (List (WordfenceV3Record × WordfenceV3SoftwareAssociation)) :=
  (placesOf feed.componentIndex component).mapM (viewAt feed.records)

end Termivar.Wordfence
