/-
# The artifact scanner

`termivar-artifact/src/scanner.rs` and `report.rs`: the matcher goes over the
start positions of a buffer and charges one unit of work for every anchor it
probes and every candidate it verifies. `scanBytes` runs it on a whole slice;
`scanReader` runs it on a window over what a reader delivers, on a position
once the longest pattern fits behind it, and carries the rest over.

SHA-256 is a parameter: the hexadecimal digest of the bytes consumed.
-/
import Termivar.Loop
import Termivar.Artifact.Catalog

namespace Termivar

open Command

/-! ### Limits -/

def maxInputBytes : Nat := 512 * 1024 * 1024
def maxMatchesPerScan : Nat := 30000
def maxReaderChunkBytes : Nat := 1024 * 1024
def maxMatchWorkUnits : Nat := 1700000000
def maxConsecutiveInterrupts : Nat := 16

/-- Checked host-narrowable limits for one scan. -/
structure ArtifactScanLimits where
  (maxInputBytes maxMatches readerChunkBytes maxMatchWorkUnits : Nat)
  inputBytes_checked : 0 < maxInputBytes ∧ maxInputBytes ≤ Termivar.maxInputBytes
  matches_checked : 0 < maxMatches ∧ maxMatches ≤ maxMatchesPerScan
  chunk_checked : 0 < readerChunkBytes ∧ readerChunkBytes ≤ maxReaderChunkBytes
  work_checked : 0 < maxMatchWorkUnits ∧ maxMatchWorkUnits ≤ Termivar.maxMatchWorkUnits

namespace ArtifactScanLimits

end ArtifactScanLimits

/-! ### Reports -/

/-- One deterministic observation. -/
structure ArtifactMatchObservation where
  signature : ArtifactSignatureRef
  (absoluteOffset patternLength : Nat)
  observationClass : ArtifactObservationClass
  ordinal : Nat

def ArtifactMatchObservation.new (signature : ArtifactSignatureRef)
    (absoluteOffset patternLength : Nat) (observationClass : ArtifactObservationClass) :
    Except ArtifactError ArtifactMatchObservation :=
  if patternLength ≤ u16Max then
    .ok { signature, absoluteOffset, patternLength, observationClass, ordinal := 0 }
  else .error (.limitExceeded "reported pattern length" u16Max)

/-- The order of the observations in a report. -/
def ArtifactMatchObservation.le (left right : ArtifactMatchObservation) : Bool :=
  (compareLex (compareOn ArtifactMatchObservation.absoluteOffset)
    (compareLex (compareOn ArtifactMatchObservation.signature)
      (compareLex (compareOn ArtifactMatchObservation.patternLength)
        (compareOn fun o => o.observationClass.ctorIdx))) left right).isLE

inductive ArtifactScanCompletion where
  | complete
  | inputLimitReached
  | matchLimitReached
  | matchWorkLimitReached
  | readerFailed
  deriving DecidableEq

/-- The identity of what was consumed: a whole artifact or a prefix. -/
inductive ArtifactContentIdentity where
  | artifact (digest : String)
  | consumedPrefix (digest : String) (bytesConsumed : Nat)

structure ArtifactScanReport where
  catalogDigest : String
  contentIdentity : ArtifactContentIdentity
  completion : ArtifactScanCompletion
  (bytesConsumed matchStartPositionsChecked signaturesConsidered matchCount : Nat)
  matchesFound : List ArtifactMatchObservation
  matchWorkUnits : Nat

def maxReportBytes : Nat := 16 * 1024 * 1024
def maxRenderedReportBaseBytes : Nat := 4 * 1024
def maxRenderedObservationBytes : Nat := 512

/-- The identity fits the completion, and a complete scan checked every
position. -/
def checkIdentity (contentIdentity : ArtifactContentIdentity) (completion : ArtifactScanCompletion)
    (bytesConsumed matchStartPositionsChecked : Nat) : Except ArtifactError Unit :=
  match contentIdentity with
  | .artifact _ =>
    if completion ≠ .complete then .error (.invalidScanReport "content identity completion")
    else if matchStartPositionsChecked ≠ bytesConsumed then
      .error (.invalidScanReport "complete match frontier")
    else .ok ()
  | .consumedPrefix _ identityBytes =>
    if completion = .complete then .error (.invalidScanReport "content identity completion")
    else if identityBytes ≠ bytesConsumed then .error (.invalidScanReport "consumed prefix bytes")
    else .ok ()

/-- Number the observations from one. -/
def assignOrdinal (entry : ArtifactMatchObservation × Nat) :
    Except ArtifactError ArtifactMatchObservation :=
  if entry.2 + 1 ≤ u32Max then .ok { entry.1 with ordinal := entry.2 + 1 }
  else .error (.limitExceeded "match observation ordinals" u32Max)

def ArtifactScanReport.new (catalogDigest : String) (contentIdentity : ArtifactContentIdentity)
    (completion : ArtifactScanCompletion) (bytesConsumed matchStartPositionsChecked
      signaturesConsidered : Nat) (found : List ArtifactMatchObservation) (matchWorkUnits : Nat) :
    Except ArtifactError ArtifactScanReport := do
  if found.length > maxMatchesPerScan then
    throw (.limitExceeded "artifact report matches" maxMatchesPerScan)
  if matchWorkUnits > maxMatchWorkUnits then
    throw (.limitExceeded "artifact match work units" maxMatchWorkUnits)
  checkIdentity contentIdentity completion bytesConsumed matchStartPositionsChecked
  if matchStartPositionsChecked > bytesConsumed then
    throw (.invalidScanReport "match start positions checked")
  let rendered := found.length * maxRenderedObservationBytes
  if rendered > u64Max then throw .reportSerializationFailed
  let worstCase ← okOr (checkedAdd u64Max rendered maxRenderedReportBaseBytes)
    .reportSerializationFailed
  if worstCase > maxReportBytes then
    throw (.limitExceeded "artifact report shape" maxReportBytes)
  let numbered ← (found.mergeSort ArtifactMatchObservation.le).zipIdx.mapM assignOrdinal
  return { catalogDigest, contentIdentity, completion, bytesConsumed, matchStartPositionsChecked
           signaturesConsidered, matchCount := numbered.length, matchesFound := numbered
           matchWorkUnits }

/-! ### The matcher -/

/-- `checked_add` of offsets. -/
def addOffset (a b : Nat) : Except ArtifactError Nat :=
  okOr (checkedAdd u64Max a b) .offsetOverflow

/-- A read-only scanner bound to one catalog and one limit set. -/
structure ArtifactScanner where
  catalog : ArtifactCatalog
  limits : ArtifactScanLimits

def ArtifactScanner.new (catalog : ArtifactCatalog) (limits : ArtifactScanLimits) :
    Except ArtifactError ArtifactScanner :=
  if catalog.maximumPatternLength > maxPatternBytes then
    .error (.limitExceeded "catalog pattern bytes" maxPatternBytes)
  else .ok { catalog, limits }

inductive ScanStop where
  | matchLimit
  | matchWorkLimit

structure ScanProgress where
  observations : List ArtifactMatchObservation := []
  matchWorkUnits : Nat := 0
  matchStartPositionsChecked : Nat := 0

abbrev Scan (α : Type) : Type := Command ScanProgress ArtifactError α

section Matcher

variable (scanner : ArtifactScanner) (input : Bytes) (absoluteBase : Nat)

/-- One unit of work, or `false` when the budget is spent. -/
def chargeMatchWork : Scan Bool := do
  let progress ← get
  if progress.matchWorkUnits ≥ scanner.limits.maxMatchWorkUnits then return false
  set { progress with matchWorkUnits := progress.matchWorkUnits + 1 }
  return true

/-- `self.signatures[index]`. -/
def signatureAt (index : Nat) : Scan ArtifactCatalogSignature :=
  match scanner.catalog.signatures[index]? with
  | some signature => return signature
  | none => unwind

/-- Verify one candidate of an anchor at the start position. -/
def verifyCandidate (start candidate : Nat) : Scan (Option ScanStop) := do
  if !(← chargeMatchWork scanner) then return some .matchWorkLimit
  let signature ← signatureAt scanner candidate
  if !signature.pattern.matchesAt input start then return none
  let progress ← get
  if progress.observations.length ≥ scanner.limits.maxMatches then return some .matchLimit
  let absoluteStart ← addOffset absoluteBase start
  let observation ← ArtifactMatchObservation.new signature.signatureRef absoluteStart
    signature.pattern.len signature.observationClass
  set { progress with observations := progress.observations ++ [observation] }
  return none

/-- Probe one anchor offset at the start position. -/
def probeAnchor (start : Nat) (group : Nat × BTreeMap UInt8 (List Nat)) : Scan (Option ScanStop) := do
  if !(← chargeMatchWork scanner) then return some .matchWorkLimit
  let anchorIndex ← addOffset start group.1
  match input[anchorIndex]? with
  | none => return none
  | some anchorByte =>
    match group.2[anchorByte]? with
    | none => return none
    | some candidates =>
      untilStop (verifyCandidate scanner input absoluteBase start) candidates

/-- Record the start position as checked. -/
def advanceFrontier (start : Nat) : Scan (Option ScanStop) := do
  let absoluteStart ← addOffset absoluteBase start
  let checked ← addOffset absoluteStart 1
  modify fun progress => { progress with matchStartPositionsChecked := checked }
  return none

/-- All anchors at one start position. -/
def scanStart (start : Nat) : Scan (Option ScanStop) := do
  let stop ← untilStop (probeAnchor scanner input absoluteBase start)
    scanner.catalog.anchorGroups.toList
  unlessStopped stop (advanceFrontier absoluteBase start)

/-- The start positions `0..starts`. -/
def scanStarts (starts : Nat) : Scan (Option ScanStop) :=
  untilStop (scanStart scanner input absoluteBase) (List.range starts)

end Matcher

def completionForStop : ScanStop → ArtifactScanCompletion
  | .matchLimit => .matchLimitReached
  | .matchWorkLimit => .matchWorkLimitReached

section Reports

variable (sha256 : Bytes → String) (scanner : ArtifactScanner)

variable (completion : ArtifactScanCompletion)

def buildReport (consumed : Bytes) (bytesConsumed : Nat)
    (progress : ScanProgress) : Except ArtifactError ArtifactScanReport :=
  let digestHex := sha256 consumed
  let contentIdentity :=
    if completion = .complete then ArtifactContentIdentity.artifact ("artifact-sha256:" ++ digestHex)
    else .consumedPrefix ("consumed-prefix-sha256:" ++ digestHex) bytesConsumed
  ArtifactScanReport.new scanner.catalog.digest contentIdentity completion bytesConsumed
    progress.matchStartPositionsChecked scanner.catalog.signatures.length progress.observations
    progress.matchWorkUnits

/-- Scans only the prefix the limits allow. -/
def scanBytes (input : Bytes) : Command Unit ArtifactError ArtifactScanReport := do
  let bounded := input.take (min scanner.limits.maxInputBytes input.length)
  let (stop, progress) ← locally {} (scanStarts scanner bounded 0 bounded.length)
  let ending := if input.length > bounded.length then .inputLimitReached else .complete
  buildReport sha256 scanner (stop.elim ending completionForStop) bounded bounded.length progress

/-! ### Streaming -/

/-- `io::Result<usize>` of a read. -/
inductive ReadResult where
  | ok (read : Nat)
  | interrupted
  | failed

/-- A reader: it may write into the buffer it is given, and says how many
bytes it wrote. -/
structure Reader (ρ : Type) where
  read : ρ → Bytes → ReadResult × Bytes × ρ
  length_read : ∀ reader buffer, (read reader buffer).2.1.length = buffer.length

/-- The variables of the streaming loop; `hashed` is what the hasher was fed. -/
structure Stream (ρ : Type) where
  reader : ρ
  (chunk window : Bytes)
  (windowStart bytesRead : Nat)
  hashed : Bytes
  progress : ScanProgress
  consecutiveInterrupts : Nat

variable {ρ : Type} (R : Reader ρ)

abbrev StreamCommand (ρ α : Type) : Type := Command (Stream ρ) ArtifactError α

/-- Scan the starts of the window. -/
def scanWindow (starts : Nat) : StreamCommand ρ (Option ScanStop) := do
  let stream ← get
  let (stop, progress) ← locally stream.progress
    (scanStarts scanner stream.window stream.windowStart starts)
  set { stream with progress }
  return stop

/-- Report what was read so far. -/
def reportStream :
    StreamCommand ρ (Option ArtifactScanReport) := do
  let stream ← get
  let report ← buildReport sha256 scanner completion stream.hashed stream.bytesRead stream.progress
  return some report

/-- Scan all starts of the window and report; a stop takes precedence. -/
def finishStream :
    StreamCommand ρ (Option ArtifactScanReport) := do
  let stream ← get
  let stop ← scanWindow scanner stream.window.length
  reportStream sha256 scanner (stop.elim completion completionForStop)

/-- Scan all starts of the window and report that the reader failed. -/
def failStream : StreamCommand ρ (Option ArtifactScanReport) := do
  let stream ← get
  let _ ← scanWindow scanner stream.window.length
  reportStream sha256 scanner .readerFailed

/-- `retain_unchecked_carry` on the window. -/
def retainUncheckedCarry (window : Bytes) (completedStarts maximumCarry : Nat) :
    Except ArtifactError Bytes :=
  if completedStarts > window.length then .error (.invalidScanReport "completed streaming starts")
  else if (window.drop completedStarts).length > maximumCarry then
    .error (.invalidScanReport "stream carry bytes")
  else .ok (window.drop completedStarts)

/-- The bytes of the longest pattern after its first. -/
def retained : Nat := scanner.catalog.maximumPatternLength - 1

/-- Drop the starts that were scanned. -/
def carryOver (scanableStarts : Nat) : StreamCommand ρ (Option ArtifactScanReport) := do
  if scanableStarts = 0 then return none
  let stream ← get
  let window ← retainUncheckedCarry stream.window scanableStarts (retained scanner)
  let windowStart ← addOffset stream.windowStart scanableStarts
  set { stream with window, windowStart }
  return none

/-- What the loop does with the bytes of one read. -/
def takeRead (read : Nat) : StreamCommand ρ (Option ArtifactScanReport) := do
  let stream ← get
  let bytesRead ← addOffset stream.bytesRead read
  let bytes := stream.chunk.take read
  let window := stream.window ++ bytes
  set { stream with bytesRead, hashed := stream.hashed ++ bytes, window }
  let scanableStarts := window.length - retained scanner
  match ← scanWindow scanner scanableStarts with
  | some stop => reportStream sha256 scanner (completionForStop stop)
  | none => carryOver scanner scanableStarts

/-- What a turn does with the result of its read. -/
def handleRead (requested : Nat) : ReadResult → StreamCommand ρ (Option ArtifactScanReport)
  | .interrupted => do
    let stream ← get
    let consecutiveInterrupts := stream.consecutiveInterrupts + 1
    set { stream with consecutiveInterrupts }
    if consecutiveInterrupts ≤ maxConsecutiveInterrupts then return none
    failStream sha256 scanner
  | .failed => failStream sha256 scanner
  | .ok read => do
    modify fun stream => { stream with consecutiveInterrupts := 0 }
    if read = 0 then finishStream sha256 scanner .complete
    else if read > requested then failStream sha256 scanner
    else takeRead sha256 scanner read

/-- One turn of the loop of `scan_reader`. -/
def streamTurn : StreamCommand ρ (Option ArtifactScanReport) := do
  let stream ← get
  let remaining := scanner.limits.maxInputBytes - stream.bytesRead
  if remaining = 0 then finishStream sha256 scanner .inputLimitReached
  else do
    let requested := min remaining stream.chunk.length
    let outcome := R.read stream.reader (stream.chunk.take requested)
    set { stream with
      reader := outcome.2.2
      chunk := outcome.2.1 ++ stream.chunk.drop requested }
    handleRead sha256 scanner requested outcome.1

end Reports

end Termivar
