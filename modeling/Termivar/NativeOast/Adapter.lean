/-
# The adapter of the native provider

`termivar-scanner/src/native_oast_provider.rs`: one provider session with its
callbacks, each bound to a correlation, behind four operations. An operation
makes at most one request through the permit; a poll reduces its page on
snapshots of every correlation and puts them in place at its end.
-/
import Termivar.Correlation.Authority
import Termivar.NativeOast.Client
import Termivar.Oast.Protocol

namespace Termivar.NativeOast

open Command
open Termivar.Correlation
open Termivar.Oast (CallbackAllocation CallbackId EventCursor HttpEventRecord PollResponse SessionId
  SessionRegistration SessionToken)
open Termivar.Runtime (Accounting AccountingOp RuntimeBudget TransportDispatchOutcome)

def providerEventKeyDomain : Bytes :=
  utf8Bytes "security.native-oast-provider.event-key/v1" ++ [0]

/-! ### The checks of validated inputs

Their errors are not looked at by the adapter. -/

def lifetimeFromMillis (millis : Nat) : Option OastLifetime :=
  if h : millis ≠ 0 ∧ millis ≤ hardMaxLifetimeMillis then some ⟨millis, h.1, h.2⟩ else none

def pollBudgetNew (polls : Nat) : Option OastPollBudget :=
  if h : polls ≠ 0 ∧ polls ≤ hardMaxPolls then some ⟨polls, h.1, h.2⟩ else none

def protocolSetNew (allowDns allowHttp : Bool) : Option OastProtocolSet :=
  if h : (allowDns || allowHttp) = true then some ⟨allowDns, allowHttp, h⟩ else none

def eventKeyNew (bytes : Bytes) : Option OastEventKey :=
  if h : bytes.length = 32 ∧ bytes.any (· ≠ 0) = true then some ⟨bytes, h.1, h.2⟩ else none

def authorityLimitsNew (maxRegistrations maxPollsPerRegistration maxEventsPerPoll
    maxUniqueEventsPerRegistration maxLifetimeMillis : Nat) : Option OastAuthorityLimits :=
  if h : (maxRegistrations ≠ 0 ∧ maxPollsPerRegistration ≠ 0 ∧ maxEventsPerPoll ≠ 0 ∧
      maxUniqueEventsPerRegistration ≠ 0 ∧ maxLifetimeMillis ≠ 0) ∧
      maxRegistrations ≤ hardMaxRegistrations ∧ maxPollsPerRegistration ≤ hardMaxPolls ∧
      maxEventsPerPoll ≤ hardMaxEventsPerPoll ∧
      maxUniqueEventsPerRegistration ≤ hardMaxUniqueEvents ∧
      maxLifetimeMillis ≤ hardMaxLifetimeMillis then
    some ⟨maxRegistrations, maxPollsPerRegistration, maxEventsPerPoll,
      maxUniqueEventsPerRegistration, maxLifetimeMillis, h.1, h.2⟩
  else none

/-! ### The adapter and its receipts -/

/-- Adapter lifecycle. -/
inductive NativeOastProviderLifecycle where
  | configured
  | registered
  | callbackAllocated
  | polling
  | closing
  | closed
  deriving DecidableEq

namespace NativeOastProviderLifecycle

/-- The place in the order of the lifecycle. -/
def rank : NativeOastProviderLifecycle → Nat
  | configured => 0
  | registered => 1
  | callbackAllocated => 2
  | polling => 3
  | closing => 4
  | closed => 5

/-- The adapter holds a session. -/
def open? : NativeOastProviderLifecycle → Bool
  | registered | callbackAllocated | polling => true
  | configured | closing | closed => false

end NativeOastProviderLifecycle

/-- Raw-free accounting and lifecycle result for one fixed provider operation. -/
structure NativeOastProviderReceipt where
  providerOrigin : Bytes
  operation : NativeOastProviderOperation
  (lifecycleBefore lifecycleAfter : NativeOastProviderLifecycle)
  requestCount : Nat
  (possiblyDispatched responseCompleted : Bool)
  (requestBytes responseBytes callbackAllocations pollNumber acceptedHttpEvents : Nat)
  duplicateHttpEvents : Nat
  (expired cleanupAttempted cleanupVerified : Bool)

structure NativeOastProviderReceiptFacts where
  acceptedHttpEvents : Nat := 0
  duplicateHttpEvents : Nat := 0
  expired : Bool := false
  cleanupVerified : Bool := false

/-- Static error plus an optional raw-free receipt for an attempted operation. -/
structure NativeOastProviderError where
  kind : NativeOastProviderErrorKind
  receipt : Option NativeOastProviderReceipt := none

structure NativeOastProviderSession where
  id : SessionId
  token : SessionToken
  cursor : EventCursor
  lifetimeMs : Nat

structure NativeOastProviderConfiguration where
  origin : String
  assessmentId : OastAssessmentId
  epoch : OastAuthorityEpoch
  administrator : Bytes
  limits : NativeOastProviderLimits

structure NativeOastProviderAdapter where
  boundary : Boundary
  correlations : OastCorrelationAuthority
  administrator : Option Bytes
  session : Option NativeOastProviderSession := none
  callbacks : BTreeMap CallbackId OastCorrelation := ∅
  lifecycle : NativeOastProviderLifecycle := .configured
  registrationAttempted : Bool := false
  callbackAttempts : Nat := 0
  pollAttempts : Nat := 0
  cleanupAttempted : Bool := false
  clockOrigin : Instant
  receipts : List NativeOastProviderReceipt := []
  firstProviderFailure : Option NativeOastProviderErrorKind := none
  cleanupFailure : Option NativeOastProviderErrorKind := none

structure NativeOastAllocatedCallback where
  ordinal : Nat
  callbackId : CallbackId
  target : String
  correlationReceipt : OastRegistrationReceipt
  providerReceipt : NativeOastProviderReceipt

structure NativeOastPollOutcome where
  providerReceipt : NativeOastProviderReceipt
  correlationReceipts : List OastPollReceipt

/-- Diagnostic reduction of a failed request. -/
def providerClientFailureKind : NativeOastClientErrorKind → Option NativeOastHttpFailure →
    NativeOastProviderErrorKind
  | .boundaryRejected _, _ => .operationNotPermitted
  | .cancelled, _ => .cancelled
  | .deadlineExceeded, _ => .deadlineExceeded
  | .responseTooLarge, _ => .responseByteLimit
  | .callbackTargetMismatch, _ => .providerCallbackMismatch
  | .protocolMismatch, _ | .malformedResponse, _ | .unsupportedMedia, _
  | .responseOriginMismatch, _ | .accountingInvariant, _ => .providerResponseInvalid
  | .clientInitialization, _ => .providerClientInitialization
  | .requestConstruction, _ => .providerRequestConstruction
  | .transportFailure, _ => .providerTransportFailure
  | .unexpectedStatus, some .accessRejected => .providerAccessRejected
  | .unexpectedStatus, some .throttled => .providerThrottled
  | .unexpectedStatus, some .notFound => .providerNotFound
  | .unexpectedStatus, some .gone => .providerGone
  | .unexpectedStatus, some .redirectRefused => .providerRedirectRefused
  | .unexpectedStatus, some .serverFailure => .providerServerFailure
  | .unexpectedStatus, _ => .providerUnexpectedStatus

def transportOutcomeForClientError : NativeOastClientErrorKind → TransportDispatchOutcome
  | .cancelled => .cancelled
  | .deadlineExceeded => .requestTimeout
  | .responseTooLarge => .responseBudgetReached
  | _ => .transportFailure

def lifecycleAllows (lifecycle : NativeOastProviderLifecycle) :
    NativeOastProviderOperation → Bool
  | .register => lifecycle = .configured
  | .allocateCallback => lifecycle = .registered || lifecycle = .callbackAllocated
  | .poll => lifecycle = .callbackAllocated || lifecycle = .polling
  | .cleanup => lifecycle = .registered || lifecycle = .callbackAllocated || lifecycle = .polling

/-- `mint`. The client either could not be made, with a failure, or was. -/
def mint (sha256 : Bytes → Bytes) (parse : String → Option Url)
    (client : Option (NativeOastClientErrorKind × Option NativeOastHttpFailure))
    (configuration : NativeOastProviderConfiguration) (targetOrigin : String) (broker : Accounting)
    (parentBudget : RuntimeBudget) (cancelled : Bool) (parentDeadline : Option Instant)
    (now clockOrigin : Instant) : Except NativeOastProviderErrorKind NativeOastProviderAdapter := do
  if let some (kind, httpFailure) := client then throw (providerClientFailureKind kind httpFailure)
  let limits := configuration.limits
  let correlationLimits ← okOr (authorityLimitsNew limits.maxCallbacks limits.maxPolls
    Oast.hardMaxPollEventsPerResponse Oast.hardMaxEventsPerSession limits.maxProviderWallTimeMs)
    .invalidLimits
  let boundary ← mintPermit sha256 parse configuration.origin targetOrigin limits broker parentBudget
    cancelled parentDeadline now
  return { boundary, clockOrigin
           correlations := { epoch := configuration.epoch, assessmentId := configuration.assessmentId,
                             limits := correlationLimits }
           administrator := some configuration.administrator }

/-! ### Requests and receipts -/

abbrev AdapterCommand (α : Type) : Type :=
  Command NativeOastProviderAdapter NativeOastProviderError α

variable (a : NativeOastProviderAdapter) (operation : NativeOastProviderOperation)
  (before : NativeOastProviderLifecycle) {α : Type}

/-- `NativeOastProviderError::new`. -/
def refuse (kind : NativeOastProviderErrorKind) : AdapterCommand α := throw ⟨kind, none⟩

def onBoundary {ε α : Type} (x : Command Boundary ε α) : Command NativeOastProviderAdapter ε α :=
  zoom (·.boundary) (fun a boundary => { a with boundary }) x

def operationReceipt (before after : NativeOastProviderLifecycle)
    (accounting : NativeOastDispatchAccounting)
    (facts : NativeOastProviderReceiptFacts) : NativeOastProviderReceipt where
  providerOrigin := a.boundary.permit.providerOriginFingerprint
  operation := operation
  lifecycleBefore := before
  lifecycleAfter := after
  requestCount := a.boundary.permit.providerRequests
  possiblyDispatched := accounting.possiblyDispatched
  responseCompleted := accounting.responseCompleted
  requestBytes := a.boundary.permit.providerRequestBytes
  responseBytes := a.boundary.permit.providerResponseBytes
  callbackAllocations := min a.callbacks.size u16Max
  pollNumber := a.pollAttempts
  acceptedHttpEvents := facts.acceptedHttpEvents
  duplicateHttpEvents := facts.duplicateHttpEvents
  expired := facts.expired
  cleanupAttempted := operation = .cleanup
  cleanupVerified := facts.cleanupVerified

def recordReceipt (before after : NativeOastProviderLifecycle)
    (accounting : NativeOastDispatchAccounting)
    (facts : NativeOastProviderReceiptFacts) : AdapterCommand NativeOastProviderReceipt := do
  let a ← get
  let receipt := operationReceipt a operation before after accounting facts
  set { a with receipts := a.receipts ++ [receipt] }
  return receipt

/-- `finish_dispatch` from the adapter, where it cannot fail. -/
def settle (outcome : TransportDispatchOutcome) (elapsedMs : Nat) : AdapterCommand Unit :=
  mapErr (fun kind => ⟨kind, none⟩) (onBoundary (finishDispatch outcome elapsedMs))

/-- `client_failure`. -/
def clientFailure (elapsedMs : Nat) (error : NativeOastClientError) :
    AdapterCommand α := do
  settle (transportOutcomeForClientError error.kind) elapsedMs
  let kind ← match error.kind with
    | .boundaryRejected _ => do
      let remembered ← mapErr (fun kind => ⟨kind, none⟩) (onBoundary takeBoundaryError)
      pure (remembered.getD .operationNotPermitted)
    | kind => pure (providerClientFailureKind kind error.httpFailure)
  let a ← get
  let receipt ← recordReceipt operation before a.lifecycle error.accounting {}
  throw ⟨kind, some receipt⟩

/-- A call of the client, and its failure. -/
def request (exchange : Exchange α) :
    AdapterCommand (α × NativeOastDispatchAccounting) := do
  match ← attempt (onBoundary (dispatchWire operation exchange)) with
  | .ok dispatch => do
    settle .completed exchange.elapsedMs
    return dispatch
  | .error error => clientFailure operation before exchange.elapsedMs error

/-! ### Registration and allocation -/

def registerInner (exchange : Exchange SessionRegistration) :
    AdapterCommand NativeOastProviderReceipt := do
  let a ← get
  let before := a.lifecycle
  if !lifecycleAllows before .register || a.registrationAttempted then refuse .registrationLimit
  set { a with registrationAttempted := true }
  if a.administrator.isNone then refuse .registrationLimit
  modify fun a => { a with administrator := none }
  let (registration, accounting) ← request .register before exchange
  modify fun a =>
    { a with
      session := some { id := registration.sessionId, token := registration.sessionToken
                        cursor := EventCursor.start, lifetimeMs := registration.expiresAfterMs }
      lifecycle := .registered }
  recordReceipt .register before .registered accounting {}

/-- The clock of the correlations. -/
def monotonicNow (now : Instant) : Nat :=
  min (asMillis (now - a.clockOrigin)) u64Max

/-- The registration of a correlation, before the callback is requested. -/
def registerCorrelation (sha256 : Bytes → Bytes) (verificationCase : VerificationCase)
    (token : OastCorrelationToken) (session : NativeOastProviderSession) (now later : Instant) :
    AdapterCommand (OastCorrelation × OastRegistrationReceipt) := do
  let a ← get
  let rejected : NativeOastProviderError := ⟨.correlationRejected, none⟩
  let lifetimeMs := min session.lifetimeMs
    (min (asMillis (a.boundary.permit.deadline - later)) u64Max)
  let lifetime ← okOr (lifetimeFromMillis (max lifetimeMs 1)) rejected
  let pollBudget ← okOr (pollBudgetNew a.boundary.permit.limits.maxPolls) rejected
  let protocols ← okOr (protocolSetNew false true) rejected
  mapErr (fun _ => rejected) (zoom (·.correlations) (fun a correlations => { a with correlations })
    (Correlation.register sha256 verificationCase token protocols (monotonicNow a now) lifetime
      pollBudget))

def allocateCallbackInner (sha256 : Bytes → Bytes) (verificationCase : VerificationCase)
    (token : OastCorrelationToken) (now later : Instant) (exchange : Exchange CallbackAllocation) :
    AdapterCommand NativeOastAllocatedCallback := do
  let a ← get
  let before := a.lifecycle
  if !lifecycleAllows before .allocateCallback then refuse .invalidLifecycle
  if a.callbackAttempts ≥ a.boundary.permit.limits.maxCallbacks then refuse .callbackLimit
  let session ← okOr a.session (NativeOastProviderError.mk .internalInvariant none)
  let (correlation, correlationReceipt) ←
    registerCorrelation sha256 verificationCase token session now later
  modify fun a => { a with callbackAttempts := saturatingAdd u16Max a.callbackAttempts 1 }
  let (allocation, accounting) ← request .allocateCallback before exchange
  let a ← get
  if a.callbacks.contains allocation.callbackId then do
    let receipt ← recordReceipt .allocateCallback before before accounting {}
    throw ⟨.providerCallbackMismatch, some receipt⟩
  set { a with
    callbacks := a.callbacks.insert allocation.callbackId correlation
    lifecycle := .callbackAllocated }
  let providerReceipt ← recordReceipt .allocateCallback before .callbackAllocated accounting {}
  let a ← get
  return { ordinal := min a.callbacks.size u16Max, callbackId := allocation.callbackId
           target := allocation.target, correlationReceipt, providerReceipt }

/-! ### Polling -/

section Digests

variable (sha256 : Bytes → Bytes)

def providerEventKey (provider : Bytes) (sessionId : String) (callbackId : CallbackId)
    (eventId : String) : Bytes :=
  sha256 (providerEventKeyDomain ++ hashField provider ++ hashField (utf8Bytes sessionId) ++
    hashField (utf8Bytes callbackId.text) ++ hashField (utf8Bytes eventId))

def reduceProviderHttpEvent (provider : Bytes) (sessionId : String) (callbackId : CallbackId)
    (eventId : String) (scheme : OastHttpScheme) : Except NativeOastProviderErrorKind OastEvent := do
  let eventKey ← okOr (eventKeyNew (providerEventKey sha256 provider sessionId callbackId eventId))
    .internalInvariant
  return .http eventKey ⟨scheme, .unknown, false⟩

end Digests

/-- `validate_poll_page` with `validate_provider_poll_page`. The schema of a
page is the constant of its type. -/
def validatePollPage (page : PollResponse) :
    Except NativeOastProviderErrorKind Unit := do
  let session ← okOr a.session .internalInvariant
  let ready (c : OastCorrelation) : Bool := c.assessmentId = a.correlations.assessmentId &&
    c.state = .active && 0 < c.remainingPolls
  if page.sessionId ≠ session.id then throw .providerSessionMismatch
  if !page.complete then throw .providerPageIncomplete
  if page.expired then throw .providerExpired
  if page.nextCursor.value < session.cursor.value then throw .providerResponseInvalid
  if page.events.any fun event => !a.callbacks.contains event.callbackId then
    throw .providerCallbackMismatch
  if !a.callbacks.toList.all fun entry => ready entry.2 then throw .correlationRejected

/-- A poll of one correlation, whose permit is dropped at its end. -/
def withPermit {ε α : Type} (permit : OastPollPermit) (x : Command Polling ε α) :
    Command OastCorrelation ε α := fun correlation =>
  let dropped (q : Polling) (result : OastCorrelation → Outcome ε OastCorrelation α) :
      Outcome ε OastCorrelation α :=
    match dropPermit q with
    | .ok _ r => result r.correlation
    | _ => .panic
  match x { correlation, permit } with
  | .ok a q => dropped q (.ok a)
  | .error e q => dropped q (.error e)
  | .panic => .panic

/-- What a page is reduced with: the identity of the provider and of the
session, the assessment, the scheme and the time. -/
structure PageContext where
  provider : Bytes
  sessionId : String
  assessmentId : OastAssessmentId
  scheme : OastHttpScheme
  observedAt : Nat

/-- The events of a page that name the callback, staged in order. -/
def stageEvents (sha256 : Bytes → Bytes) (context : PageContext) (callbackId : CallbackId)
    (correlationId : OastCorrelationId) :
    List HttpEventRecord → Command Polling NativeOastProviderErrorKind Unit
  | [] => pure ()
  | event :: events => do
    let reduced ← reduceProviderHttpEvent sha256 context.provider context.sessionId callbackId
      event.eventId.text context.scheme
    mapErr (fun _ => .correlationRejected) (stageEvent correlationId reduced context.observedAt)
    stageEvents sha256 context callbackId correlationId events

/-- One turn of the loop of `reduce_page_atomically`. -/
def reduceCallback (sha256 : Bytes → Bytes) (context : PageContext)
    (events : List HttpEventRecord) (callbackId : CallbackId) :
    Command OastCorrelation NativeOastProviderErrorKind OastPollReceipt := do
  let c ← get
  let permit ← mapErr (fun _ => .correlationRejected)
    (beginPoll context.assessmentId c.verificationCase context.observedAt)
  withPermit permit do
    stageEvents sha256 context callbackId c.correlationId
      (events.filter fun event => event.callbackId = callbackId)
    mapErr (fun _ => .correlationRejected) (Correlation.finish context.observedAt)

/-- The snapshots a page is reduced on, and the receipts so far. -/
structure Reduction where
  snapshots : BTreeMap CallbackId OastCorrelation
  receipts : List OastPollReceipt := []

/-- The loop of `reduce_page_atomically` over the snapshots. -/
def reduceCallbacks (sha256 : Bytes → Bytes) (context : PageContext)
    (events : List HttpEventRecord) :
    List (CallbackId × OastCorrelation) → Command Reduction NativeOastProviderErrorKind Unit
  | [] => pure ()
  | (callbackId, correlation) :: rest => do
    let (receipt, correlation) ← locally correlation (reduceCallback sha256 context events callbackId)
    modify fun reduction =>
      { snapshots := reduction.snapshots.insert callbackId correlation
        receipts := reduction.receipts ++ [receipt] }
    reduceCallbacks sha256 context events rest

/-- `reduce_page_atomically`: no live correlation changes until every snapshot
has committed. -/
def reducePageAtomically (sha256 : Bytes → Bytes) (page : PollResponse)
    (observedAt : Nat) :
    Command NativeOastProviderAdapter NativeOastProviderErrorKind (List OastPollReceipt) := do
  let a ← get
  let session ← okOr a.session NativeOastProviderErrorKind.internalInvariant
  let context : PageContext :=
    { provider := a.boundary.permit.providerOriginFingerprint, sessionId := session.id.text
      assessmentId := a.correlations.assessmentId, observedAt
      scheme := if a.boundary.permit.providerOriginUrl.scheme = "https" then .https else .http }
  let (_, reduction) ← locally { snapshots := a.callbacks }
    (reduceCallbacks sha256 context page.events a.callbacks.toList)
  if reduction.snapshots.size ≠ a.callbacks.size then throw .internalInvariant
  set { a with callbacks := reduction.snapshots }
  return reduction.receipts

/-- The failure of a poll whose page was received. -/
def rejectPage (accounting : NativeOastDispatchAccounting) (facts : NativeOastProviderReceiptFacts)
    (kind : NativeOastProviderErrorKind) : AdapterCommand α := do
  let receipt ← recordReceipt .poll before before accounting facts
  throw ⟨kind, some receipt⟩

def pollInner (sha256 : Bytes → Bytes) (exchange : Exchange PollResponse) (now : Instant) :
    AdapterCommand NativeOastPollOutcome := do
  let a ← get
  let before := a.lifecycle
  if !lifecycleAllows before .poll then refuse .invalidLifecycle
  if a.pollAttempts ≥ a.boundary.permit.limits.maxPolls then refuse .pollLimit
  set { a with pollAttempts := saturatingAdd u16Max a.pollAttempts 1 }
  if a.session.isNone then refuse .internalInvariant
  let (page, accounting) ← request .poll before exchange
  let a ← get
  if let .error kind := validatePollPage a page then
    rejectPage before accounting
      { duplicateHttpEvents := (page.events.map HttpEventRecord.duplicateCount).sum % 2 ^ 64
        expired := page.expired } kind
  match ← attempt (reducePageAtomically sha256 page (monotonicNow a now)) with
  | .error kind => rejectPage before accounting {} kind
  | .ok correlationReceipts => do
    let accepted := correlationReceipts.foldl
      (fun total receipt => saturatingAdd u16Max total receipt.acceptedEvents) 0
    let correlationDuplicates := correlationReceipts.foldl
      (fun total receipt => saturatingAdd u64Max total receipt.duplicateEvents) 0
    let providerDuplicates := page.events.foldl
      (fun total event => saturatingAdd u64Max total event.duplicateCount) 0
    modify fun a =>
      { a with
        session := a.session.map fun session => { session with cursor := page.nextCursor }
        lifecycle := .polling }
    let providerReceipt ← recordReceipt .poll before .polling accounting
      { acceptedHttpEvents := accepted
        duplicateHttpEvents := saturatingAdd u64Max correlationDuplicates providerDuplicates }
    return { providerReceipt, correlationReceipts }

/-! ### Cleanup -/

/-- `cleanup_inner`. The client answers whether the session was removed; the
adapter has closed in both cases. -/
def cleanupInner (exchange : Exchange Bool) : AdapterCommand NativeOastProviderReceipt := do
  let a ← get
  let before := a.lifecycle
  if !lifecycleAllows before .cleanup || a.cleanupAttempted then refuse .invalidLifecycle
  set { a with cleanupAttempted := true, lifecycle := .closing }
  if a.session.isNone then refuse .internalInvariant
  let result ← attempt (onBoundary (dispatchWire .cleanup exchange))
  modify fun a => { a with lifecycle := .closed, session := none }
  match result with
  | .ok (verified, accounting) => do
    settle .completed exchange.elapsedMs
    let receipt ← recordReceipt .cleanup before .closed accounting { cleanupVerified := verified }
    if verified then return receipt else throw ⟨.cleanupUnverified, some receipt⟩
  | .error error => clientFailure .cleanup before exchange.elapsedMs error

/-! ### Calls -/

/-- `observe_operation_result`: the first failure is kept. -/
def observed (x : AdapterCommand α) :
    AdapterCommand α :=
  tryCatch x fun error => do
    modify fun a =>
      if operation = .cleanup then { a with cleanupFailure := a.cleanupFailure.or (some error.kind) }
      else { a with firstProviderFailure := a.firstProviderFailure.or (some error.kind) }
    throw error

/-- A completed operation of the adapter with what it meets outside, or a call
of another holder of the broker. -/
inductive AdapterCall where
  | register (exchange : Exchange SessionRegistration)
  | allocateCallback (verificationCase : VerificationCase) (token : OastCorrelationToken)
    (now later : Instant) (exchange : Exchange CallbackAllocation)
  | poll (exchange : Exchange PollResponse) (now : Instant)
  | cleanup (exchange : Exchange Bool)
  | other (op : AccountingOp)

inductive AdapterReply where
  | registered (receipt : NativeOastProviderReceipt)
  | allocated (callback : NativeOastAllocatedCallback)
  | polled (outcome : NativeOastPollOutcome)
  | cleaned (receipt : NativeOastProviderReceipt)
  | other

def AdapterCall.exec (sha256 : Bytes → Bytes) : AdapterCall → AdapterCommand AdapterReply
  | .register exchange => .registered <$> observed .register (registerInner exchange)
  | .allocateCallback verificationCase token now later exchange =>
    .allocated <$> observed .allocateCallback
      (allocateCallbackInner sha256 verificationCase token now later exchange)
  | .poll exchange now => .polled <$> observed .poll (pollInner sha256 exchange now)
  | .cleanup exchange => .cleaned <$> observed .cleanup (cleanupInner exchange)
  | .other op => do
    mapErr (fun kind => ⟨kind, none⟩) (onBoundary (byOther op))
    return .other

end Termivar.NativeOast
