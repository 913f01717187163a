/-
# The run of an external-entity review

`termivar-scanner/src/web_runtime/xml_external_entity_runtime.rs`: a provider
session with three callbacks, a preflight poll, and three legs that each send
one document to the target and then poll for callbacks. A leg that stops ends
the run; every run cleans the provider up and reports an audit.

What the run meets outside (the exchanges with the provider and the target,
the clock, the cancellation token) is a script. The review keeps a trace of
its polls and of the cancellations it reads, which the source does not have.
-/
import Termivar.NativeOast.Adapter
import Termivar.XmlReview.Audit

namespace Termivar.XmlReview

open Command
open Termivar.Correlation
open Termivar.NativeOast
open Termivar.Oast (CallbackAllocation PollResponse SessionRegistration)
open Termivar.Runtime (Accounting DecisionActionOrigin DecisionExecutionStage RuntimeBudget
  TransportDispatchOutcome TransportDispatchReceipt)

abbrev Role : Type := XmlExternalEntityDocumentRole

def reviewActionId : String := "web.review.xml.external-entity-resolution@1"
def providerRequestBytes : Nat := 64 * 1024
def providerResponseBytes : Nat := 1024 * 1024

/-! ### Facts -/

inductive RuntimeStopReason where
  | cancelled
  | budgetExhausted
  | incomplete
  deriving DecidableEq

structure RuntimeFacts where
  targetRequestBodyBytes : Nat := 0
  targetResponseBytes : Nat := 0
  targetComplete : Bool := false
  preflightClean : Bool := false
  controlEvents : BTreeSet OastEventKey := ∅
  candidateEvents : BTreeSet OastEventKey := ∅
  replayEvents : BTreeSet OastEventKey := ∅
  callbackTargetsDistinct : Bool := false
  phaseContaminated : Bool := false
  cleanupVerified : Bool := false
  targetAccountingComplete : Bool := false
  providerAccountingComplete : Bool := false
  stopReason : Option RuntimeStopReason := none

variable (setting : ReviewSetting) (facts : RuntimeFacts) (script : ReviewScript)
  (bindings : CallbackBindings)

/-- The events of the callback of a role. -/
def RuntimeFacts.events : Role → BTreeSet OastEventKey
  | .control => facts.controlEvents
  | .candidate => facts.candidateEvents
  | .replay => facts.replayEvents

structure CallbackBindings where
  (control candidate replay : OastCorrelationId)

def insertAccepted (events : BTreeSet OastEventKey) (receipts : List OastEventReceipt) :
    BTreeSet OastEventKey :=
  receipts.foldl
    (fun events event =>
      if event.disposition = .accepted then events.insert event.eventKey else events) events

/-- One turn of the loop of `absorb_poll`. -/
def absorbReceipt (facts : RuntimeFacts) (receipt : OastPollReceipt) :
    RuntimeFacts :=
  if receipt.correlationId = bindings.control then
    { facts with controlEvents := insertAccepted facts.controlEvents receipt.eventReceipts }
  else if receipt.correlationId = bindings.candidate then
    { facts with candidateEvents := insertAccepted facts.candidateEvents receipt.eventReceipts }
  else if receipt.correlationId = bindings.replay then
    { facts with replayEvents := insertAccepted facts.replayEvents receipt.eventReceipts }
  else facts

def absorbPoll (facts : RuntimeFacts) (poll : NativeOastPollOutcome) :
    RuntimeFacts :=
  poll.correlationReceipts.foldl (absorbReceipt bindings) facts

def markPhaseContamination (dispatchedRole : Role) : RuntimeFacts :=
  { facts with
    phaseContaminated := facts.phaseContaminated || match dispatchedRole with
      | .control => !facts.candidateEvents.isEmpty || !facts.replayEvents.isEmpty
      | .candidate => !facts.replayEvents.isEmpty
      | .replay => false }

def isDisjoint (left right : BTreeSet OastEventKey) : Bool :=
  left.toList.all fun key => !right.contains key

/-! ### Outcomes -/

def outcomeForProviderError : NativeOastProviderErrorKind → XmlExternalEntityReviewOutcome
  | .cancelled => .cancelled
  | .runtimeBudget _ | .parentBudgetTooSmall | .requestLimit | .requestByteLimit
  | .responseByteLimit | .pollLimit | .deadlineExceeded => .budgetExhausted
  | _ => .incomplete

def stopReasonForProviderError (kind : NativeOastProviderErrorKind) : RuntimeStopReason :=
  match outcomeForProviderError kind with
  | .cancelled => .cancelled
  | .budgetExhausted => .budgetExhausted
  | _ => .incomplete

def isStoppedOutcome : XmlExternalEntityReviewOutcome → Bool
  | .cancelled | .budgetExhausted | .incomplete | .cleanupIncomplete => true
  | _ => false

/-- `classify_outcome`, at a reading of the cancellation token. -/
def classifyOutcome (cancelled : Bool) (facts : RuntimeFacts) : XmlExternalEntityReviewOutcome :=
  let lifecycleComplete := facts.targetComplete && facts.targetAccountingComplete &&
    facts.providerAccountingComplete
  if (cancelled || facts.stopReason = some .cancelled) && !lifecycleComplete then .cancelled
  else if !facts.preflightClean then .preflightContaminated
  else if !facts.controlEvents.isEmpty then .controlCallbackObserved
  else if facts.stopReason = some .budgetExhausted then .budgetExhausted
  else if !facts.cleanupVerified then .cleanupIncomplete
  else if facts.phaseContaminated then .correlationMismatch
  else if facts.stopReason = some .incomplete || !facts.targetComplete ||
      !facts.targetAccountingComplete || !facts.providerAccountingComplete then .incomplete
  else match facts.candidateEvents.isEmpty, facts.replayEvents.isEmpty with
    | true, true => .noCallback
    | false, true => .candidateOnly
    | true, false => .replayOnly
    | false, false =>
      if isDisjoint facts.candidateEvents facts.replayEvents then
        .repeatedExternalEntityResolutionObserved
      else .correlationMismatch

/-! ### Target requests -/

/-- What ends a request before its response is whole: the transport, the
timeout of the request, or the run that drops it. -/
inductive Interruption where
  | failed
  | timedOut
  | dropped (reason : RuntimeStopReason)

/-- A chunk of a response, with what the budget of the session has left when
the read begins and when the chunk is counted. -/
structure TargetChunk where
  (available bytes remaining : Nat)

/-- The chunks of a response and its end. -/
structure TargetBody where
  chunks : List TargetChunk
  available : Nat
  last : Except Interruption Unit

/-- What one target request meets outside the run. -/
inductive TargetExchange where
  /-- The request ends before its dispatch is admitted. -/
  | unsent (reason : RuntimeStopReason)
  | sent (head : Except Interruption Url) (body : TargetBody) (sequence elapsedMs : Nat)
    (auditHasRoom : Bool)

/-- The response so far, and the accounting of its lease. -/
structure TargetReading where
  bodyBytes : Nat := 0
  responseBytes : Nat := 0
  budgetReached : Bool := false
  bodyComplete : Bool := false

/-- The loop of `collect_built_request` over the body. -/
def readTarget (limit : Nat) (body : TargetBody) :
    List TargetChunk → TargetReading → TargetReading × Except Interruption Unit
  | [], reading =>
    if limit - reading.bodyBytes = 0 ∨ body.available = 0 then (reading, .ok ())
    else match body.last with
      | .ok () => ({ reading with bodyComplete := true }, .ok ())
      | .error interruption => (reading, .error interruption)
  | chunk :: chunks, reading =>
    if limit - reading.bodyBytes = 0 ∨ chunk.available = 0 then (reading, .ok ())
    else
      let retained := min (min chunk.bytes chunk.remaining) (limit - reading.bodyBytes)
      let reading :=
        { reading with
          bodyBytes := reading.bodyBytes + retained
          responseBytes := saturatingAdd u64Max reading.responseBytes chunk.bytes
          budgetReached :=
            reading.budgetReached || (chunk.bytes > 0 && chunk.bytes ≥ chunk.remaining) }
      if retained < chunk.bytes then (reading, .ok ()) else readTarget limit body chunks reading

def stageOf : Role → DecisionExecutionStage
  | .control | .replay => .passive
  | .candidate => .active

def originOf : Role → Option DecisionActionOrigin
  | .control | .replay => some .planned
  | .candidate => none

def interruptionOutcome : Interruption → TransportDispatchOutcome
  | .failed => .transportFailure
  | .timedOut => .requestTimeout
  | .dropped _ => .cancelled

def interruptionReason : Interruption → RuntimeStopReason
  | .failed | .timedOut => .incomplete
  | .dropped reason => reason

structure CollectedHttpResponse where
  finalUrl : Url
  bodyBytes : Nat
  bodyComplete : Bool

/-- What a target request leaves: its result, and the receipt of its lease if
one was begun, with whether the audit had room for it. -/
structure Collected where
  receipt : Option (TransportDispatchReceipt × Bool)
  result : Except RuntimeStopReason CollectedHttpResponse

def targetReceipt (role : Role) (requestBodyBytes responseBytes sequence elapsedMs : Nat)
    (outcome : TransportDispatchOutcome) : TransportDispatchReceipt where
  sequence := sequence
  actionId := reviewActionId
  stage := stageOf role
  origin := originOf role
  requestBodyBytes := requestBodyBytes
  responseBytes := responseBytes
  elapsedMs := elapsedMs
  outcome := outcome

/-- `collect_target_with_runtime_bounds`. -/
def collectTarget (limit : Nat) (role : Role) (requestBodyBytes : Nat) : TargetExchange → Collected
  | .unsent reason => ⟨none, .error reason⟩
  | .sent head body sequence elapsedMs auditHasRoom =>
    let receipt := fun responseBytes outcome =>
      some (targetReceipt role requestBodyBytes responseBytes sequence elapsedMs outcome,
        auditHasRoom)
    match head with
    | .error interruption =>
      ⟨receipt 0 (interruptionOutcome interruption), .error (interruptionReason interruption)⟩
    | .ok finalUrl =>
      match readTarget limit body body.chunks {} with
      | (reading, .error interruption) =>
        ⟨receipt reading.responseBytes (interruptionOutcome interruption),
          .error (interruptionReason interruption)⟩
      | (reading, .ok ()) =>
        ⟨receipt reading.responseBytes
            (if reading.budgetReached then .responseBudgetReached else .completed),
          .ok ⟨finalUrl, reading.bodyBytes, reading.bodyComplete⟩⟩

/-! ### Accounting -/

structure TargetAccounting where
  (requestCount requestBodyBytes responseBytes : Nat)
  complete : Bool

def roles : List Role := [.control, .candidate, .replay]

def shapeComplete (receipts : List TransportDispatchReceipt) (expectedBodyLengths : List Nat) : Bool :=
  receipts.length = targetRequests && expectedBodyLengths.length = targetRequests &&
    (roles.zip (receipts.zip expectedBodyLengths)).all fun (role, receipt, expected) =>
      receipt.stage = stageOf role && receipt.origin = originOf role &&
        receipt.requestBodyBytes = expected && receipt.outcome = .completed

/-- `target_accounting`, over the receipts of the action in the audit. -/
def targetAccounting (receipts : List TransportDispatchReceipt) (omittedReceiptCount : Nat)
    (expectedBodyLengths : List Nat) (targetComplete : Bool) : TargetAccounting where
  requestCount := min receipts.length u8Max
  requestBodyBytes := receipts.foldl
    (fun total receipt => saturatingAdd u64Max total receipt.requestBodyBytes) 0
  responseBytes := receipts.foldl
    (fun total receipt => saturatingAdd u64Max total receipt.responseBytes) 0
  complete := targetComplete && omittedReceiptCount = 0 && shapeComplete receipts expectedBodyLengths

def providerAccountingIsComplete (provider : NativeOastProviderAdapter) : Bool :=
  let receipts := provider.receipts
  let minimum := 1 + 3 + 1 + 3 + 1
  receipts.length ≥ minimum && receipts.length ≤ maxProviderRequests &&
    (receipts.map NativeOastProviderReceipt.requestCount) = (List.range receipts.length).map (· + 1) &&
    receipts.head?.any (·.operation = .register) &&
    ((receipts.drop 1).take 3).all (·.operation = .allocateCallback) &&
    ((receipts.drop 4).take (receipts.length - 1 - 4)).all (·.operation = .poll) &&
    receipts.getLast?.any (·.operation = .cleanup) &&
    provider.boundary.permit.providerRequests = min receipts.length u16Max

/-! ### The audit of a run -/

/-- Where a run ends in `XmlExternalEntityRuntimeError::Invariant`, which keeps
no cause. -/
inductive ReviewFailure where
  | earlierReceipts
  | limits
  | plan
  | broker
  | document
  | evidence
  | audit (error : XmlExternalEntityAuditError)
  deriving DecidableEq

inductive XmlExternalEntityRuntimeResult where
  | complete (audit : XmlExternalEntityAuditFacts) (committed : Bool)
  | stopped (audit : XmlExternalEntityAuditFacts)

def XmlExternalEntityRuntimeResult.audit : XmlExternalEntityRuntimeResult → XmlExternalEntityAuditFacts
  | complete audit _ => audit
  | stopped audit => audit

def auditFacts (targetRequestCount providerRequestCount : Nat)
    (itemProjected : Bool) (outcome : XmlExternalEntityReviewOutcome) :
    XmlExternalEntityAuditFacts where
  outcome := outcome
  targetRequestCount := targetRequestCount
  providerRequestCount := min providerRequestCount u8Max
  activeVerificationCount := (decide (targetRequestCount ≥ 2)).toNat
  targetRequestBodyBytes := facts.targetRequestBodyBytes
  targetResponseBytes := facts.targetResponseBytes
  targetComplete := facts.targetComplete
  preflightClean := facts.preflightClean
  controlCallbackObserved := !facts.controlEvents.isEmpty
  candidateCallbackObserved := !facts.candidateEvents.isEmpty
  replayCallbackObserved := !facts.replayEvents.isEmpty
  callbackTargetsDistinct := facts.callbackTargetsDistinct
  eventIdentitiesDistinct := !facts.phaseContaminated && !facts.candidateEvents.isEmpty &&
    !facts.replayEvents.isEmpty && isDisjoint facts.candidateEvents facts.replayEvents
  cleanupVerified := facts.cleanupVerified
  targetAccountingComplete := facts.targetAccountingComplete
  providerAccountingComplete := facts.providerAccountingComplete
  itemProjected := itemProjected

/-- `audit`. -/
def auditNew (targetRequestCount providerRequestCount : Nat)
    (itemProjected : Bool) (outcome : XmlExternalEntityReviewOutcome) :
    Except ReviewFailure XmlExternalEntityAuditFacts :=
  let audit := auditFacts facts targetRequestCount providerRequestCount itemProjected outcome
  match validateAuditFacts audit with
  | .ok () => .ok audit
  | .error error => .error (.audit error)

/-- `terminal_result`: what a run that stops before its legs reports. -/
def terminalResult (receipts : List TransportDispatchReceipt)
    (providerRequests : Nat) (outcome : XmlExternalEntityReviewOutcome) :
    Except ReviewFailure XmlExternalEntityRuntimeResult := do
  let target := targetAccounting receipts 0 [] false
  let facts :=
    { facts with
      targetRequestBodyBytes := target.requestBodyBytes
      targetResponseBytes := target.responseBytes
      targetAccountingComplete := false }
  return .stopped (← auditNew facts target.requestCount providerRequests false outcome)

/-! ### The review -/

/-- What happens in a run, in order. -/
inductive ReviewEvent where
  /-- A poll of a leg, or of the preflight, and the accepted events it brought. -/
  | polled (leg : Option Role) (brought : List (Role × OastEventKey))
  /-- A cancellation is read. -/
  | cancelled
  /-- A target receipt finds the audit full. -/
  | omitted

/-- The locals of a run; `targetReceipts` are the receipts of its action in the
audit of the broker. -/
structure Record where
  facts : RuntimeFacts := {}
  targetReceipts : List TransportDispatchReceipt := []
  omittedReceipts : Nat := 0
  expectedBodyLengths : List Nat := []
  targetComplete : Bool := true
  trace : List ReviewEvent := []

structure Review extends Record where
  provider : NativeOastProviderAdapter

abbrev ReviewCommand (α : Type) : Type := Command Review ReviewFailure α

/-- Readings of the token and the clock around a wait. -/
structure Wait where
  cancelled : Bool := false
  now : Instant
  cancelledMeanwhile : Bool := false

structure PollScript where
  exchange : Exchange PollResponse
  now : Instant

structure AllocationScript where
  /-- Random bytes that are not all zero, if there are any. -/
  token : Option OastCorrelationToken
  (now later : Instant)
  exchange : Exchange CallbackAllocation

structure LegScript where
  cancelled : Bool := false
  exchange : TargetExchange
  waits : Nat → Wait
  polls : Nat → PollScript

/-- What a run meets outside. -/
structure ReviewScript where
  register : Exchange SessionRegistration
  allocate : Role → AllocationScript
  preflight : PollScript
  brokerBuilt : Bool := true
  leg : Role → LegScript
  cleanup : Exchange Bool
  /-- The receipts of others that found the audit full. -/
  omittedByOthers : Nat := 0
  cancelled : Bool := false
  evidenceCommitted : Bool := true

/-- What a run is given. -/
structure ReviewSetting where
  sha256 : Bytes → Bytes
  policy : XmlExternalEntityReviewPolicy
  validateCallbackTarget : String → Option Url
  subject : EntityId
  deadline : Option Instant
  maxBodyBytes : Nat

/-- `wait_for_poll`. -/
def waitForPoll (deadline : Option Instant) (intervalMs : Nat) (wait : Wait) :
    Except RuntimeStopReason Unit := do
  if wait.cancelled then throw .cancelled
  if deadline.any (wait.now ≥ ·) then throw .budgetExhausted
  if deadline.any (wait.now + fromMillis intervalMs ≥ ·) then
    throw (if wait.cancelledMeanwhile then .cancelled else .budgetExhausted)
  if wait.cancelledMeanwhile then throw .cancelled

def reviewCase (subject : EntityId) (role : Role) : VerificationCase where
  id := "xml-external-entity:" ++ role.asStr
  subject := subject
  actionId := reviewActionId
  hypothesisId := "xml-external-entity-resolution-review"
  appliesHypothesisTransition := false
  id_notBlank := by cases role <;> decide +kernel
  actionId_notBlank := by decide +kernel
  hypothesisId_notBlank := by decide +kernel

/-- A call on the provider, whose error is looked at by its kind. -/
def onProvider {α : Type} (x : AdapterCommand α) :
    ReviewCommand (Except NativeOastProviderErrorKind α) :=
  attempt (mapErr NativeOastProviderError.kind
    (zoom Review.provider (fun r provider => { r with provider }) x))

def allocateCallback (role : Role) (script : AllocationScript) :
    ReviewCommand (Except NativeOastProviderErrorKind NativeOastAllocatedCallback) :=
  match script.token with
  | none => pure (.error .internalInvariant)
  | some token => onProvider (NativeOast.observed .allocateCallback (allocateCallbackInner setting.sha256
      (reviewCase setting.subject role) token script.now script.later script.exchange))

def CallbackBindings.roleOf (id : OastCorrelationId) : Option Role :=
  if id = bindings.control then some .control
  else if id = bindings.candidate then some .candidate
  else if id = bindings.replay then some .replay
  else none

/-- The accepted events of a poll with their roles. -/
def brought (receipts : List OastPollReceipt) :
    List (Role × OastEventKey) :=
  receipts.flatMap fun receipt =>
    match bindings.roleOf receipt.correlationId with
    | none => []
    | some role => (receipt.eventReceipts.filter fun event => event.disposition = .accepted).map
        fun event => (role, event.eventKey)

/-- A poll whose page is absorbed. -/
def pollProvider (leg : Option Role)
    (script : PollScript) : ReviewCommand (Except NativeOastProviderErrorKind Unit) := do
  match ← onProvider (NativeOast.observed .poll (pollInner setting.sha256 script.exchange script.now)) with
  | .error kind => return .error kind
  | .ok poll => do
    modify fun r =>
      { r with
        facts := absorbPoll bindings r.facts poll
        trace := r.trace ++ [.polled leg (brought bindings poll.correlationReceipts)] }
    return .ok ()

/-- The leg ends with a reason. -/
def stop (reason : RuntimeStopReason) : ReviewCommand Unit :=
  modify fun r =>
    { r with
      facts := { r.facts with stopReason := some reason }
      targetComplete := false
      trace := r.trace ++ if reason = .cancelled then [.cancelled] else [] }

/-- The polls of a leg. -/
def pollLeg (setting : ReviewSetting) (bindings : CallbackBindings) (role : Role)
    (script : LegScript) : Nat → Nat → ReviewCommand Unit
  | 0, _ => pure ()
  | rest + 1, index => do
    match waitForPoll setting.deadline setting.policy.pollIntervalMs (script.waits index) with
    | .error reason => stop reason
    | .ok () => do
      match ← pollProvider setting bindings (some role) (script.polls index) with
      | .error kind => stop (stopReasonForProviderError kind)
      | .ok () => do
        modify fun r => { r with facts := markPhaseContamination r.facts role }
        let r ← get
        if role = .candidate ∧ !r.facts.candidateEvents.isEmpty then return
        if role = .replay ∧ !r.facts.replayEvents.isEmpty then return
        pollLeg setting bindings role script rest (index + 1)

/-- The target request of a leg, whose receipt goes to the audit. -/
def dispatchTarget (role : Role) (document : XmlExternalEntityDocument)
    (exchange : TargetExchange) : ReviewCommand (Except RuntimeStopReason CollectedHttpResponse) := do
  let collected := collectTarget (min setting.maxBodyBytes maxTargetResponseBytes) role
    document.bytes.length exchange
  match collected.receipt with
  | none => pure ()
  | some (receipt, true) =>
    modify fun r => { r with targetReceipts := r.targetReceipts ++ [receipt] }
  | some (_, false) =>
    modify fun r =>
      { r with
        omittedReceipts := saturatingAdd u64Max r.omittedReceipts 1
        trace := r.trace ++ [.omitted] }
  return collected.result

/-- The document of a leg, its request and its polls. -/
def runLeg (role : Role)
    (document : XmlExternalEntityDocument) (script : LegScript) : ReviewCommand Unit := do
  let bodyLength := document.bytes.length
  if bodyLength > maxDocumentBytes then throw .document
  modify fun r =>
    { r with
      expectedBodyLengths := r.expectedBodyLengths ++ [bodyLength]
      facts := { r.facts with
        targetRequestBodyBytes := saturatingAdd u64Max r.facts.targetRequestBodyBytes bodyLength } }
  if document.policyId ≠ setting.policy.policyId ∨ bodyLength > maxDocumentBytes then
    throw .document
  match ← dispatchTarget setting role document script.exchange with
  | .error reason => stop reason
  | .ok response => do
    modify fun r =>
      { r with facts := { r.facts with
          targetResponseBytes :=
            saturatingAdd u64Max r.facts.targetResponseBytes response.bodyBytes } }
    if response.finalUrl ≠ setting.policy.endpoint ∨ !response.bodyComplete then stop .incomplete
    else pollLeg setting bindings role script setting.policy.pollsPerLeg 0

/-- The loop over the legs, which a leg that is not complete ends. -/
def runLegs (setting : ReviewSetting) (bindings : CallbackBindings)
    (plan : XmlExternalEntityDocumentPlan) (script : Role → LegScript) :
    List Role → ReviewCommand Unit
  | [] => pure ()
  | role :: rest => do
    if (script role).cancelled then stop .cancelled
    else do
      let r ← get
      if role ≠ .control ∧ !r.facts.controlEvents.isEmpty then
        set { r with targetComplete := false }
      else do
        runLeg setting bindings role (plan.document role) (script role)
        let r ← get
        if r.targetComplete = true then
          if r.facts.phaseContaminated = true then set { r with targetComplete := false }
          else runLegs setting bindings plan script rest

/-- The cleanup of the provider, and whether it was verified. -/
def cleanupProvider : ReviewCommand Bool := do
  match ← onProvider (NativeOast.observed .cleanup (cleanupInner script.cleanup)) with
  | .ok receipt => return receipt.cleanupVerified
  | .error _ => return false

/-- `terminal_with_provider`. -/
def terminalWithProvider (outcome : XmlExternalEntityReviewOutcome) :
    ReviewCommand XmlExternalEntityRuntimeResult := do
  let cleanupVerified ← cleanupProvider script
  modify fun r =>
    { r with facts := { r.facts with cleanupVerified, providerAccountingComplete := false } }
  let r ← get
  terminalResult r.facts r.targetReceipts r.provider.boundary.permit.providerRequests outcome

/-- `cleanup_then_error`. -/
def cleanupThenError {α : Type} (failure : ReviewFailure) :
    ReviewCommand α := do
  let _ ← cleanupProvider script
  throw failure

/-- The facts of a run whose legs were started, after its cleanup. -/
def concludedFacts (r : Review) (cleanupVerified : Bool) : RuntimeFacts :=
  let targetComplete := r.targetComplete && r.expectedBodyLengths.length = targetRequests
  let target := targetAccounting r.targetReceipts
    (saturatingAdd u64Max r.omittedReceipts script.omittedByOthers) r.expectedBodyLengths
    targetComplete
  { r.facts with
    targetComplete
    cleanupVerified
    providerAccountingComplete := providerAccountingIsComplete r.provider
    targetRequestBodyBytes := target.requestBodyBytes
    targetResponseBytes := target.responseBytes
    targetAccountingComplete := target.complete }

/-- The outcome of a run and its audit. -/
def conclusion (cancelled evidenceCommitted : Bool) (facts : RuntimeFacts)
    (targetRequestCount providerRequests : Nat) :
    Except ReviewFailure XmlExternalEntityRuntimeResult := do
  let outcome := classifyOutcome cancelled facts
  let positive : Bool := outcome = .repeatedExternalEntityResolutionObserved
  if positive && !evidenceCommitted then throw .evidence
  let audit ← auditNew facts targetRequestCount providerRequests positive outcome
  if positive then return .complete audit true
  else if facts.phaseContaminated || isStoppedOutcome outcome then return .stopped audit
  else return .complete audit false

/-- The end of a run whose legs were started. -/
def concludeReview : ReviewCommand XmlExternalEntityRuntimeResult := do
  let cleanupVerified ← cleanupProvider script
  let r ← get
  let facts := concludedFacts script r cleanupVerified
  set { r with facts, trace := r.trace ++ if script.cancelled then [ReviewEvent.cancelled] else [] }
  conclusion script.cancelled script.evidenceCommitted facts (min r.targetReceipts.length u8Max)
    r.provider.boundary.permit.providerRequests

/-- The preflight poll and the legs, once the callbacks are allocated. -/
def reviewPlanned (plan : XmlExternalEntityDocumentPlan) :
    ReviewCommand XmlExternalEntityRuntimeResult := do
  modify fun r => { r with facts := { r.facts with callbackTargetsDistinct := true } }
  match ← pollProvider setting bindings none script.preflight with
  | .error kind => terminalWithProvider script (outcomeForProviderError kind)
  | .ok () => do
    modify fun r =>
      { r with facts := { r.facts with
          preflightClean := r.facts.controlEvents.isEmpty && r.facts.candidateEvents.isEmpty &&
            r.facts.replayEvents.isEmpty } }
    let r ← get
    if !r.facts.preflightClean then terminalWithProvider script .preflightContaminated
    else if !script.brokerBuilt then cleanupThenError script .broker
    else
      match ← attempt (runLegs setting bindings plan script.leg roles) with
      | .error failure => cleanupThenError script failure
      | .ok () => concludeReview script

/-- `execute_review` with a provider. -/
def reviewMinted :
    ReviewCommand XmlExternalEntityRuntimeResult := do
  match ← onProvider (NativeOast.observed .register (registerInner script.register)) with
  | .error kind => terminalWithProvider script (outcomeForProviderError kind)
  | .ok _ =>
  match ← allocateCallback setting .control (script.allocate .control) with
  | .error kind => terminalWithProvider script (outcomeForProviderError kind)
  | .ok control =>
  match ← allocateCallback setting .candidate (script.allocate .candidate) with
  | .error kind => terminalWithProvider script (outcomeForProviderError kind)
  | .ok candidate =>
  match ← allocateCallback setting .replay (script.allocate .replay) with
  | .error kind => terminalWithProvider script (outcomeForProviderError kind)
  | .ok replay =>
    let bindings : CallbackBindings :=
      { control := control.correlationReceipt.correlationId
        candidate := candidate.correlationReceipt.correlationId
        replay := replay.correlationReceipt.correlationId }
    match planNew setting.policy.policyId setting.validateCallbackTarget control.target
        candidate.target replay.target with
    | .error _ => cleanupThenError script .plan
    | .ok plan => reviewPlanned setting script bindings plan

/-- What the provider is minted with. -/
structure ProviderSetting where
  parse : String → Option Url
  client : Option (NativeOastClientErrorKind × Option NativeOastHttpFailure) := none
  /-- The configuration is refused. -/
  refused : Option NativeOastProviderErrorKind := none
  origin : String
  assessmentId : OastAssessmentId
  epoch : OastAuthorityEpoch
  administrator : Bytes
  targetOrigin : String
  broker : Accounting
  parentBudget : RuntimeBudget
  cancelled : Bool := false
  (now clockOrigin : Instant)

def mintProvider (provider : ProviderSetting)
    (limits : NativeOastProviderLimits) :
    Except NativeOastProviderErrorKind NativeOastProviderAdapter :=
  match provider.refused with
  | some kind => .error kind
  | none =>
    mint setting.sha256 provider.parse provider.client
      { origin := provider.origin, assessmentId := provider.assessmentId, epoch := provider.epoch
        administrator := provider.administrator, limits }
      provider.targetOrigin provider.broker provider.parentBudget provider.cancelled setting.deadline
      provider.now provider.clockOrigin

/-- `execute_review`. A run that panics has no result. -/
def executeReview (provider : ProviderSetting) (earlierReceipts : Nat)
    (script : ReviewScript) :
    Option (Except ReviewFailure XmlExternalEntityRuntimeResult × Record) :=
  if earlierReceipts ≠ 0 then some (.error .earlierReceipts, {})
  else match NativeOastProviderLimits.new 1 3 maxProviderRequests
      (1 + setting.policy.pollsPerLeg * 3) providerRequestBytes providerResponseBytes
      setting.policy.lifetimeMs with
    | .error _ => some (.error .limits, {})
    | .ok limits =>
      match mintProvider setting provider limits with
      | .error kind => some (terminalResult {} [] 0 (outcomeForProviderError kind), {})
      | .ok adapter => (reply (reviewMinted setting script) { provider := adapter }).map
          fun q => (q.1, q.2.toRecord)

end Termivar.XmlReview
