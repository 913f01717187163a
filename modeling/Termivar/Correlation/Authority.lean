/-
# Callback correlation

`termivar-scanner/src/oast.rs`: an authority that consumes tokens and gives out
registrations, and the registrations themselves, which spend polls, stage the
events of a poll in a move-only permit and commit them as one batch. A
registration is borrowed by its permit while a poll is open, so that nothing
else can be done to it; a permit that is dropped or fails to finish gives the
poll up.
-/
import Termivar.Verification.Case

namespace Termivar.Correlation

open Command

def maxAssessmentIdBytes : Nat := 256
def maxVerificationBindingComponentBytes : Nat := 256
def hardMaxRegistrations : Nat := 4096
def hardMaxPolls : Nat := 64
def hardMaxEventsPerPoll : Nat := 64
def hardMaxUniqueEvents : Nat := 1024
def hardMaxLifetimeMillis : Nat := 86400000

def tokenReuseDomain : Bytes := utf8Bytes "security.oast-correlation.token-reuse.v1" ++ [0]
def bindingIdDomain : Bytes := utf8Bytes "security.oast-correlation.binding.v1" ++ [0]
def correlationIdDomain : Bytes := utf8Bytes "security.oast-correlation.id.v1" ++ [0]

/-! ### Validated inputs -/

/-- Callback protocol family, in declaration order. -/
inductive OastEventProtocol where
  | dns
  | http
  deriving DecidableEq

namespace OastEventProtocol

def rank : OastEventProtocol → Nat
  | .dns => 0
  | .http => 1

theorem rank_injective : Function.Injective rank := by
  intro a b h
  cases a <;> cases b <;> simp_all [rank]

end OastEventProtocol

/-- Failures of state transitions. -/
inductive OastError where
  | registrationCapacityExhausted
  | tokenAlreadyRegistered
  | verificationBindingTooLarge
  | lifetimeGrantExceeded (requested maximum : Nat)
  | pollGrantExceeded (requested maximum : Nat)
  | expiryOverflow
  | bindingMismatch
  | correlationMismatch
  | protocolNotAllowed (protocol : OastEventProtocol)
  | clockRegressed (previous current : Nat)
  | expired (expiresAt : Nat)
  | cancelled
  | pollBudgetExhausted
  | pollEventLimitExceeded (maximum : Nat)
  | uniqueEventLimitExceeded (maximum : Nat)
  | eventKeyProtocolConflict

/-- Exact host-owned assessment identity. -/
structure OastAssessmentId where
  value : String
  notEmpty : value ≠ ""
  short : value.utf8ByteSize ≤ maxAssessmentIdBytes
  valid : identityBytes value = true
  deriving DecidableEq

/-- Thirty-two bytes that are not all zero. -/
structure Opaque32 where
  bytes : Bytes
  width : bytes.length = 32
  nonzero : bytes.any (· ≠ 0) = true
  deriving DecidableEq

namespace Opaque32

theorem bytes_injective : Function.Injective Opaque32.bytes := by
  rintro ⟨a, _, _⟩ ⟨b, _, _⟩ h
  simp only at h
  subst h
  rfl

instance : Ord Opaque32 where
  compare := compareOn (·.bytes)

instance : Std.TransOrd Opaque32 := inferInstanceAs (Std.TransCmp (compareOn Opaque32.bytes))

instance : Std.LawfulEqOrd Opaque32 := lawfulEqCmp_compareOn bytes_injective

end Opaque32

abbrev OastCorrelationToken : Type := Opaque32
abbrev OastAuthorityEpoch : Type := Opaque32
abbrev OastEventKey : Type := Opaque32
abbrev OastBindingId : Type := Bytes
abbrev OastCorrelationId : Type := Bytes

/-- Validated correlation lifetime. -/
structure OastLifetime where
  millis : Nat
  positive : millis ≠ 0
  bounded : millis ≤ hardMaxLifetimeMillis

/-- Validated poll allowance for one registration. -/
structure OastPollBudget where
  polls : Nat
  positive : polls ≠ 0
  bounded : polls ≤ hardMaxPolls

/-- Explicit bounds owned by one authority epoch. -/
structure OastAuthorityLimits where
  (maxRegistrations maxPollsPerRegistration maxEventsPerPoll maxUniqueEventsPerRegistration : Nat)
  maxLifetimeMillis : Nat
  positive : maxRegistrations ≠ 0 ∧ maxPollsPerRegistration ≠ 0 ∧ maxEventsPerPoll ≠ 0 ∧
    maxUniqueEventsPerRegistration ≠ 0 ∧ maxLifetimeMillis ≠ 0
  bounded : maxRegistrations ≤ hardMaxRegistrations ∧ maxPollsPerRegistration ≤ hardMaxPolls ∧
    maxEventsPerPoll ≤ hardMaxEventsPerPoll ∧
    maxUniqueEventsPerRegistration ≤ hardMaxUniqueEvents ∧ maxLifetimeMillis ≤ hardMaxLifetimeMillis

/-- Closed non-empty set of callback protocols granted to a registration. -/
structure OastProtocolSet where
  (allowDns allowHttp : Bool)
  notEmpty : (allowDns || allowHttp) = true

def OastProtocolSet.bits (protocols : OastProtocolSet) : Nat :=
  protocols.allowDns.toNat + 2 * protocols.allowHttp.toNat

def OastProtocolSet.allows (protocols : OastProtocolSet) : OastEventProtocol → Bool
  | .dns => protocols.allowDns
  | .http => protocols.allowHttp

inductive OastDnsTransport where
  | udp
  | tcp

inductive OastDnsRecordType where
  | a
  | aaaa
  | cname
  | mx
  | ns
  | ptr
  | srv
  | txt
  | other

/-- Typed DNS callback without names, addresses, or payload bytes. -/
structure OastDnsEvent where
  transport : OastDnsTransport
  recordType : OastDnsRecordType

inductive OastHttpScheme where
  | http
  | https

inductive OastHttpMethod where
  | unknown
  | get
  | head
  | post
  | put
  | patch
  | delete
  | options
  | trace
  | connect
  | other

/-- Typed HTTP callback without paths, headers, addresses, or body bytes. -/
structure OastHttpEvent where
  scheme : OastHttpScheme
  method : OastHttpMethod
  bodyPresent : Bool

/-- Provider-neutral event with an opaque fixed-width identity. -/
inductive OastEvent where
  | dns (key : OastEventKey) (event : OastDnsEvent)
  | http (key : OastEventKey) (event : OastHttpEvent)

namespace OastEvent

def key : OastEvent → OastEventKey
  | .dns key _ | .http key _ => key

def protocol : OastEvent → OastEventProtocol
  | .dns _ _ => .dns
  | .http _ _ => .http

end OastEvent

inductive OastEventDisposition where
  | accepted
  | duplicateSuppressed
  deriving DecidableEq

inductive OastCorrelationState where
  | active
  | cancelled
  | expired
  deriving DecidableEq

/-! ### Receipts -/

structure OastRegistrationReceipt where
  bindingId : OastBindingId
  correlationId : OastCorrelationId
  (issuedAt expiresAt pollLimit : Nat)
  allowedProtocols : OastProtocolSet

/-- Redacted receipt for one event in an atomic poll commit. -/
@[ext] structure OastEventReceipt where
  eventKey : OastEventKey
  protocol : OastEventProtocol
  disposition : OastEventDisposition
  observedAt : Nat
  deriving DecidableEq

/-- Redacted receipt for one atomic poll commit. -/
structure OastPollReceipt where
  bindingId : OastBindingId
  correlationId : OastCorrelationId
  (pollOrdinal completedAt : Nat)
  eventReceipts : List OastEventReceipt
  (acceptedEvents duplicateEvents remainingPolls : Nat)

structure OastTerminalReceipt where
  bindingId : OastBindingId
  correlationId : OastCorrelationId
  state : OastCorrelationState
  terminalAt : Nat

/-! ### Digests -/

section Digests

variable (sha256 : Bytes → Bytes)

/-- `hash_field`: bytes behind their length as a `u128`. -/
def hashField (bytes : Bytes) : Bytes := frame 16 bytes

def tokenFingerprint (token : OastCorrelationToken) : Bytes :=
  sha256 (tokenReuseDomain ++ hashField token.bytes)

def hashVerificationCase (verificationCase : VerificationCase) : Bytes :=
  hashField (utf8Bytes verificationCase.id) ++ hashField (utf8Bytes verificationCase.subject.value) ++
    hashField (utf8Bytes verificationCase.actionId) ++
    hashField (utf8Bytes verificationCase.hypothesisId) ++
    [UInt8.ofNat verificationCase.appliesHypothesisTransition.toNat] ++
    match verificationCase.payloadStrategy with
    | some strategy => [1] ++ hashField (utf8Bytes strategy.id) ++ beBytes 4 strategy.revision
    | none => [0]

structure BindingMaterial where
  epoch : OastAuthorityEpoch
  limits : OastAuthorityLimits
  assessmentId : OastAssessmentId
  verificationCase : VerificationCase
  protocols : OastProtocolSet
  (issuedAt expiresAt : Nat)
  pollBudget : OastPollBudget

def bindingId (material : BindingMaterial) : OastBindingId :=
  sha256 (bindingIdDomain ++ hashField material.epoch.bytes ++
    hashField (utf8Bytes material.assessmentId.value) ++
    hashVerificationCase material.verificationCase ++ [UInt8.ofNat material.protocols.bits] ++
    beBytes 8 material.issuedAt ++ beBytes 8 material.expiresAt ++
    beBytes 2 material.pollBudget.polls ++ beBytes 2 material.limits.maxRegistrations ++
    beBytes 2 material.limits.maxPollsPerRegistration ++
    beBytes 2 material.limits.maxEventsPerPoll ++
    beBytes 2 material.limits.maxUniqueEventsPerRegistration ++
    beBytes 8 material.limits.maxLifetimeMillis)

def correlationId (token : OastCorrelationToken) (bindingId : OastBindingId) : OastCorrelationId :=
  sha256 (correlationIdDomain ++ hashField token.bytes ++ hashField bindingId)

end Digests

/-! ### Registrations -/

/-- One exact registration and its bounded correlation state. -/
structure OastCorrelation where
  bindingId : OastBindingId
  correlationId : OastCorrelationId
  assessmentId : OastAssessmentId
  verificationCase : VerificationCase
  allowedProtocols : OastProtocolSet
  (issuedAt expiresAt lastTime : Nat)
  state : OastCorrelationState
  terminalAt : Option Nat
  (pollLimit remainingPolls nextPollOrdinal maxEventsPerPoll maxUniqueEvents : Nat)
  seenEvents : BTreeMap OastEventKey OastEventProtocol
  (acceptedEvents duplicateEvents abandonedPolls : Nat)

structure StagedEvent where
  event : OastEvent
  observedAt : Nat

/-- Move-only authority to prepare one atomic poll commit. The registration it
borrows stands beside it (`Polling`). -/
structure OastPollPermit where
  (pollOrdinal latestObservedTime : Nat)
  stagedEvents : List StagedEvent := []
  failure : Option OastError := none
  committed : Bool := false

/-- A registration with the permit that borrows it. -/
structure Polling where
  correlation : OastCorrelation
  permit : OastPollPermit

abbrev CorrelationCommand (α : Type) : Type := Command OastCorrelation OastError α

abbrev PollCommand (α : Type) : Type := Command Polling OastError α

/-- `+` of a `u16`: an overflow unwinds. -/
def addU16 {σ ε : Type} (a b : Nat) : Command σ ε Nat := if a + b ≤ u16Max then pure (a + b) else unwind

variable (assessmentId : OastAssessmentId) (verificationCase : VerificationCase) (now : Nat)
  {α : Type}

def ensureBinding :
    CorrelationCommand Unit := do
  let c ← get
  if assessmentId ≠ c.assessmentId ∨ verificationCase ≠ c.verificationCase then throw .bindingMismatch

/-- The registration is active at the time. The first time at or after its
expiry makes it expired. -/
def ensureActiveAt : CorrelationCommand Unit := do
  let c ← get
  match c.state with
  | .cancelled => throw .cancelled
  | .expired => throw (.expired c.expiresAt)
  | .active =>
    if now < c.lastTime then throw (.clockRegressed c.lastTime now)
    if now ≥ c.expiresAt then do
      set { c with state := .expired, terminalAt := some c.expiresAt }
      throw (.expired c.expiresAt)

def cancel :
    CorrelationCommand OastTerminalReceipt := do
  ensureBinding assessmentId verificationCase
  ensureActiveAt now
  let c ← get
  set { c with lastTime := now, state := .cancelled, terminalAt := some now }
  return { bindingId := c.bindingId, correlationId := c.correlationId, state := .cancelled,
           terminalAt := now }

/-- Spends one poll and returns a permit. -/
def beginPoll :
    CorrelationCommand OastPollPermit := do
  ensureBinding assessmentId verificationCase
  ensureActiveAt now
  let c ← get
  if c.remainingPolls = 0 then throw .pollBudgetExhausted
  let nextPollOrdinal ← addU16 c.nextPollOrdinal 1
  set { c with nextPollOrdinal, remainingPolls := c.remainingPolls - 1, lastTime := now }
  return { pollOrdinal := c.nextPollOrdinal, latestObservedTime := now }

/-- A command on the borrowed registration. -/
def onCorrelation (x : CorrelationCommand α) : PollCommand α :=
  zoom (·.correlation) (fun p correlation => { p with correlation }) x

/-- `reject`: the failure is latched. -/
def reject (error : OastError) : PollCommand α := do
  modify fun p => { p with permit := { p.permit with failure := some error } }
  throw error

/-- Stages one callback without mutating committed event state. -/
def stageEvent (correlationId : OastCorrelationId) (event : OastEvent) (observedAt : Nat) :
    PollCommand Unit := do
  let p ← get
  if let some error := p.permit.failure then throw error
  if correlationId ≠ p.correlation.correlationId then reject .correlationMismatch
  if !p.correlation.allowedProtocols.allows event.protocol then
    reject (.protocolNotAllowed event.protocol)
  if p.permit.stagedEvents.length ≥ p.correlation.maxEventsPerPoll then
    reject (.pollEventLimitExceeded p.correlation.maxEventsPerPoll)
  tryCatch (onCorrelation (ensureActiveAt observedAt)) reject
  modify fun p =>
    { p with permit := { p.permit with
        latestObservedTime := max p.permit.latestObservedTime observedAt
        stagedEvents := p.permit.stagedEvents ++ [{ event, observedAt }] } }

/-- The order of `sort_by` in `finish`. -/
def stagedCompare (left right : StagedEvent) : Ordering :=
  (compare left.event.key right.event.key).then
    ((compare left.event.protocol.rank right.event.protocol.rank).then
      (compare left.observedAt right.observedAt))

def StagedEvent.le (left right : StagedEvent) : Prop := (stagedCompare left right).isLE = true

instance : DecidableRel StagedEvent.le := fun left right =>
  inferInstanceAs (Decidable ((stagedCompare left right).isLE = true))

/-- A stable sort. -/
def sortStaged (staged : List StagedEvent) : List StagedEvent := staged.insertionSort StagedEvent.le

/-- What the loop of `finish` has prepared. -/
structure Batch where
  protocols : BTreeMap OastEventKey OastEventProtocol := ∅
  receipts : List OastEventReceipt := []
  accepted : Nat := 0
  duplicate : Nat := 0

/-- One turn of the loop of `finish`. -/
def commitStaged (seen : BTreeMap OastEventKey OastEventProtocol) (staged : StagedEvent) :
    Command Batch OastError Unit := do
  let batch ← get
  let key := staged.event.key
  let protocol := staged.event.protocol
  match seen[key]?.or batch.protocols[key]? with
  | some existing =>
    if existing ≠ protocol then throw .eventKeyProtocolConflict
    let duplicate ← addU16 batch.duplicate 1
    set { batch with
      duplicate
      receipts := batch.receipts ++
        [OastEventReceipt.mk key protocol .duplicateSuppressed staged.observedAt] }
  | none =>
    let accepted ← addU16 batch.accepted 1
    set { batch with
      accepted
      protocols := batch.protocols.insert key protocol
      receipts := batch.receipts ++ [OastEventReceipt.mk key protocol .accepted staged.observedAt] }

def commitAll (seen : BTreeMap OastEventKey OastEventProtocol) :
    List StagedEvent → Command Batch OastError Unit
  | [] => pure ()
  | staged :: rest => do
    commitStaged seen staged
    commitAll seen rest

def ensureCompletionTime (completedAt : Nat) : PollCommand Unit := do
  onCorrelation (ensureActiveAt completedAt)
  let p ← get
  if completedAt < p.permit.latestObservedTime then
    throw (.clockRegressed p.permit.latestObservedTime completedAt)

/-- Validates and commits the staged batch atomically. -/
def finish (completedAt : Nat) : PollCommand OastPollReceipt := do
  ensureCompletionTime completedAt
  let p ← get
  if let some error := p.permit.failure then throw error
  let c := p.correlation
  let (_, batch) ← locally {} (commitAll c.seenEvents (sortStaged p.permit.stagedEvents))
  if c.seenEvents.size + batch.protocols.size > c.maxUniqueEvents then
    throw (.uniqueEventLimitExceeded c.maxUniqueEvents)
  let acceptedEvents ← addU16 c.acceptedEvents batch.accepted
  let duplicateEvents ← addU16 c.duplicateEvents batch.duplicate
  set ({ correlation :=
           { c with
             seenEvents := c.seenEvents ∪ batch.protocols
             acceptedEvents
             duplicateEvents
             lastTime := completedAt }
         permit := { p.permit with committed := true } } : Polling)
  return { bindingId := c.bindingId, correlationId := c.correlationId,
           pollOrdinal := p.permit.pollOrdinal, completedAt, eventReceipts := batch.receipts,
           acceptedEvents := batch.accepted, duplicateEvents := batch.duplicate,
           remainingPolls := c.remainingPolls }

/-- `drop` of a permit: a poll that was not committed is abandoned. -/
def dropPermit : PollCommand Unit := do
  let p ← get
  if !p.permit.committed then do
    let abandonedPolls ← addU16 p.correlation.abandonedPolls 1
    set { p with correlation := { p.correlation with abandonedPolls } }

/-! ### The authority -/

/-- Bounded token-reuse authority for one explicit epoch. -/
structure OastCorrelationAuthority where
  epoch : OastAuthorityEpoch
  assessmentId : OastAssessmentId
  limits : OastAuthorityLimits
  registered : Nat := 0
  tokenFingerprints : BTreeSet Bytes := ∅

def validateVerificationBinding : Except OastError Unit :=
  if verificationCase.id.utf8ByteSize > maxVerificationBindingComponentBytes ∨
      verificationCase.subject.value.utf8ByteSize > maxVerificationBindingComponentBytes ∨
      verificationCase.actionId.utf8ByteSize > maxVerificationBindingComponentBytes ∨
      verificationCase.hypothesisId.utf8ByteSize > maxVerificationBindingComponentBytes then
    .error .verificationBindingTooLarge
  else .ok ()

/-- Consumes a token and creates one exact bounded registration. -/
def register (sha256 : Bytes → Bytes) (verificationCase : VerificationCase)
    (token : OastCorrelationToken) (allowedProtocols : OastProtocolSet) (issuedAt : Nat)
    (lifetime : OastLifetime) (pollBudget : OastPollBudget) :
    Command OastCorrelationAuthority OastError (OastCorrelation × OastRegistrationReceipt) := do
  let a ← get
  validateVerificationBinding verificationCase
  if a.registered ≥ a.limits.maxRegistrations then throw .registrationCapacityExhausted
  if lifetime.millis > a.limits.maxLifetimeMillis then
    throw (.lifetimeGrantExceeded lifetime.millis a.limits.maxLifetimeMillis)
  if pollBudget.polls > a.limits.maxPollsPerRegistration then
    throw (.pollGrantExceeded pollBudget.polls a.limits.maxPollsPerRegistration)
  let expiresAt ← okOr (checkedAdd u64Max issuedAt lifetime.millis) OastError.expiryOverflow
  let fingerprint := tokenFingerprint sha256 token
  if a.tokenFingerprints.contains fingerprint then throw .tokenAlreadyRegistered
  let binding := bindingId sha256
    { epoch := a.epoch, limits := a.limits, assessmentId := a.assessmentId, verificationCase,
      protocols := allowedProtocols, issuedAt, expiresAt, pollBudget }
  let correlation := correlationId sha256 token binding
  let registered ← addU16 a.registered 1
  set { a with tokenFingerprints := a.tokenFingerprints.insert fingerprint, registered }
  return (
    { bindingId := binding, correlationId := correlation, assessmentId := a.assessmentId,
      verificationCase, allowedProtocols, issuedAt, expiresAt, lastTime := issuedAt
      state := .active, terminalAt := none, pollLimit := pollBudget.polls
      remainingPolls := pollBudget.polls, nextPollOrdinal := 1
      maxEventsPerPoll := a.limits.maxEventsPerPoll
      maxUniqueEvents := a.limits.maxUniqueEventsPerRegistration, seenEvents := ∅
      acceptedEvents := 0, duplicateEvents := 0, abandonedPolls := 0 },
    { bindingId := binding, correlationId := correlation, issuedAt, expiresAt
      pollLimit := pollBudget.polls, allowedProtocols })

/-! ### A host that holds an authority and its registrations -/

structure Slot where
  correlation : OastCorrelation
  permit : Option OastPollPermit := none

structure OastWorld where
  authority : OastCorrelationAuthority
  slots : List Slot := []

/-- The calls a host makes, registrations by the order they came in. -/
inductive OastCall where
  | register (verificationCase : VerificationCase) (token : OastCorrelationToken)
    (allowedProtocols : OastProtocolSet) (issuedAt : Nat) (lifetime : OastLifetime)
    (pollBudget : OastPollBudget)
  | beginPoll (index : Nat) (assessmentId : OastAssessmentId) (verificationCase : VerificationCase)
    (now : Nat)
  | stageEvent (index : Nat) (correlationId : OastCorrelationId) (event : OastEvent)
    (observedAt : Nat)
  | finish (index : Nat) (completedAt : Nat)
  | dropPermit (index : Nat)
  | cancel (index : Nat) (assessmentId : OastAssessmentId) (verificationCase : VerificationCase)
    (now : Nat)

inductive OastReply where
  | registered (receipt : OastRegistrationReceipt)
  | began (pollOrdinal : Nat)
  | staged
  | finished (receipt : OastPollReceipt)
  | dropped
  | cancelled (receipt : OastTerminalReceipt)
  /-- There is no such registration, or the borrow of its permit rules the call out. -/
  | notMade

abbrev WorldCommand (α : Type) : Type := Command OastWorld OastError α

def putSlot (index : Nat) (slot : Slot) : WorldCommand Unit :=
  modify fun w => { w with slots := w.slots.set index slot }

/-- A call on a registration that no permit borrows. -/
def onFree (index : Nat) (call : OastCorrelation → WorldCommand OastReply) : WorldCommand OastReply := do
  let w ← get
  match w.slots[index]? with
  | some { correlation, permit := none } => call correlation
  | _ => return .notMade

/-- A call on the permit of a registration. -/
def onPermit (index : Nat) (call : Polling → WorldCommand OastReply) : WorldCommand OastReply := do
  let w ← get
  match w.slots[index]? with
  | some { correlation, permit := some permit } => call { correlation, permit }
  | _ => return .notMade

/-- A command on a free registration; what it leaves is kept, also when it
fails. -/
def runFree (index : Nat) (x : CorrelationCommand α) (permit : α → Option OastPollPermit)
    (answer : α → OastReply) (correlation : OastCorrelation) : WorldCommand OastReply :=
  match x correlation with
  | .ok a correlation => do
    putSlot index { correlation, permit := permit a }
    return answer a
  | .error e correlation => do
    putSlot index { correlation }
    throw e
  | .panic => unwind

/-- A command on a permit that stays. -/
def runPermit (index : Nat) (x : PollCommand Unit) (p : Polling) : WorldCommand OastReply :=
  match x p with
  | .ok _ q => do
    putSlot index { correlation := q.correlation, permit := some q.permit }
    return .staged
  | .error e q => do
    putSlot index { correlation := q.correlation, permit := some q.permit }
    throw e
  | .panic => unwind

/-- A command that consumes the permit, which is dropped at its end. -/
def runConsuming (index : Nat) (x : PollCommand α) (answer : α → OastReply) (p : Polling) :
    WorldCommand OastReply :=
  let dropped (q : Polling) : WorldCommand Unit :=
    match dropPermit q with
    | .ok _ r => putSlot index { correlation := r.correlation }
    | _ => unwind
  match x p with
  | .ok a q => do
    dropped q
    return answer a
  | .error e q => do
    dropped q
    throw e
  | .panic => unwind

def OastCall.exec (sha256 : Bytes → Bytes) : OastCall → WorldCommand OastReply
  | .register verificationCase token allowedProtocols issuedAt lifetime pollBudget => do
    let (correlation, receipt) ← zoom (·.authority) (fun w authority => { w with authority })
      (Correlation.register sha256 verificationCase token allowedProtocols issuedAt lifetime pollBudget)
    modify fun w => { w with slots := w.slots ++ [{ correlation }] }
    return .registered receipt
  | .beginPoll index assessmentId verificationCase now =>
    onFree index (runFree index (Correlation.beginPoll assessmentId verificationCase now) some
      (fun permit => .began permit.pollOrdinal))
  | .cancel index assessmentId verificationCase now =>
    onFree index (runFree index (Correlation.cancel assessmentId verificationCase now)
      (fun _ => none) .cancelled)
  | .stageEvent index correlationId event observedAt =>
    onPermit index (runPermit index (Correlation.stageEvent correlationId event observedAt))
  | .finish index completedAt =>
    onPermit index (runConsuming index (Correlation.finish completedAt) .finished)
  | .dropPermit index =>
    onPermit index (runConsuming index (pure ()) (fun _ => .dropped))

end Termivar.Correlation
