/-
# The permit of the native provider

`termivar-scanner/src/native_oast_provider.rs`: the limits of one provider
session and the permit that narrows the request broker of the assessment to
them. The broker is shared: the permit holds at most one lease of it, and the
others' calls come between any two calls of the permit. `Boundary` is the
permit with the broker it shares, and with a record of the leases it opened
and closed.
-/
import Termivar.Framing
import Termivar.Runtime.Budget
import Termivar.Url

namespace Termivar.NativeOast

open Command
open Termivar.Runtime (Accounting AccountingOp RequestAccountingLease RequestAccountingSnapshot RuntimeBudget
  RuntimeBudgetDimension RuntimeLimitExceeded TransportDispatchOutcome)

def nativeOastProviderActionId : String := "web.auxiliary.native-oast-provider"
def hardMaxNativeOastRegistrations : Nat := 1
def hardMaxNativeOastCallbacks : Nat := 8
def hardMaxNativeOastProviderRequests : Nat := 64
def hardMaxNativeOastPolls : Nat := 32
def hardMaxNativeOastProviderRequestBytes : Nat := 64 * 1024
def hardMaxNativeOastProviderResponseBytes : Nat := 2 * 1024 * 1024
def hardMaxNativeOastProviderWallTimeMs : Nat := 120000

def providerOriginFingerprintDomain : Bytes :=
  utf8Bytes "security.native-oast-provider.origin-fingerprint/v1" ++ [0]

/-- A reading of the monotonic clock, in nanoseconds. -/
abbrev Instant : Type := Nat

/-- `as_millis` of a duration in nanoseconds. -/
def asMillis (nanos : Nat) : Nat := nanos / 1000000

def fromMillis (millis : Nat) : Nat := millis * 1000000

/-- Exact fixed native-provider operation classes. -/
inductive NativeOastProviderOperation where
  | register
  | allocateCallback
  | poll
  | cleanup
  deriving DecidableEq

/-- Closed raw-free adapter failure classes. -/
inductive NativeOastProviderErrorKind where
  | invalidLimits
  | invalidProviderOrigin
  | providerTargetOriginOverlap
  | authorityAlreadyMinted
  | parentBudgetTooSmall
  | operationNotPermitted
  | invalidLifecycle
  | registrationLimit
  | callbackLimit
  | requestLimit
  | requestByteLimit
  | responseByteLimit
  | pollLimit
  | cancelled
  | deadlineExceeded
  | runtimeBudget (dimension : RuntimeBudgetDimension)
  | providerRejected
  | providerAccessRejected
  | providerThrottled
  | providerNotFound
  | providerGone
  | providerRedirectRefused
  | providerServerFailure
  | providerTransportFailure
  | providerRequestConstruction
  | providerClientInitialization
  | providerUnexpectedStatus
  | providerResponseInvalid
  | providerSessionMismatch
  | providerCallbackMismatch
  | providerPageIncomplete
  | providerExpired
  | correlationRejected
  | cleanupUnverified
  | internalInvariant

/-! ### Limits -/

/-- The check of the limits of one provider session. -/
def LimitsChecked (registrations callbacks requests polls requestBytes responseBytes
    wallTimeMs : Nat) : Prop :=
  registrations = hardMaxNativeOastRegistrations ∧
    (callbacks ≠ 0 ∧ callbacks ≤ hardMaxNativeOastCallbacks) ∧
    (2 ≤ requests ∧ requests ≤ hardMaxNativeOastProviderRequests) ∧
    (polls ≠ 0 ∧ polls ≤ hardMaxNativeOastPolls) ∧
    (requestBytes ≠ 0 ∧ requestBytes ≤ hardMaxNativeOastProviderRequestBytes) ∧
    (responseBytes ≠ 0 ∧ responseBytes ≤ hardMaxNativeOastProviderResponseBytes) ∧
    (wallTimeMs ≠ 0 ∧ wallTimeMs ≤ hardMaxNativeOastProviderWallTimeMs)

instance (a b c d e f g : Nat) : Decidable (LimitsChecked a b c d e f g) := by
  unfold LimitsChecked
  infer_instance

/-- Checked narrowing ceilings for one provider session. -/
structure NativeOastProviderLimits where
  (maxRegistrations maxCallbacks maxProviderRequests maxPolls maxProviderRequestBytes : Nat)
  (maxProviderResponseBytes maxProviderWallTimeMs : Nat)
  checked : LimitsChecked maxRegistrations maxCallbacks maxProviderRequests maxPolls
    maxProviderRequestBytes maxProviderResponseBytes maxProviderWallTimeMs

def NativeOastProviderLimits.new (maxRegistrations maxCallbacks maxProviderRequests maxPolls
    maxProviderRequestBytes maxProviderResponseBytes maxProviderWallTimeMs : Nat) :
    Except NativeOastProviderErrorKind NativeOastProviderLimits :=
  if checked : LimitsChecked maxRegistrations maxCallbacks maxProviderRequests maxPolls
      maxProviderRequestBytes maxProviderResponseBytes maxProviderWallTimeMs then
    .ok { maxRegistrations, maxCallbacks, maxProviderRequests, maxPolls, maxProviderRequestBytes,
          maxProviderResponseBytes, maxProviderWallTimeMs, checked }
  else .error .invalidLimits

/-! ### Origins -/

def providerSchemeAllowed (provider : Url) : Bool :=
  provider.scheme = "https" &&
    (match provider.host with
    | some (.domain _) => true
    | _ => false) &&
    provider.port = some 443

def sameExactOrigin (expected candidate : Url) : Bool :=
  expected.scheme = candidate.scheme && expected.host = candidate.host &&
    expected.port = candidate.port && candidate.username = "" && candidate.password.isNone

/-- `parse_canonical_target_origin`, with `Url::parse` as `parse`. -/
def parseCanonicalTargetOrigin (parse : String → Option Url) (source : String) :
    Except NativeOastProviderErrorKind Url := do
  let parsed ← okOr (parse source) .internalInvariant
  if (parsed.scheme ≠ "http" ∧ parsed.scheme ≠ "https") ∨ parsed.host.isNone ∨
      parsed.path ≠ "/" ∨ parsed.query.isSome ∨ parsed.fragment.isSome ∨
      parsed.username ≠ "" ∨ parsed.password.isSome then
    throw .internalInvariant
  return parsed

/-- `hash_field`: bytes behind their length as a `u64`. -/
def hashField (bytes : Bytes) : Bytes := frame 8 bytes

def providerOriginFingerprint (sha256 : Bytes → Bytes) (origin : String) : Bytes :=
  sha256 (providerOriginFingerprintDomain ++ hashField (utf8Bytes origin))

/-! ### The permit -/

structure NativeOastProviderPermit where
  providerOriginUrl : Url
  providerOriginFingerprint : Bytes
  limits : NativeOastProviderLimits
  deadline : Instant
  activeLease : Option RequestAccountingLease := none
  providerRequests : Nat := 0
  providerRequestBytes : Nat := 0
  providerResponseBytes : Nat := 0
  lastBoundaryError : Option NativeOastProviderErrorKind := none

/-- The permit, the broker with the leases of its other holders, and the
record of the leases the permit opened, each for its operation, and closed. -/
structure Boundary where
  permit : NativeOastProviderPermit
  broker : Accounting
  opened : List (NativeOastProviderOperation × Nat) := []
  closed : List Nat := []

def requireParentCapacity (limits : NativeOastProviderLimits) (budget : RuntimeBudget)
    (snapshot : RequestAccountingSnapshot) : Except NativeOastProviderErrorKind Unit :=
  if limits.maxProviderRequests > budget.maxTotalRequests - snapshot.totalRequests ∨
      limits.maxProviderResponseBytes > budget.maxResponseBytes - snapshot.responseBytes then
    .error .parentBudgetTooSmall
  else .ok ()

/-- `NativeOastProviderPermit::mint`. -/
def mintPermit (sha256 : Bytes → Bytes) (parse : String → Option Url)
    (providerOrigin targetOrigin : String) (limits : NativeOastProviderLimits) (broker : Accounting)
    (parentBudget : RuntimeBudget) (cancelled : Bool) (parentDeadline : Option Instant)
    (now : Instant) :
    Except NativeOastProviderErrorKind Boundary := do
  let providerOriginUrl ← okOr (parse providerOrigin) .invalidProviderOrigin
  if !providerSchemeAllowed providerOriginUrl || providerOriginUrl.text ≠ providerOrigin then
    throw .invalidProviderOrigin
  let targetOriginUrl ← parseCanonicalTargetOrigin parse targetOrigin
  if sameExactOrigin providerOriginUrl targetOriginUrl then throw .providerTargetOriginOverlap
  requireParentCapacity limits parentBudget broker.state.snapshot
  let childDeadline := now + fromMillis limits.maxProviderWallTimeMs
  let deadline := parentDeadline.elim childDeadline (min · childDeadline)
  if cancelled then throw .cancelled
  if now ≥ deadline then throw .deadlineExceeded
  return { permit := { providerOriginUrl, limits, deadline
                       providerOriginFingerprint := providerOriginFingerprint sha256 providerOrigin }
           broker }

abbrev BoundaryCommand (α : Type) : Type := Command Boundary NativeOastProviderErrorKind α

/-- A call on the broker by the permit: the only lease it can name is its own. -/
def onOwnLease {α : Type} (x : Runtime.AccountingCommand α) : BoundaryCommand α :=
  zoom (fun b => { b.broker with leases := b.permit.activeLease.toList })
    (fun b broker =>
      { b with
        broker := { broker with leases := b.broker.leases }
        permit := { b.permit with activeLease := broker.leases.head? } })
    (mapErr (fun limit => .runtimeBudget limit.dimension) x)

/-- A call on the broker by another holder, who keeps its reply. -/
def byOther (op : AccountingOp) : BoundaryCommand Unit :=
  modify fun b =>
    match reply op.exec b.broker with
    | some (_, broker) => { b with broker }
    | none => b

def byOthers : List AccountingOp → BoundaryCommand Unit
  | [] => pure ()
  | op :: ops => do
    byOther op
    byOthers ops

/-- `begin_dispatch`, at a reading of the clock and of the cancellation token. -/
def beginDispatch (operation : NativeOastProviderOperation) (requestBytes requestBodyBytes : Nat)
    (cancelled : Bool) (now : Instant) : BoundaryCommand Unit := do
  let b ← get
  let p := b.permit
  if p.activeLease.isSome then throw .internalInvariant
  if cancelled then throw .cancelled
  if now ≥ p.deadline then throw .deadlineExceeded
  if p.providerRequests ≥ p.limits.maxProviderRequests then throw .requestLimit
  if p.providerResponseBytes ≥ p.limits.maxProviderResponseBytes then throw .responseByteLimit
  let nextRequestBytes ← okOr ((checkedAdd u64Max p.providerRequestBytes requestBytes).filter
    (· ≤ p.limits.maxProviderRequestBytes)) NativeOastProviderErrorKind.requestByteLimit
  let lease ← onOwnLease (Runtime.tryBeginWithRequestBodyBytes nativeOastProviderActionId .passive
    none requestBodyBytes)
  modify fun b =>
    { b with
      permit := { b.permit with
        providerRequests := saturatingAdd u16Max b.permit.providerRequests 1
        providerRequestBytes := nextRequestBytes
        activeLease := some lease }
      opened := b.opened ++ [(operation, lease.sequence)] }

def takeBoundaryError : BoundaryCommand (Option NativeOastProviderErrorKind) := do
  let b ← get
  set { b with permit := { b.permit with lastBoundaryError := none } }
  return b.permit.lastBoundaryError

/-- The bytes a response may still deliver to the lease of the permit. -/
def remainingResponseBytes (b : Boundary) : Nat :=
  match b.permit.activeLease with
  | none => 0
  | some _ => min (b.permit.limits.maxProviderResponseBytes - b.permit.providerResponseBytes)
    (b.broker.budget.maxResponseBytes - b.broker.state.snapshot.responseBytes)

def observeResponseBytes (observed : Nat) : BoundaryCommand Nat := do
  let b ← get
  match b.permit.activeLease with
  | none => return 0
  | some lease =>
    let parentRetained ← onOwnLease (Runtime.observeResponseBytes 0 lease observed)
    let localRemaining :=
      b.permit.limits.maxProviderResponseBytes - b.permit.providerResponseBytes
    modify fun b =>
      { b with permit := { b.permit with
          providerResponseBytes :=
            saturatingAdd u64Max b.permit.providerResponseBytes observed } }
    return min parentRetained localRemaining

/-- `finish_dispatch`: the lease is taken, given its outcome and dropped. -/
def finishDispatch (outcome : TransportDispatchOutcome) (elapsedMs : Nat) : BoundaryCommand Unit := do
  let b ← get
  match b.permit.activeLease with
  | none => pure ()
  | some lease =>
    onOwnLease do
      Runtime.finish 0 lease outcome
      Runtime.dropLease 0 { lease with outcome := some outcome } elapsedMs
    modify fun b => { b with closed := b.closed ++ [lease.sequence] }

end Termivar.NativeOast
