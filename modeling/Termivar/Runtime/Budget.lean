/-
# The request budget of a runtime session

`termivar-scanner/src/runtime_budget.rs`: the broker that admits transport
dispatches against the limits of a `RuntimeBudget`, and the leases it hands
out. The state of the broker is behind one lock, a lease belongs to the task
that began it; every call is one step on the broker and the leases in flight.
-/
import Termivar.Command
import Termivar.Machine

namespace Termivar.Runtime

/-- `HARD_MAX_TRANSPORT_DISPATCH_RECEIPTS`. -/
def hardMaxTransportDispatchReceipts : Nat := 4096

inductive DecisionExecutionStage where
  | passive
  | active
  deriving DecidableEq

inductive DecisionActionOrigin where
  | bootstrap
  | planned
  | adaptive
  | retry
  deriving DecidableEq

/-- Resource envelope of one runtime session: the limits the broker reads. -/
structure RuntimeBudget where
  (maxTotalRequests maxResponseBytes maxRequestBodyBytes maxActiveVerifications : Nat)
  totalU32 : maxTotalRequests ≤ u32Max
  responseU64 : maxResponseBytes ≤ u64Max
  requestBodyU64 : maxRequestBodyBytes ≤ u64Max
  activeU16 : maxActiveVerifications ≤ u16Max

inductive RuntimeBudgetDimension where
  | totalRequests
  | wallTime
  | responseBytes
  | requestBodyBytes
  | activeVerifications
  | sameActionAttempts
  | consecutiveNoProgressTurns
  deriving DecidableEq

/-- Structured explanation of a fail-closed runtime stop. -/
structure RuntimeLimitExceeded where
  dimension : RuntimeBudgetDimension
  (limit observed : Nat)
  actionId : Option String
  deriving DecidableEq

inductive TransportDispatchOutcome where
  | completed
  | transportFailure
  | requestTimeout
  | responseBudgetReached
  | cancelled
  deriving DecidableEq

structure TransportDispatchReceipt where
  sequence : Nat
  actionId : String
  stage : DecisionExecutionStage
  origin : Option DecisionActionOrigin
  (requestBodyBytes responseBytes elapsedMs : Nat)
  outcome : TransportDispatchOutcome

structure TransportDispatchAudit where
  receipts : List TransportDispatchReceipt
  omittedReceiptCount : Nat

structure RequestAccountingSnapshot where
  totalRequests : Nat := 0
  passiveRequests : Nat := 0
  activeVerifications : Nat := 0
  bootstrapRequests : Nat := 0
  plannedRequests : Nat := 0
  adaptiveRequests : Nat := 0
  retryRequests : Nat := 0
  requestBodyBytes : Nat := 0
  responseBytes : Nat := 0

structure RequestAccountingState where
  snapshot : RequestAccountingSnapshot := {}
  nextDispatchSequence : Nat := 0
  dispatchReceipts : List TransportDispatchReceipt := []
  omittedDispatchReceipts : Nat := 0

/-- Proof that one logical transport dispatch was recorded. -/
structure RequestAccountingLease where
  sequence : Nat
  actionId : String
  stage : DecisionExecutionStage
  origin : Option DecisionActionOrigin
  (requestBodyBytes responseBytes : Nat)
  responseBudgetReached : Bool
  outcome : Option TransportDispatchOutcome

/-! ### Limits -/

/-- The bytes a response may still deliver, when a dispatch is admitted. -/
def checkRequestLimits (snapshot : RequestAccountingSnapshot) (budget : RuntimeBudget)
    (actionId : String) (stage : DecisionExecutionStage) (requestBodyBytes : Nat) :
    Except RuntimeLimitExceeded Nat := do
  if snapshot.totalRequests ≥ budget.maxTotalRequests then
    throw ⟨.totalRequests, budget.maxTotalRequests,
      saturatingAdd u64Max snapshot.totalRequests 1, some actionId⟩
  if snapshot.responseBytes ≥ budget.maxResponseBytes then
    throw ⟨.responseBytes, budget.maxResponseBytes, snapshot.responseBytes, some actionId⟩
  let nextRequestBodyBytes ← okOr (checkedAdd u64Max snapshot.requestBodyBytes requestBodyBytes)
    ⟨.requestBodyBytes, budget.maxRequestBodyBytes, u64Max, some actionId⟩
  if nextRequestBodyBytes > budget.maxRequestBodyBytes then
    throw ⟨.requestBodyBytes, budget.maxRequestBodyBytes, nextRequestBodyBytes, some actionId⟩
  if stage = .active ∧ snapshot.activeVerifications ≥ budget.maxActiveVerifications then
    throw ⟨.activeVerifications, budget.maxActiveVerifications,
      saturatingAdd u64Max snapshot.activeVerifications 1, some actionId⟩
  return budget.maxResponseBytes - snapshot.responseBytes

/-- The counter of the origin of a passive request. -/
def recordOrigin (snapshot : RequestAccountingSnapshot) :
    Option DecisionActionOrigin → RequestAccountingSnapshot
  | some .bootstrap =>
    { snapshot with bootstrapRequests := saturatingAdd u32Max snapshot.bootstrapRequests 1 }
  | some .planned =>
    { snapshot with plannedRequests := saturatingAdd u32Max snapshot.plannedRequests 1 }
  | some .adaptive =>
    { snapshot with adaptiveRequests := saturatingAdd u32Max snapshot.adaptiveRequests 1 }
  | some .retry => { snapshot with retryRequests := saturatingAdd u32Max snapshot.retryRequests 1 }
  | none => snapshot

def recordDispatch (snapshot : RequestAccountingSnapshot) (stage : DecisionExecutionStage)
    (origin : Option DecisionActionOrigin) (requestBodyBytes : Nat) : RequestAccountingSnapshot :=
  let snapshot :=
    { snapshot with
      totalRequests := saturatingAdd u32Max snapshot.totalRequests 1
      requestBodyBytes := saturatingAdd u64Max snapshot.requestBodyBytes requestBodyBytes }
  match stage with
  | .passive => recordOrigin
    { snapshot with passiveRequests := saturatingAdd u32Max snapshot.passiveRequests 1 } origin
  | .active =>
    { snapshot with activeVerifications := saturatingAdd u16Max snapshot.activeVerifications 1 }

/-! ### The broker and its leases -/

/-- One broker and the leases in flight. -/
structure Accounting where
  budget : RuntimeBudget
  state : RequestAccountingState
  leases : List RequestAccountingLease

def Accounting.new (budget : RuntimeBudget) : Accounting where
  budget := budget
  state := {}
  leases := []

abbrev AccountingCommand (α : Type) : Type := Command Accounting RuntimeLimitExceeded α

def preflightWithRequestBodyBytes (actionId : String) (stage : DecisionExecutionStage)
    (requestBodyBytes : Nat) : AccountingCommand Nat := do
  let broker ← get
  checkRequestLimits broker.state.snapshot broker.budget actionId stage requestBodyBytes

def tryBeginWithRequestBodyBytes (actionId : String) (stage : DecisionExecutionStage)
    (origin : Option DecisionActionOrigin) (requestBodyBytes : Nat) :
    AccountingCommand RequestAccountingLease := do
  let broker ← get
  let _ ← checkRequestLimits broker.state.snapshot broker.budget actionId stage requestBodyBytes
  let lease : RequestAccountingLease :=
    { sequence := broker.state.nextDispatchSequence, actionId, stage, origin, requestBodyBytes,
      responseBytes := 0, responseBudgetReached := false, outcome := none }
  set { broker with
    state := { broker.state with
      snapshot := recordDispatch broker.state.snapshot stage origin requestBodyBytes
      nextDispatchSequence := saturatingAdd u64Max broker.state.nextDispatchSequence 1 }
    leases := broker.leases ++ [lease] }
  return lease

def recordDispatchReceipt (state : RequestAccountingState) (receipt : TransportDispatchReceipt) :
    RequestAccountingState :=
  if state.dispatchReceipts.length < hardMaxTransportDispatchReceipts then
    { state with dispatchReceipts := state.dispatchReceipts ++ [receipt] }
  else
    { state with
      omittedDispatchReceipts := saturatingAdd u64Max state.omittedDispatchReceipts 1 }

/-- The bytes of the chunk that may be retained. -/
def observeResponseBytes (index : Nat) (lease : RequestAccountingLease) (bytes : Nat) :
    AccountingCommand Nat := do
  let broker ← get
  let remaining := broker.budget.maxResponseBytes - broker.state.snapshot.responseBytes
  let retained := min bytes remaining
  set { broker with
    state := { broker.state with
      snapshot := { broker.state.snapshot with
        responseBytes := saturatingAdd u64Max broker.state.snapshot.responseBytes bytes } }
    leases := broker.leases.set index { lease with
      responseBytes := saturatingAdd u64Max lease.responseBytes bytes
      responseBudgetReached := lease.responseBudgetReached || (bytes > 0 && bytes ≥ remaining) } }
  return retained

/-- `finish` of a release build, which does not check the outcome given before. -/
def finish (index : Nat) (lease : RequestAccountingLease) (outcome : TransportDispatchOutcome) :
    AccountingCommand Unit :=
  modify fun broker =>
    { broker with leases := broker.leases.set index { lease with outcome := some outcome } }

def RequestAccountingLease.receipt (lease : RequestAccountingLease) (elapsedMs : Nat) :
    TransportDispatchReceipt where
  sequence := lease.sequence
  actionId := lease.actionId
  stage := lease.stage
  origin := lease.origin
  requestBodyBytes := lease.requestBodyBytes
  responseBytes := lease.responseBytes
  elapsedMs := elapsedMs
  outcome := lease.outcome.getD .cancelled

/-- `drop`. -/
def dropLease (index : Nat) (lease : RequestAccountingLease) (elapsedMs : Nat) :
    AccountingCommand Unit :=
  modify fun broker =>
    { broker with
      state := recordDispatchReceipt broker.state (lease.receipt elapsedMs)
      leases := broker.leases.eraseIdx index }

/-- Retained receipts in dispatch order. -/
def dispatchAudit (state : RequestAccountingState) : TransportDispatchAudit where
  receipts := state.dispatchReceipts.mergeSort fun a b => a.sequence ≤ b.sequence
  omittedReceiptCount := state.omittedDispatchReceipts

/-! ### Calls -/

/-- A call of some task. A lease is named by its place among the leases in
flight; a place that names none is no call. -/
inductive AccountingOp where
  | preflight (actionId : String) (stage : DecisionExecutionStage) (requestBodyBytes : Nat)
  | tryBegin (actionId : String) (stage : DecisionExecutionStage)
      (origin : Option DecisionActionOrigin) (requestBodyBytes : Nat)
  | observeResponseBytes (lease : Nat) (bytes : Nat)
  | finish (lease : Nat) (outcome : TransportDispatchOutcome)
  | drop (lease : Nat) (elapsedMs : Nat)

inductive AccountingReply where
  | remaining (bytes : Nat)
  | began (lease : RequestAccountingLease)
  | retained (bytes : Nat)
  | finished
  | dropped (lease : RequestAccountingLease)
  | noLease

/-- A call on the lease at a place. -/
def withLease (index : Nat) (call : RequestAccountingLease → AccountingCommand AccountingReply) :
    AccountingCommand AccountingReply := do
  let broker ← get
  match broker.leases[index]? with
  | none => return .noLease
  | some lease => call lease

def AccountingOp.exec : AccountingOp → AccountingCommand AccountingReply
  | .preflight actionId stage requestBodyBytes =>
    .remaining <$> preflightWithRequestBodyBytes actionId stage requestBodyBytes
  | .tryBegin actionId stage origin requestBodyBytes =>
    .began <$> tryBeginWithRequestBodyBytes actionId stage origin requestBodyBytes
  | .observeResponseBytes index bytes => withLease index fun lease =>
    .retained <$> Runtime.observeResponseBytes index lease bytes
  | .finish index outcome => withLease index fun lease =>
    (fun _ => .finished) <$> Runtime.finish index lease outcome
  | .drop index elapsedMs => withLease index fun lease =>
    (fun _ => .dropped lease) <$> dropLease index lease elapsedMs

end Termivar.Runtime
