/-
# Orchestration of an authorized plan

`ExploitOrchestrator::execute` and the `Execution` behind it
(`termivar-exploit/src/{lifecycle,orchestration}.rs`). The executor and the
callers of `cancel` are a `Host`: what the executor answers and how many
cancellations arrive before a read may depend on everything that happened in
the run, which is what the log holds. A callback that panics is an answer; an
`expect` that fails unwinds the run. A report that is returned early is thrown.
-/
import Termivar.Exploit.Authority
import Termivar.Loop

namespace Termivar.Exploit

open Command

/-! ### Lifecycle -/

inductive ExploitLifecycleState where
  | catalogued
  | applicabilityUnknown
  | productMatched
  | versionApplicable
  | prerequisitesSatisfied
  | authorizationDenied
  | authorized
  | planned
  | attemptStarted
  | attemptDelivered
  | triggerObserved
  | impactVerified
  | cleanupRequired
  | cleanupStarted
  | cleanupVerified
  | cleanupFailed
  | completed
  | failed
  | cancelled
  | budgetExhausted
  | incomplete
  deriving DecidableEq

namespace ExploitLifecycleState

def isTerminal : ExploitLifecycleState → Bool
  | .authorizationDenied | .cleanupFailed | .completed | .failed | .cancelled | .budgetExhausted
  | .incomplete => true
  | _ => false

def legalTransition (state next : ExploitLifecycleState) : Bool :=
  (match state, next with
    | .catalogued, .applicabilityUnknown => true
    | .applicabilityUnknown, .productMatched => true
    | .productMatched, .versionApplicable => true
    | .versionApplicable, .prerequisitesSatisfied => true
    | .prerequisitesSatisfied, .authorizationDenied => true
    | .prerequisitesSatisfied, .authorized => true
    | .authorized, .planned => true
    | .planned, .attemptStarted => true
    | .attemptStarted, .cleanupRequired => true
    | .attemptStarted, .attemptDelivered => true
    | .attemptDelivered, .triggerObserved => true
    | .triggerObserved, .impactVerified => true
    | .attemptDelivered, .cleanupRequired => true
    | .triggerObserved, .cleanupRequired => true
    | .impactVerified, .cleanupRequired => true
    | .cleanupRequired, .cleanupStarted => true
    | .cleanupStarted, .cleanupVerified => true
    | .cleanupStarted, .cleanupFailed => true
    | .cleanupVerified, .completed => true
    | .impactVerified, .completed => true
    | _, .failed => true
    | _, .cancelled => true
    | _, .budgetExhausted => true
    | _, .incomplete => true
    | _, _ => false) && !state.isTerminal

/-- Whether the states can be gone through one after the other. -/
def legalPath : ExploitLifecycleState → List ExploitLifecycleState → Bool
  | _, [] => true
  | state, next :: rest => state.legalTransition next && legalPath next rest

/-- Whether reaching the state proves anything: failures do not. -/
def isProof : ExploitLifecycleState → Bool
  | .failed | .cancelled | .budgetExhausted | .incomplete => false
  | _ => true

end ExploitLifecycleState

/-! ### Permits and receipts -/

structure ExploitStepPermit where
  run : ExploitRunId
  target : ExploitTargetId
  targetReference : String
  module : ExploitModuleRef
  (manifestDigest planDigest : String)
  step : ExploitStepId
  phase : ExploitStepPhase
  correlation : String
  cost : ExploitStepCost
  cleanupFor : Option ExploitStepId

inductive ExploitStepObservation where
  | attemptDelivered
  | triggerObserved
  | impactVerified
  | cleanupPerformed
  | cleanupVerified
  | notObserved
  | failed
  | incomplete
  deriving DecidableEq

structure ExploitStepReceipt where
  run : ExploitRunId
  target : ExploitTargetId
  module : ExploitModuleRef
  (manifestDigest planDigest : String)
  step : ExploitStepId
  phase : ExploitStepPhase
  correlation : String
  observation : ExploitStepObservation
  usage : ExploitStepCost
  evidence : BTreeSet ExploitEvidenceReference

inductive ExploitExecutorFailure where
  | failed
  | incomplete

/-- What a call of the executor ends in. -/
inductive ExecutorAnswer where
  | receipt (receipt : ExploitStepReceipt)
  | failed (failure : ExploitExecutorFailure)
  | panicked

def observationMatchesPhase : ExploitStepPhase → ExploitStepObservation → Bool
  | .attempt, .attemptDelivered | .attempt, .failed | .attempt, .incomplete => true
  | .triggerVerification, .triggerObserved | .triggerVerification, .notObserved
  | .triggerVerification, .failed | .triggerVerification, .incomplete => true
  | .impactVerification, .impactVerified | .impactVerification, .notObserved
  | .impactVerification, .failed | .impactVerification, .incomplete => true
  | .cleanup, .cleanupPerformed | .cleanup, .failed | .cleanup, .incomplete => true
  | .cleanupVerification, .cleanupVerified | .cleanupVerification, .notObserved
  | .cleanupVerification, .failed | .cleanupVerification, .incomplete => true
  | _, _ => false

/-- The observations that need evidence. -/
def needsEvidence : ExploitStepObservation → Bool
  | .triggerObserved | .impactVerified | .cleanupVerified => true
  | _ => false

def receiptMatchesPermit (permit : ExploitStepPermit) (receipt : ExploitStepReceipt) : Bool :=
  receipt.run = permit.run &&
    receipt.target = permit.target &&
    receipt.module = permit.module &&
    receipt.manifestDigest = permit.manifestDigest &&
    receipt.planDigest = permit.planDigest &&
    receipt.step = permit.step &&
    receipt.phase = permit.phase &&
    receipt.correlation = permit.correlation &&
    receipt.usage.isWithin permit.cost &&
    receipt.usage.evidenceReferences = receipt.evidence.size &&
    receipt.evidence.size ≤ permit.cost.evidenceReferences &&
    observationMatchesPhase receipt.phase receipt.observation &&
    !(needsEvidence receipt.observation && receipt.evidence.isEmpty)

/-! ### Outcomes -/

inductive ExploitImpactStatus where
  | notVerified
  | verified
  deriving DecidableEq

inductive ExploitCleanupStatus where
  | notRequired
  | required
  | verified
  | failed
  | incomplete
  deriving DecidableEq

inductive ExploitRunOutcome where
  | completed
  | failed
  | cancelled
  | budgetExhausted
  | incomplete
  | cleanupFailed
  deriving DecidableEq

inductive ExploitRunFailure where
  | attemptFailed
  | triggerNotObserved
  | impactNotVerified
  | cleanupFailed
  | cleanupVerificationFailed
  | invalidReceipt
  | executorPanicked
  | budgetExhausted
  | cancelled
  | incomplete

structure PendingFailure where
  category : ExploitRunFailure
  terminal : ExploitLifecycleState
  outcome : ExploitRunOutcome

namespace PendingFailure

def cleanupStatus (failure : PendingFailure) : ExploitCleanupStatus :=
  match failure.category with
  | .cleanupFailed | .cleanupVerificationFailed => .failed
  | _ => .incomplete

def withCleanupTerminal (failure : PendingFailure) : PendingFailure :=
  ⟨failure.category, .cleanupFailed, .cleanupFailed⟩

def impactNotVerified : PendingFailure := ⟨.impactNotVerified, .incomplete, .incomplete⟩
def cleanupFailed : PendingFailure := ⟨.cleanupFailed, .cleanupFailed, .cleanupFailed⟩
def cleanupVerificationFailed : PendingFailure :=
  ⟨.cleanupVerificationFailed, .cleanupFailed, .cleanupFailed⟩
def invalidReceipt : PendingFailure := ⟨.invalidReceipt, .incomplete, .incomplete⟩
def executorPanicked : PendingFailure := ⟨.executorPanicked, .failed, .failed⟩
def budget : PendingFailure := ⟨.budgetExhausted, .budgetExhausted, .budgetExhausted⟩
def cancelled : PendingFailure := ⟨.cancelled, .cancelled, .cancelled⟩
def cancelledIncomplete : PendingFailure := ⟨.cancelled, .incomplete, .cancelled⟩
def incomplete : PendingFailure := ⟨.incomplete, .incomplete, .incomplete⟩

def failedFor : ExploitStepPhase → PendingFailure
  | .attempt => ⟨.attemptFailed, .failed, .failed⟩
  | .triggerVerification => ⟨.triggerNotObserved, .incomplete, .incomplete⟩
  | .impactVerification => impactNotVerified
  | .cleanup => cleanupFailed
  | .cleanupVerification => cleanupVerificationFailed

end PendingFailure

def failureFromReceipt (phase : ExploitStepPhase) (observation : ExploitStepObservation) :
    PendingFailure :=
  match observation with
  | .incomplete => .incomplete
  | .notObserved => if phase = .impactVerification then .impactNotVerified else .failedFor phase
  | _ => .failedFor phase

/-! ### Usage -/

/-- Bounded aggregate usage. -/
structure ExploitRunUsage where
  executorCalls : Nat := 0
  attemptCalls : Nat := 0
  verificationCalls : Nat := 0
  cleanupCalls : Nat := 0
  hostOperations : Nat := 0
  reportedRequests : Nat := 0
  requestBodyBytes : Nat := 0
  responseBodyBytes : Nat := 0
  cumulativeResponseBytes : Nat := 0
  evidenceReferences : Nat := 0
  artifacts : Nat := 0
  elapsedMilliseconds : Nat := 0

abbrev UsageCommand : Type := Command ExploitRunUsage ExploitOrchestrationError Unit

/-- Adds to one counter; an overflow leaves the counters written before it. -/
def addTo (top : Nat) (read : ExploitRunUsage → Nat) (write : ExploitRunUsage → Nat → ExploitRunUsage)
    (amount : Nat) : UsageCommand := do
  let usage ← get
  let value ← okOr (checkedAdd top (read usage) amount) ExploitOrchestrationError.usageOverflow
  set (write usage value)

def recordCall (phase : ExploitStepPhase) : UsageCommand := do
  addTo u32Max (·.executorCalls) (fun usage value => { usage with executorCalls := value }) 1
  match phase with
  | .attempt => addTo u32Max (·.attemptCalls) (fun usage value => { usage with attemptCalls := value }) 1
  | .triggerVerification | .impactVerification =>
    addTo u32Max (·.verificationCalls) (fun usage value => { usage with verificationCalls := value }) 1
  | .cleanup | .cleanupVerification =>
    addTo u32Max (·.cleanupCalls) (fun usage value => { usage with cleanupCalls := value }) 1

def charge (cost : ExploitStepCost) : UsageCommand := do
  addTo u32Max (·.hostOperations) (fun usage value => { usage with hostOperations := value })
    cost.hostOperations
  addTo u32Max (·.reportedRequests) (fun usage value => { usage with reportedRequests := value })
    cost.reportedRequests
  addTo u64Max (·.requestBodyBytes) (fun usage value => { usage with requestBodyBytes := value })
    cost.requestBodyBytes
  modify fun usage =>
    { usage with responseBodyBytes := max usage.responseBodyBytes cost.responseBodyBytes }
  addTo u64Max (·.cumulativeResponseBytes)
    (fun usage value => { usage with cumulativeResponseBytes := value }) cost.cumulativeResponseBytes
  addTo u32Max (·.evidenceReferences) (fun usage value => { usage with evidenceReferences := value })
    cost.evidenceReferences
  addTo u32Max (·.artifacts) (fun usage value => { usage with artifacts := value }) cost.artifacts
  addTo u64Max (·.elapsedMilliseconds) (fun usage value => { usage with elapsedMilliseconds := value })
    cost.elapsedMilliseconds

def ExploitRunUsage.isWithin (usage : ExploitRunUsage) (budget : ExploitExecutionBudget) : Bool :=
  usage.executorCalls ≤ budget.plannedSteps &&
    usage.attemptCalls ≤ budget.attemptSteps &&
    usage.verificationCalls ≤ budget.verificationSteps &&
    usage.cleanupCalls ≤ budget.cleanupSteps &&
    usage.hostOperations ≤ budget.hostOperations &&
    usage.reportedRequests ≤ budget.reportedRequests &&
    usage.requestBodyBytes ≤ budget.requestBodyBytes &&
    usage.responseBodyBytes ≤ budget.responseBodyBytes &&
    usage.cumulativeResponseBytes ≤ budget.cumulativeResponseBytes &&
    usage.evidenceReferences ≤ budget.evidenceReferences &&
    usage.artifacts ≤ budget.artifacts &&
    usage.elapsedMilliseconds ≤ budget.elapsedMilliseconds

/-! ### Reports -/

structure PendingEvent where
  state : ExploitLifecycleState
  evidence : BTreeSet ExploitEvidenceReference

structure ExploitRunEvent where
  state : ExploitLifecycleState
  evidence : List String

/-- Redaction-safe bounded run report. -/
structure ExploitRunReport where
  runReference : String
  module : ExploitModuleRef
  (manifestDigest planDigest targetReference : String)
  authorizationProfile : ExploitAuthorizationProfileId
  applicabilityState : ApplicabilityState
  events : List ExploitRunEvent
  furthestProvenState : ExploitLifecycleState
  outcome : ExploitRunOutcome
  impact : ExploitImpactStatus
  cleanup : ExploitCleanupStatus
  cleanupObligationRecorded : Bool
  usage : ExploitRunUsage
  evidenceInventory : List String
  failure : Option ExploitRunFailure

structure Execution where
  authorized : AuthorizedExploitPlan
  lifecycle : ExploitLifecycleState
  events : List PendingEvent
  usage : ExploitRunUsage
  seenReceipts : List ExploitStepId
  triggerEvidence : BTreeSet ExploitEvidenceReference
  impact : ExploitImpactStatus
  cleanup : ExploitCleanupStatus
  cleanupObligation : Bool
  furthestProvenState : ExploitLifecycleState

/-- `evidence-{:04}`. -/
def reportReference (index : Nat) : String :=
  let digits := toString (index + 1)
  "evidence-" ++ String.ofList (List.replicate (4 - digits.length) '0') ++ digits

section Reports

variable (sha256 : Bytes → Bytes)

/-- `ExploitOpaqueReference::target`. -/
def targetReference (target : ExploitTargetId) : String :=
  digestText sha256 "venom.exploit-target-reference/v1" [("target", target.value)] "target-sha256"

/-- `ExploitOpaqueReference::run`. -/
def runReference (run : ExploitRunId) (plan : String) : String :=
  digestText sha256 "venom.exploit-run-reference/v1" [("run", run.value), ("plan", plan)] "run-sha256"

def correlationFor (plan : ExploitPlan) (grant : ExploitGrantId) : String :=
  digestText sha256 "venom.exploit-step-correlation/v1"
    [("run", plan.run.value), ("plan", plan.digest), ("grant", grant.value)] "correlation-sha256"

/-- Evidence is renamed to document-local references in its order. -/
def Execution.intoReport (execution : Execution) (failure : Option PendingFailure) :
    ExploitRunReport :=
  let union := execution.events.foldl (fun union event => union ∪ event.evidence)
    (∅ : BTreeSet ExploitEvidenceReference)
  let rename (evidence : ExploitEvidenceReference) : String :=
    reportReference (union.toList.idxOf evidence)
  { runReference := runReference sha256 execution.authorized.plan.run execution.authorized.plan.digest
    module := execution.authorized.plan.module
    manifestDigest := execution.authorized.plan.manifestDigest
    planDigest := execution.authorized.plan.digest
    targetReference := targetReference sha256 execution.authorized.plan.target
    authorizationProfile := execution.authorized.policyId
    applicabilityState := .prerequisitesSatisfied
    events := execution.events.map fun event => ⟨event.state, event.evidence.toList.map rename⟩
    furthestProvenState := execution.furthestProvenState
    outcome := failure.elim .completed (·.outcome)
    impact := execution.impact
    cleanup := execution.cleanup
    cleanupObligationRecorded := execution.cleanupObligation
    usage := execution.usage
    evidenceInventory := union.toList.map rename
    failure := failure.map (·.category) }

end Reports

/-! ### The run and its host -/

/-- What happened in a run: reads of the cancellation counter, with the
cancellations that arrived since the read before, and calls of the executor. -/
inductive LogEntry where
  | read (arrived generation : Nat)
  | called (permit : ExploitStepPermit) (answer : ExecutorAnswer)

/-- The executor, and the callers of `cancel`. -/
structure Host where
  execute : List LogEntry → ExploitStepPermit → ExecutorAnswer
  arrivals : List LogEntry → Nat

structure RunState where
  execution : Execution
  generation : Nat
  log : List LogEntry

abbrev RunCommand (α : Type) : Type := Command RunState ExploitRunReport α

section Run

variable (sha256 : Bytes → Bytes) (host : Host)

/-- A read of the counter. Every `cancel` since the last one added one to it,
up to its largest value. -/
def generation : RunCommand Nat := do
  let s ← get
  let arrived := host.arrivals s.log
  let value := saturatingAdd u64Max s.generation arrived
  set { s with generation := value, log := s.log ++ [LogEntry.read arrived value] }
  return value

def callExecutor (permit : ExploitStepPermit) : RunCommand ExecutorAnswer := do
  let s ← get
  let answer := host.execute s.log permit
  set { s with log := s.log ++ [LogEntry.called permit answer] }
  return answer

/-- An assignment to fields of the execution. -/
def assign (f : Execution → Execution) : RunCommand Unit :=
  modify fun s => { s with execution := f s.execution }

/-- `transition`, with the `expect` behind it. -/
def transition (state : ExploitLifecycleState) (evidence : BTreeSet ExploitEvidenceReference) :
    RunCommand Unit := do
  let s ← get
  if !s.execution.lifecycle.legalTransition state then unwind
  assign fun execution =>
    { execution with
      lifecycle := state
      furthestProvenState := if state.isProof then state else execution.furthestProvenState
      events := execution.events ++ [{ state, evidence }] }

variable (failure : PendingFailure) (authorized : AuthorizedExploitPlan) {α : Type}

def finishTerminal : RunCommand Unit := transition failure.terminal ∅

/-- `return self.into_report(..)`. -/
def report (failure : Option PendingFailure) : RunCommand α := do
  let s ← get
  throw (s.execution.intoReport sha256 failure)

/-- The run ends with the failure. -/
def finish : RunCommand α := do
  finishTerminal failure
  report sha256 (some failure)

def Execution.stepOptional (execution : Execution) (phase : ExploitStepPhase) :
    Option ExploitPlanStep :=
  execution.authorized.plan.steps.find? fun step => step.phase = phase

/-- `step`, with the `expect` behind it. -/
def requireStep (phase : ExploitStepPhase) : RunCommand ExploitPlanStep := do
  let s ← get
  match s.execution.stepOptional phase with
  | some step => return step
  | none => unwind

def permitFor (step : ExploitPlanStep) : ExploitStepPermit where
  run := authorized.plan.run
  target := authorized.plan.target
  targetReference := targetReference sha256 authorized.plan.target
  module := authorized.plan.module
  manifestDigest := authorized.plan.manifestDigest
  planDigest := authorized.plan.digest
  step := step.id
  phase := step.phase
  correlation := correlationFor sha256 authorized.plan authorized.grantId
  cost := step.cost
  cleanupFor := step.cleanupFor

/-- An operation on the usage of the run: whether it overflowed. -/
def onUsage (operation : UsageCommand) : RunCommand Bool := fun s =>
  match operation s.execution.usage with
  | .ok _ usage => .ok true { s with execution := { s.execution with usage } }
  | .error _ usage => .ok false { s with execution := { s.execution with usage } }
  | .panic => .panic

/-- Whether the budget has room for one more call at this cost. -/
def reserves (usage : ExploitRunUsage) (phase : ExploitStepPhase) (cost : ExploitStepCost)
    (budget : ExploitExecutionBudget) : Bool :=
  match (do recordCall phase; charge cost : UsageCommand) usage with
  | .ok _ reserved => reserved.isWithin budget
  | _ => false

/-- `charge_failed_step`, and the failure it was called for. -/
def chargeFailedStep (cost : ExploitStepCost) (failure : PendingFailure) :
    RunCommand (Except PendingFailure ExploitStepReceipt) := do
  let charged ← onUsage (charge cost)
  if !charged then return .error .budget
  let s ← get
  if s.execution.usage.isWithin s.execution.authorized.effectiveBudget then return .error failure
  else return .error .budget

/-- `receipt_is_valid_once`. -/
def validateReceipt (permit : ExploitStepPermit) (receipt : ExploitStepReceipt) : RunCommand Bool := do
  if !receiptMatchesPermit permit receipt then return false
  let s ← get
  if s.execution.seenReceipts.contains receipt.step then return false
  assign fun execution => { execution with seenReceipts := execution.seenReceipts ++ [receipt.step] }
  return true

/-- A receipt that is charged to the run. -/
def chargeReceipt (receipt : ExploitStepReceipt) :
    RunCommand (Except PendingFailure ExploitStepReceipt) := do
  let charged ← onUsage (charge receipt.usage)
  if !charged then return .error .budget
  let s ← get
  if s.execution.usage.isWithin s.execution.authorized.effectiveBudget then return .ok receipt
  else return .error .budget

/-- What an answer of the executor is worth. -/
def settle (step : ExploitPlanStep) (permit : ExploitStepPermit) :
    ExecutorAnswer → RunCommand (Except PendingFailure ExploitStepReceipt)
  | .panicked => chargeFailedStep permit.cost .executorPanicked
  | .failed .failed => chargeFailedStep permit.cost (.failedFor step.phase)
  | .failed .incomplete => chargeFailedStep permit.cost .incomplete
  | .receipt receipt => do
    let valid ← validateReceipt permit receipt
    if !valid then chargeFailedStep permit.cost .invalidReceipt else chargeReceipt receipt

def invoke (step : ExploitPlanStep) : RunCommand (Except PendingFailure ExploitStepReceipt) := do
  let s ← get
  let permit := permitFor sha256 s.execution.authorized step
  if !reserves s.execution.usage step.phase permit.cost s.execution.authorized.effectiveBudget then
    return .error .budget
  let recorded ← onUsage (recordCall step.phase)
  if !recorded then return .error .budget
  let answer ← callExecutor host permit
  settle step permit answer

/-- The impact evidence is enough, and independent where that is required. -/
def impactEvidenceSuffices (contract : ExploitVerificationContract)
    (trigger evidence : BTreeSet ExploitEvidenceReference) : Bool :=
  !(contract.independentVerificationRequired && !(trigger ∩ evidence).isEmpty) &&
    contract.minimumEvidenceCount ≤ (trigger ∪ evidence).size

/-- What the result of a verification call is worth in its phase. -/
def judge : ExploitStepPhase → Except PendingFailure ExploitStepReceipt →
    RunCommand (Option PendingFailure)
  | _, .error failure => return some failure
  | .triggerVerification, .ok receipt =>
    if receipt.observation = .triggerObserved then do
      assign fun execution => { execution with triggerEvidence := receipt.evidence }
      transition .triggerObserved receipt.evidence
      return none
    else return some (failureFromReceipt .triggerVerification receipt.observation)
  | .impactVerification, .ok receipt =>
    if receipt.observation = .impactVerified then do
      let s ← get
      if impactEvidenceSuffices s.execution.authorized.manifest.verification
          s.execution.triggerEvidence receipt.evidence then do
        assign fun execution => { execution with impact := .verified }
        transition .impactVerified receipt.evidence
        return none
      else return some .impactNotVerified
    else return some (failureFromReceipt .impactVerification receipt.observation)
  | phase, .ok receipt => return some (failureFromReceipt phase receipt.observation)

def runVerificationStep (step : ExploitPlanStep) : RunCommand (Option PendingFailure) := do
  let first ← generation host
  if first ≠ 0 then return some .cancelled
  let before ← generation host
  let result ← invoke sha256 host step
  let after ← generation host
  if after ≠ before then return some .cancelled
  judge step.phase result

/-- An attempt that may change something has to be cleaned up. -/
def recordObligation (attempt : ExploitPlanStep) : RunCommand Unit := do
  let s ← get
  if s.execution.authorized.manifest.risk.cleanupRequired ∧ attempt.sideEffect = .reversible then
    assign fun execution => { execution with cleanupObligation := true }

/-- The attempt, and what is pending after it. -/
def deliverAttempt (attempt : ExploitPlanStep) : RunCommand (Option PendingFailure) := do
  match ← invoke sha256 host attempt with
  | .ok receipt =>
    if receipt.observation = .attemptDelivered then do
      transition .attemptDelivered receipt.evidence
      return none
    else return some (failureFromReceipt .attempt receipt.observation)
  | .error failure => return some failure

/-- A cancellation since the generation was read takes the place of what is
pending. -/
def unlessCancelled (since : Nat) (pending : Option PendingFailure) :
    RunCommand (Option PendingFailure) := do
  let current ← generation host
  return if current ≠ since then some .cancelled else pending

/-- The evidence of the receipt joins the last event. -/
def attachEvidence (events : List PendingEvent) (evidence : BTreeSet ExploitEvidenceReference) :
    List PendingEvent :=
  events.modify (events.length - 1) fun event => { event with evidence }

/-- A cleanup call that fails ends the run. -/
def failCleanup (status : ExploitCleanupStatus) (failure : PendingFailure) :
    RunCommand α := do
  assign fun execution => { execution with cleanup := status }
  finish sha256 failure

/-- A new cancellation ends the run with its cleanup incomplete. -/
def requireUncancelled (since : Nat) : RunCommand Unit := do
  let current ← generation host
  if current ≠ since then failCleanup sha256 .incomplete .cancelledIncomplete

/-- The cleanup call. -/
def performCleanup : Option ExploitPlanStep → RunCommand Unit
  | none => failCleanup sha256 .incomplete .incomplete
  | some step => do
    match ← invoke sha256 host step with
    | .ok receipt =>
      if receipt.observation = .cleanupPerformed then
        assign fun execution =>
          { execution with events := attachEvidence execution.events receipt.evidence }
      else failCleanup sha256 .failed .cleanupFailed
    | .error failure => failCleanup sha256 failure.cleanupStatus failure.withCleanupTerminal

/-- The call that verifies cleanup. -/
def verifyCleanup (beforeCleanup : Nat) : Option ExploitPlanStep → RunCommand Unit
  | none => failCleanup sha256 .incomplete .incomplete
  | some step => do
    match ← invoke sha256 host step with
    | .ok receipt =>
      if receipt.observation = .cleanupVerified then do
        requireUncancelled sha256 host beforeCleanup
        assign fun execution => { execution with cleanup := .verified }
        transition .cleanupVerified receipt.evidence
      else failCleanup sha256 .failed .cleanupVerificationFailed
    | .error failure => failCleanup sha256 failure.cleanupStatus failure.withCleanupTerminal

/-- Cleanup and its verification, while the obligation stands. -/
def runCleanup (cleanup cleanupVerification : Option ExploitPlanStep) (beforeCleanup : Nat) :
    RunCommand Unit := do
  transition .cleanupRequired ∅
  transition .cleanupStarted ∅
  performCleanup sha256 host cleanup
  requireUncancelled sha256 host beforeCleanup
  verifyCleanup sha256 host beforeCleanup cleanupVerification

/-- The attempt and the two verification steps, until one of them fails. -/
def runPhases (attempt trigger impact : ExploitPlanStep) (attemptGeneration : Nat) :
    RunCommand (Option PendingFailure) := do
  recordObligation attempt
  let pending ← deliverAttempt sha256 host attempt
  let pending ← unlessCancelled host attemptGeneration pending
  let pending ← unlessStopped pending (runVerificationStep sha256 host trigger)
  unlessStopped pending (runVerificationStep sha256 host impact)

/-- Cleanup, if the obligation was recorded. -/
def discharge (cleanup cleanupVerification : Option ExploitPlanStep) (attemptGeneration : Nat)
    (pending : Option PendingFailure) : RunCommand (Option PendingFailure) := do
  let s ← get
  if !s.execution.cleanupObligation then return pending
  let beforeCleanup ← generation host
  let pending := if pending.isNone ∧ beforeCleanup ≠ attemptGeneration then some .cancelled else pending
  runCleanup sha256 host cleanup cleanupVerification beforeCleanup
  return pending

/-- The end of a run that was not cut off. -/
def conclude (attemptGeneration : Nat) (pending : Option PendingFailure) :
    RunCommand ExploitRunReport := do
  let pending ← unlessStopped pending (unlessCancelled host attemptGeneration none)
  match pending with
  | some failure => finish sha256 failure
  | none => do
    let s ← get
    if s.execution.impact = .verified then do
      transition .completed ∅
      report sha256 none
    else finish sha256 .incomplete

/-- `run`: it ends in a report, thrown where the source returns it. -/
def Execution.run : RunCommand ExploitRunReport := do
  let attemptGeneration ← generation host
  if attemptGeneration ≠ 0 then finish sha256 .cancelled
  let attempt ← requireStep .attempt
  let trigger ← requireStep .triggerVerification
  let impact ← requireStep .impactVerification
  let s ← get
  let cleanup := s.execution.stepOptional .cleanup
  let cleanupVerification := s.execution.stepOptional .cleanupVerification
  transition .attemptStarted ∅
  let started ← generation host
  if started ≠ attemptGeneration then finish sha256 .cancelled
  let pending ← runPhases sha256 host attempt trigger impact attemptGeneration
  let pending ← discharge sha256 host cleanup cleanupVerification attemptGeneration pending
  conclude sha256 host attemptGeneration pending

/-- The states every execution starts through. -/
def preparationStates : List ExploitLifecycleState :=
  [.applicabilityUnknown, .productMatched, .versionApplicable, .prerequisitesSatisfied, .authorized,
    .planned]

/-- `Execution::new`; nothing if the `expect` on the evidence count or on a
transition fails. -/
def Execution.new : Option Execution :=
  if authorized.applicabilityEvidence.size > u32Max then none
  else if !ExploitLifecycleState.catalogued.legalPath preparationStates then none
  else some {
    authorized
    lifecycle := .planned
    events := { state := .catalogued, evidence := ∅ } :: preparationStates.map fun state =>
      { state
        evidence := if state = .prerequisitesSatisfied then authorized.applicabilityEvidence else ∅ }
    usage := { evidenceReferences := authorized.applicabilityEvidence.size }
    seenReceipts := []
    triggerEvidence := ∅
    impact := .notVerified
    cleanup := if authorized.manifest.risk.cleanupRequired then .required else .notRequired
    cleanupObligation := false
    furthestProvenState := .planned }

/-- The report and the log of a run; nothing if it panics. -/
def execute : Option (ExploitRunReport × List LogEntry) := do
  let execution ← Execution.new authorized
  match Execution.run sha256 host { execution, generation := 0, log := [] } with
  | .ok report s => some (report, s.log)
  | .error report s => some (report, s.log)
  | .panic => none

end Run

end Termivar.Exploit
