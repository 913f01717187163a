/-
# Experience from outcomes

`termivar-scanner/src/experience.rs`: a store keeps the outcomes of actions in
the order of their observation, each under the identity of its subject, action,
case and stage, and assesses whether an action is still worth trying. A vector
whose bytes would exceed `isize::MAX` panics.
-/
import Termivar.Adaptive.Pipeline

namespace Termivar

/-! ### Dispositions -/

/-- Reason an observed attempt should or should not influence future planning. -/
inductive ExperienceDisposition where
  | confirmedPositive
  | notApplicable
  | blockedByTarget
  | blockedByPolicy
  | transportFailure
  | executorFailure
  | verificationRejected
  | verificationInconclusive
  | confirmedNegative
  deriving DecidableEq

inductive SuppressionEffect where
  | increment
  | reset
  | neutral
  deriving DecidableEq

namespace ExperienceDisposition

/-- Infers the conservative disposition of an outcome. -/
def fromOutcome (outcome : VerificationOutcome) : ExperienceDisposition :=
  match outcome.status with
  | .success => .confirmedPositive
  | .blocked => .blockedByTarget
  | .unknown | .needsReview => .verificationInconclusive
  | .falsePositive => .verificationRejected
  | .confirmedNegative => .confirmedNegative

def accepts (disposition : ExperienceDisposition) (status : OutcomeStatus) : Bool :=
  match disposition with
  | .confirmedPositive => status = .success
  | .verificationRejected => status = .falsePositive
  | .confirmedNegative => status = .confirmedNegative
  | .blockedByTarget => status = .blocked
  | .notApplicable | .blockedByPolicy | .transportFailure | .executorFailure
  | .verificationInconclusive => status = .unknown || status = .needsReview

def suppressionEffect : ExperienceDisposition → SuppressionEffect
  | .confirmedPositive => .reset
  | .verificationRejected | .confirmedNegative => .increment
  | .notApplicable | .blockedByTarget | .blockedByPolicy | .transportFailure | .executorFailure
  | .verificationInconclusive => .neutral

end ExperienceDisposition

/-- Validation and consistency errors raised by the experience store. -/
inductive ExperienceStoreError where
  | zeroFailureLimit
  | identityConflict (subject : EntityId) (actionId caseId : String) (stage : VerificationStage)
  | sequenceOverflow
  | invalidSequence (expected actual : Nat)
  | invalidNextSequence (expected actual : Nat)
  | duplicateObservation
  | incompatibleDisposition (status : OutcomeStatus) (disposition : ExperienceDisposition)

def validateDisposition (outcome : VerificationOutcome) (disposition : ExperienceDisposition) :
    Except ExperienceStoreError Unit :=
  if disposition.accepts outcome.status then .ok ()
  else .error (.incompatibleDisposition outcome.status disposition)

/-! ### Records -/

inductive ExperienceWrite where
  | inserted
  | unchanged
  deriving DecidableEq

/-- Stable learning policy applied when assessing one action. -/
structure ExperiencePolicy where
  consecutiveFailureLimit : Nat
  positive : 0 < consecutiveFailureLimit
  bounded : consecutiveFailureLimit ≤ u16Max

/-- Immutable record stored in global observation order. -/
structure ExperienceRecord where
  sequence : Nat
  outcome : VerificationOutcome
  disposition : ExperienceDisposition
  deriving DecidableEq

/-- What was observed, without its place in the order. -/
abbrev Observation : Type := VerificationOutcome × ExperienceDisposition

def ExperienceRecord.observation (record : ExperienceRecord) : Observation :=
  (record.outcome, record.disposition)

def sameIdentity (left right : VerificationOutcome) : Bool :=
  left.subject = right.subject && left.actionId = right.actionId && left.caseId = right.caseId &&
    left.stage = right.stage

def isCompletedAttempt (outcome : VerificationOutcome) : Bool :=
  match outcome.status with
  | .success | .blocked | .falsePositive | .confirmedNegative => true
  | .unknown | .needsReview => outcome.stage = .active

/-- Replayable, target-scoped outcome experience. -/
structure ExperienceStore where
  nextSequence : Nat
  records : List ExperienceRecord

/-- No vector is longer. -/
def vecCapacity : Nat := 2 ^ 63 - 1

/-! ### Assessments -/

inductive ExperienceRecommendation where
  | explore
  | proceed
  | suppress
  deriving DecidableEq

/-- Explainable assessment of action history for one subject. -/
structure ExperienceAssessment where
  subject : EntityId
  actionId : String
  (completedAttempts consecutiveFailures : Nat)
  lastStatus : Option OutcomeStatus
  lastStage : Option VerificationStage
  lastDisposition : Option ExperienceDisposition
  recommendation : ExperienceRecommendation
  rationale : String

def ExperienceAssessment.isSuppressed (assessment : ExperienceAssessment) : Bool :=
  assessment.recommendation = .suppress

/-- The loop over the completed attempts, the latest first. -/
def countFailures : List Observation → Nat → Nat
  | [], consecutiveFailures => consecutiveFailures
  | observation :: rest, consecutiveFailures =>
    match observation.2.suppressionEffect with
    | .increment => countFailures rest (min (consecutiveFailures + 1) u16Max)
    | .reset => consecutiveFailures
    | .neutral => countFailures rest consecutiveFailures

/-- The recommendation for a count of failures. -/
def recommend (policy : ExperiencePolicy) (consecutiveFailures : Nat) (completed : List Observation) :
    ExperienceRecommendation :=
  if policy.consecutiveFailureLimit ≤ consecutiveFailures then .suppress
  else if completed.isEmpty then .explore
  else .proceed

def rationaleFor (policy : ExperiencePolicy) (consecutiveFailures : Nat) :
    ExperienceRecommendation → String
  | .explore => "no completed experience exists for this subject and action"
  | .proceed => toString consecutiveFailures ++
      " suppression-eligible verified negatives remain below the policy limit of " ++
      toString policy.consecutiveFailureLimit
  | .suppress => toString consecutiveFailures ++
      " suppression-eligible verified negatives reached the policy limit of " ++
      toString policy.consecutiveFailureLimit

/-- The assessment of the completed attempts. -/
def concludeAssessment (subject : EntityId) (actionId : String) (policy : ExperiencePolicy)
    (completed : List Observation) : ExperienceAssessment :=
  let consecutiveFailures := countFailures completed.reverse 0
  let recommendation := recommend policy consecutiveFailures completed
  { subject
    actionId
    completedAttempts := completed.length
    consecutiveFailures
    lastStatus := completed.getLast?.map fun observation => observation.1.status
    lastStage := completed.getLast?.map fun observation => observation.1.stage
    lastDisposition := completed.getLast?.map Prod.snd
    recommendation
    rationale := rationaleFor policy consecutiveFailures recommendation }

/-- A record of a case takes its entry, or replaces the passive one by an active one. -/
def supersede (latest : BTreeMap String ExperienceRecord) (record : ExperienceRecord) :
    BTreeMap String ExperienceRecord :=
  match latest[record.outcome.caseId]? with
  | none => latest.insert record.outcome.caseId record
  | some existing =>
    if existing.outcome.stage = .passive ∧ record.outcome.stage = .active then
      latest.insert record.outcome.caseId record
    else latest

def latestByCase (history : List ExperienceRecord) : BTreeMap String ExperienceRecord :=
  history.foldl supersede ∅

/-- The completed attempts of a history, one for each case, in their order. -/
def completedAttempts (history : List ExperienceRecord) : List ExperienceRecord :=
  (((latestByCase history).toList.map Prod.snd).filter fun record =>
    isCompletedAttempt record.outcome).mergeSort fun left right => left.sequence ≤ right.sequence

namespace ExperienceStore

def new : ExperienceStore := ⟨0, []⟩

/-- Records an outcome with an explicit, status-compatible disposition. -/
def observeWithDisposition (outcome : VerificationOutcome) (disposition : ExperienceDisposition) :
    Command ExperienceStore ExperienceStoreError ExperienceWrite := do
  validateDisposition outcome disposition
  let store ← get
  match store.records.find? fun record => sameIdentity record.outcome outcome with
  | some existing =>
    if existing.outcome = outcome ∧ existing.disposition = disposition then return .unchanged
    else throw (.identityConflict outcome.subject outcome.actionId outcome.caseId outcome.stage)
  | none => do
    let following ← okOr (checkedAdd u64Max store.nextSequence 1)
      ExperienceStoreError.sequenceOverflow
    if vecCapacity ≤ store.records.length then Command.unwind
    set (⟨following, store.records ++ [⟨store.nextSequence, outcome, disposition⟩]⟩ : ExperienceStore)
    return .inserted

/-- Records one immutable outcome in deterministic call order. -/
def observe (outcome : VerificationOutcome) :
    Command ExperienceStore ExperienceStoreError ExperienceWrite :=
  observeWithDisposition outcome (.fromOutcome outcome)

variable (store : ExperienceStore) (subject : EntityId)

/-- Records for one subject and action in observation order. -/
def history (actionId : String) :
    List ExperienceRecord :=
  store.records.filter fun record =>
    record.outcome.subject = subject && record.outcome.actionId = actionId

/-- Assesses the latest completed result for each distinct verification case. -/
def assess (actionId : String)
    (policy : ExperiencePolicy) : ExperienceAssessment :=
  concludeAssessment subject actionId policy
    ((completedAttempts (store.history subject actionId)).map ExperienceRecord.observation)

/-- Policy-suppressed action IDs for one subject in stable order. -/
def suppressedActions (policy : ExperiencePolicy) :
    BTreeSet String :=
  let actionIds := (store.records.filter fun record => record.outcome.subject = subject).map
    fun record => record.outcome.actionId
  (Std.ExtTreeSet.ofList actionIds).filter fun actionId =>
    (store.assess subject actionId policy).isSuppressed

end ExperienceStore

end Termivar
