/-
# Exploit manifests

The declarations a manifest makes about its risk, its authorization, its
budget, its verification and its cleanup, with the checks that admit them
(`termivar-exploit/src/{ids,risk,authorization_contract,budget,manifest}.rs`).
A manifest carries the proof that it was admitted. Texts, classification and
applicability requirements are only hashed by what is modelled here: the
manifest keeps the digest over all of them.
-/
import Termivar.Collections
import Termivar.Command
import Termivar.Machine

namespace Termivar.Exploit

/-- Closed failures of the metadata checks. -/
inductive ExploitModelError where
  | invalidIdentifier (field : String)
  | invalidBudget (field : String)
  | invalidEvidenceSet
  | limitExceeded (field : String) (limit : Nat)
  | inconsistentContract (reason : String)
  | illegalTransition (domain : String)
  deriving DecidableEq

/-! ### Identifiers -/

def maxIdBytes : Nat := 64
def maxManifestListItems : Nat := 32

def isAsciiLowerOrDigit (c : Char) : Bool := ('a' ≤ c && c ≤ 'z') || ('0' ≤ c && c ≤ '9')

/-- Two dots in a row. -/
def hasDotDot : List Char → Bool
  | '.' :: '.' :: _ => true
  | _ :: rest => hasDotDot rest
  | [] => false

/-- `validate_id`. The source also refuses surrounding blanks, slashes, colons
and at signs by name; none of them passes the check of every byte. -/
def validateId (value : String) (field : String) : Except ExploitModelError Unit :=
  if value.isEmpty ∨ value.utf8ByteSize > maxIdBytes ∨ hasDotDot value.toList ∨
      ¬(value.toList.all fun c => isAsciiLowerOrDigit c || c = '.' || c = '_' || c = '-') ∨
      ¬value.toList.head?.any isAsciiLowerOrDigit ∨ ¬value.toList.getLast?.any isAsciiLowerOrDigit then
    .error (.invalidIdentifier field)
  else .ok ()

/-- The instances of `bounded_id!` and the identities checked like them. -/
inductive BoundedIdKind where
  | pack
  | module
  | implementation
  | applicabilityProducer
  | authorizationProfile
  | acknowledgement
  | step
  | evidenceContract
  | target
  | evidence
  | run
  | grant

/-- The field the check of an identity names. -/
def BoundedIdKind.field : BoundedIdKind → String
  | .pack => "pack_id"
  | .module => "module_id"
  | .implementation => "implementation_id"
  | .applicabilityProducer => "applicability_producer_id"
  | .authorizationProfile => "authorization_profile_id"
  | .acknowledgement => "acknowledgement_id"
  | .step => "step_id"
  | .evidenceContract => "evidence_contract_id"
  | .target => "target_id"
  | .evidence => "evidence_id"
  | .run => "run_id"
  | .grant => "grant_id"

structure BoundedId (kind : BoundedIdKind) where
  value : String
  checked : validateId value kind.field = .ok ()
  deriving DecidableEq

namespace BoundedId

variable {kind : BoundedIdKind}

theorem value_injective : Function.Injective fun id : BoundedId kind => id.value := by
  rintro ⟨a, _⟩ ⟨b, _⟩ h
  simp only at h
  subst h
  rfl

instance : Ord (BoundedId kind) where
  compare := compareOn (·.value)

instance : Std.TransOrd (BoundedId kind) := inferInstanceAs (Std.TransCmp (compareOn BoundedId.value))

instance : Std.LawfulEqOrd (BoundedId kind) := lawfulEqCmp_compareOn value_injective

end BoundedId

abbrev ExploitStepId : Type := BoundedId .step
abbrev ExploitTargetId : Type := BoundedId .target
abbrev ExploitEvidenceReference : Type := BoundedId .evidence
abbrev ExploitEvidenceContractId : Type := BoundedId .evidenceContract
abbrev ExploitAcknowledgementId : Type := BoundedId .acknowledgement
abbrev ExploitAuthorizationProfileId : Type := BoundedId .authorizationProfile
abbrev ExploitApplicabilityProducerId : Type := BoundedId .applicabilityProducer
abbrev ExploitRunId : Type := BoundedId .run
abbrev ExploitGrantId : Type := BoundedId .grant

/-- Exact catalog key for one module in one pack. -/
structure ExploitModuleRef where
  pack : BoundedId .pack
  module : BoundedId .module
  deriving DecidableEq

/-! ### Risk -/

inductive OperationalRisk where
  | passive
  | readOnly
  | reversibleStateChange
  | irreversibleStateChange
  | serviceDisruption
  | commandExecution
  | persistence
  | lateralMovement

inductive SideEffectClass where
  | none
  | readOnly
  | reversible
  | irreversible
  | unknown
  deriving DecidableEq

namespace SideEffectClass

/-- The declaration order. -/
def rank : SideEffectClass → Nat
  | .none => 0
  | .readOnly => 1
  | .reversible => 2
  | .irreversible => 3
  | .unknown => 4

instance : Ord SideEffectClass where
  compare := compareOn rank

instance : Std.TransOrd SideEffectClass := inferInstanceAs (Std.TransCmp (compareOn rank))

end SideEffectClass

def riskPolicyRank : OperationalRisk → Nat
  | .passive => 0
  | .readOnly => 1
  | .reversibleStateChange => 2
  | .irreversibleStateChange => 3
  | .serviceDisruption => 4
  | .commandExecution => 5
  | .persistence => 6
  | .lateralMovement => 7

def OperationalRisk.isWithinCeiling (risk ceiling : OperationalRisk) : Bool :=
  riskPolicyRank risk ≤ riskPolicyRank ceiling

def stateChanging (sideEffect : SideEffectClass) : Bool :=
  sideEffect = .reversible || sideEffect = .irreversible || sideEffect = .unknown

structure RawExploitRiskDeclaration where
  operationalRisk : OperationalRisk
  sideEffect : SideEffectClass
  (possibleServiceDisruption possibleDataRead possibleDataMutation possibleCommandExecution : Bool)
  (possiblePersistence possibleLateralMovement cleanupRequired : Bool)

/-- Whether risk, side effect, impact flags and cleanup agree. -/
def RawExploitRiskDeclaration.consistent (raw : RawExploitRiskDeclaration) : Bool :=
  let highImpact := raw.possibleServiceDisruption || raw.possibleCommandExecution ||
    raw.possiblePersistence || raw.possibleLateralMovement
  match raw.operationalRisk with
  | .passive => raw.sideEffect = .none && !raw.possibleDataRead && !raw.possibleDataMutation &&
    !highImpact && !raw.cleanupRequired
  | .readOnly => raw.sideEffect = .readOnly && !raw.possibleDataMutation && !highImpact &&
    !raw.cleanupRequired
  | .reversibleStateChange => raw.sideEffect = .reversible && raw.possibleDataMutation &&
    !highImpact && raw.cleanupRequired
  | .irreversibleStateChange => raw.sideEffect = .irreversible && raw.possibleDataMutation &&
    !highImpact && raw.cleanupRequired
  | .serviceDisruption => stateChanging raw.sideEffect && raw.possibleServiceDisruption &&
    !raw.possibleCommandExecution && !raw.possiblePersistence && !raw.possibleLateralMovement &&
    raw.cleanupRequired
  | .commandExecution => stateChanging raw.sideEffect && raw.possibleCommandExecution &&
    !raw.possiblePersistence && !raw.possibleLateralMovement && raw.cleanupRequired
  | .persistence => stateChanging raw.sideEffect && raw.possibleDataMutation &&
    raw.possibleCommandExecution && raw.possiblePersistence && !raw.possibleLateralMovement &&
    raw.cleanupRequired
  | .lateralMovement => stateChanging raw.sideEffect && raw.possibleDataMutation &&
    raw.possibleLateralMovement && raw.cleanupRequired

def RawExploitRiskDeclaration.validate (raw : RawExploitRiskDeclaration) :
    Except ExploitModelError Unit :=
  if raw.consistent then .ok ()
  else .error
    (.inconsistentContract "operational risk, side effect, impact flags, and cleanup disagree")

structure ExploitRiskDeclaration extends RawExploitRiskDeclaration where
  checked : toRawExploitRiskDeclaration.validate = .ok ()

/-- Below an irreversible change, cleanup is required of reversible effects only. -/
theorem ExploitRiskDeclaration.reversible_of_cleanup (risk : ExploitRiskDeclaration)
    (hceil : risk.operationalRisk.isWithinCeiling .reversibleStateChange = true)
    (hcln : risk.cleanupRequired = true) : risk.sideEffect = .reversible := by
  obtain ⟨raw, hchec⟩ := risk
  have hcons : raw.consistent = true := by
    by_contra hno
    rw [RawExploitRiskDeclaration.validate, if_neg hno] at hchec
    cases hchec
  cases hrisk : raw.operationalRisk <;>
    simp_all [RawExploitRiskDeclaration.consistent, OperationalRisk.isWithinCeiling, riskPolicyRank]

/-! ### Authorization requirements -/

inductive AuthorizationProfile where
  | dryRunOnly
  | labExecution
  | readOnlyAuthorized
  | reversibleAuthorized
  | highImpactAuthorized
  deriving DecidableEq

structure RawAuthorizationRequirements where
  profileId : ExploitAuthorizationProfileId
  minimumProfile : AuthorizationProfile
  exactTargetRequired : Bool
  requiredAcknowledgements : BTreeSet ExploitAcknowledgementId
  (labOnly reversibleStateChangePermitted highImpactExecutionPermitted : Bool)

def RawAuthorizationRequirements.validate (raw : RawAuthorizationRequirements) :
    Except ExploitModelError Unit := do
  if !raw.exactTargetRequired then
    throw (.inconsistentContract "V1 exploit manifests require exact target binding")
  if raw.requiredAcknowledgements.size > maxManifestListItems then
    throw (.limitExceeded "required_acknowledgements" maxManifestListItems)
  if raw.labOnly ∧ raw.minimumProfile ≠ .labExecution then
    throw (.inconsistentContract "lab-only manifests require the lab-execution profile")
  -- the profile is below the highest one exactly when it is another
  if raw.highImpactExecutionPermitted ∧ raw.minimumProfile ≠ .highImpactAuthorized then
    throw (.inconsistentContract "high-impact permission requires the high-impact profile")

structure AuthorizationRequirements extends RawAuthorizationRequirements where
  checked : toRawAuthorizationRequirements.validate = .ok ()

/-! ### Budget declarations -/

def maxPlannedSteps : Nat := 256
def maxPhaseSteps : Nat := 128
def maxHostOperations : Nat := 512
def maxReportedRequests : Nat := 512
def maxRequestBodyBytes : Nat := 4 * 1024 * 1024
def maxResponseBodyBytes : Nat := 8 * 1024 * 1024
def maxCumulativeResponseBytes : Nat := 32 * 1024 * 1024
def maxEvidenceReferences : Nat := 256
def maxArtifacts : Nat := 64
def maxElapsedMilliseconds : Nat := 60 * 60 * 1000

structure RawExploitBudgetLimits where
  (plannedSteps attemptSteps verificationSteps cleanupSteps hostOperations reportedRequests : Nat)
  (requestBodyBytes responseBodyBytes cumulativeResponseBytes evidenceReferences artifacts : Nat)
  elapsedMilliseconds : Nat

/-- `check_u32` and `check_u64`. -/
def checkLimit (field : String) (value maximum : Nat) : Except ExploitModelError Unit :=
  if value = 0 ∨ value > maximum then .error (.invalidBudget field) else .ok ()

def RawExploitBudgetLimits.validate (raw : RawExploitBudgetLimits) :
    Except ExploitModelError Unit := do
  checkLimit "planned_steps" raw.plannedSteps maxPlannedSteps
  checkLimit "attempt_steps" raw.attemptSteps maxPhaseSteps
  checkLimit "verification_steps" raw.verificationSteps maxPhaseSteps
  checkLimit "cleanup_steps" raw.cleanupSteps maxPhaseSteps
  checkLimit "host_operations" raw.hostOperations maxHostOperations
  checkLimit "reported_requests" raw.reportedRequests maxReportedRequests
  checkLimit "request_body_bytes" raw.requestBodyBytes maxRequestBodyBytes
  checkLimit "response_body_bytes" raw.responseBodyBytes maxResponseBodyBytes
  checkLimit "cumulative_response_bytes" raw.cumulativeResponseBytes maxCumulativeResponseBytes
  checkLimit "evidence_references" raw.evidenceReferences maxEvidenceReferences
  checkLimit "artifacts" raw.artifacts maxArtifacts
  checkLimit "elapsed_milliseconds" raw.elapsedMilliseconds maxElapsedMilliseconds
  let phaseSteps ← okOr ((checkedAdd u32Max raw.attemptSteps raw.verificationSteps).bind fun count =>
    checkedAdd u32Max count raw.cleanupSteps) (.invalidBudget "phase step sum")
  if phaseSteps > raw.plannedSteps ∨ phaseSteps > raw.hostOperations then
    throw (.invalidBudget "phase steps exceed declared totals")
  if raw.responseBodyBytes > raw.cumulativeResponseBytes then
    throw (.invalidBudget "per-response bytes exceed cumulative response bytes")

/-- Manifest-declared hard ceilings. A runtime grant may only narrow them. -/
structure ExploitBudgetLimits extends RawExploitBudgetLimits where
  checked : toRawExploitBudgetLimits.validate = .ok ()

/-! ### Verification and cleanup -/

structure RawExploitVerificationContract where
  (triggerEvidenceContract impactEvidenceContract : ExploitEvidenceContractId)
  nonceCorrelationRequired : Bool
  minimumEvidenceCount : Nat
  independentVerificationRequired : Bool

def RawExploitVerificationContract.validate (raw : RawExploitVerificationContract) :
    Except ExploitModelError Unit := do
  if raw.minimumEvidenceCount = 0 ∨ raw.minimumEvidenceCount > maxManifestListItems then
    throw .invalidEvidenceSet
  if raw.triggerEvidenceContract = raw.impactEvidenceContract then
    throw (.inconsistentContract "trigger and impact evidence contracts must be distinct")

structure ExploitVerificationContract extends RawExploitVerificationContract where
  checked : toRawExploitVerificationContract.validate = .ok ()

inductive CleanupMode where
  | none
  | bestEffort
  | mandatory
  deriving DecidableEq

inductive CleanupFinalState where
  | notRequired
  | verified
  | failed
  | incomplete
  deriving DecidableEq

/-- The final states are a set: a list without repetitions in the order of
their declaration. -/
structure RawCleanupContract where
  mode : CleanupMode
  verificationRequired : Bool
  stepCeiling : Nat
  acceptableFinalStates : List CleanupFinalState

def RawCleanupContract.validate (raw : RawCleanupContract) : Except ExploitModelError Unit := do
  if raw.acceptableFinalStates.length > maxManifestListItems then
    throw (.limitExceeded "acceptable_final_states" maxManifestListItems)
  match raw.mode with
  | .none =>
    if raw.verificationRequired ∨ raw.stepCeiling ≠ 0 ∨
        raw.acceptableFinalStates ≠ [.notRequired] then
      throw (.inconsistentContract
        "cleanup-none must have zero steps and only not-required final state")
  | .bestEffort =>
    if raw.stepCeiling = 0 ∨ raw.acceptableFinalStates.isEmpty then
      throw (.inconsistentContract "best-effort cleanup requires bounded steps and final states")
  | .mandatory =>
    if raw.stepCeiling = 0 ∨ !raw.verificationRequired ∨
        raw.acceptableFinalStates ≠ [.verified] then
      throw (.inconsistentContract
        "mandatory cleanup requires verification and exactly the verified final state")

structure CleanupContract extends RawCleanupContract where
  checked : toRawCleanupContract.validate = .ok ()

/-! ### Manifests -/

inductive ExploitMaturity where
  | experimental
  | labVerified
  | reproduced
  | maintained
  | deprecated
  | blocked
  deriving DecidableEq

structure RawExploitManifest where
  moduleRef : ExploitModuleRef
  implementationId : BoundedId .implementation
  risk : ExploitRiskDeclaration
  authorization : AuthorizationRequirements
  budget : ExploitBudgetLimits
  verification : ExploitVerificationContract
  cleanup : CleanupContract
  maturity : ExploitMaturity
  /-- `digest()`: over these fields and the texts that are not modelled. -/
  digest : String

/-- `validate_cross_contracts`. -/
def RawExploitManifest.validateCrossContracts (raw : RawExploitManifest) :
    Except ExploitModelError Unit := do
  if raw.risk.cleanupRequired ≠ (raw.cleanup.mode ≠ .none : Bool) then
    throw (.inconsistentContract "risk and cleanup declarations disagree")
  if raw.risk.cleanupRequired ∧ raw.cleanup.mode ≠ .mandatory then
    throw (.inconsistentContract "state-changing V1 manifests require mandatory cleanup")
  if raw.cleanup.stepCeiling > raw.budget.cleanupSteps then
    throw (.inconsistentContract "cleanup step ceiling exceeds cleanup budget")
  if raw.verification.minimumEvidenceCount > raw.budget.evidenceReferences then
    throw (.inconsistentContract "verification evidence count exceeds the evidence budget")
  if raw.verification.triggerEvidenceContract = raw.verification.impactEvidenceContract then
    throw (.inconsistentContract "trigger and impact evidence contracts must be distinct")
  if raw.risk.sideEffect = .reversible ∧ !raw.authorization.reversibleStateChangePermitted then
    throw (.inconsistentContract "reversible mutation is not allowed by authorization requirements")
  if raw.authorization.labOnly ∧
      (raw.maturity = .maintained ∨ raw.maturity = .reproduced) then
    throw (.inconsistentContract "lab-only modules cannot claim production maturity")

/-- One validated immutable exploit manifest. -/
structure ExploitManifest extends RawExploitManifest where
  checked : toRawExploitManifest.validateCrossContracts = .ok ()

/-- Cleanup is declared exactly when the risk requires it. -/
theorem ExploitManifest.cleanup_mode (manifest : ExploitManifest) :
    manifest.cleanup.mode ≠ .none ↔ manifest.risk.cleanupRequired = true := by
  have hchec := manifest.checked
  unfold RawExploitManifest.validateCrossContracts at hchec
  by_cases hagr : manifest.risk.cleanupRequired = (manifest.cleanup.mode ≠ .none : Bool)
  · rw [hagr, decide_eq_true_eq]
  · rw [if_pos hagr] at hchec
    cases hchec

end Termivar.Exploit
