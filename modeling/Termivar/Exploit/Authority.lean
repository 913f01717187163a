/-
# Authority is never widened

Grants of a host (`termivar-exploit/src/orchestration_authority.rs`), what may
be done to them, and the check that turns a prepared plan and a grant into an
authorized plan (`ExploitOrchestrator::authorize`). Whatever the two parties
narrow, an authorized plan runs under the meet of their budgets.
-/
import Termivar.Exploit.Plan

namespace Termivar.Exploit

open Command ExploitExecutionBudget

inductive ExploitExecutionMode where
  | dryRunOnly
  | labExecution
  deriving DecidableEq

/-- A checked, exact runtime grant. It is consumed by authorization. -/
structure ExploitAuthorizationGrant where
  grantId : ExploitGrantId
  policyId : ExploitAuthorizationProfileId
  target : ExploitTargetId
  module : ExploitModuleRef
  (manifestDigest applicabilityDigest planDigest : String)
  mode : ExploitExecutionMode
  riskCeiling : OperationalRisk
  allowedSideEffects : BTreeSet SideEffectClass
  budget : ExploitExecutionBudget
  acknowledgements : BTreeSet ExploitAcknowledgementId
  (cleanupRequired includeDeprecated : Bool)

/-! ### Issuing -/

structure GrantIssuePolicy where
  mode : ExploitExecutionMode
  budget : ExploitExecutionBudget
  acknowledgements : BTreeSet ExploitAcknowledgementId
  allowedSideEffects : BTreeSet SideEffectClass
  riskCeiling : OperationalRisk
  includeDeprecated : Bool

/-- The side effects a lab grant may name. -/
def labSideEffect (effect : SideEffectClass) : Bool :=
  effect = .none || effect = .readOnly || effect = .reversible

/-- Whether a lab policy covers the risk of the manifest. -/
def labPolicyCovers (manifest : ExploitManifest) (policy : GrantIssuePolicy) : Bool :=
  manifest.authorization.labOnly &&
    manifest.authorization.minimumProfile = .labExecution &&
    manifest.risk.operationalRisk.isWithinCeiling policy.riskCeiling &&
    policy.riskCeiling.isWithinCeiling .reversibleStateChange &&
    policy.allowedSideEffects.contains manifest.risk.sideEffect &&
    policy.allowedSideEffects.all labSideEffect

def issue (policyId : ExploitAuthorizationProfileId) (grantId : ExploitGrantId)
    (manifest : ExploitManifest) (plan : ExploitPlan) (policy : GrantIssuePolicy) :
    Except ExploitOrchestrationError ExploitAuthorizationGrant := do
  if manifest.moduleRef ≠ plan.module ∨ manifest.digest ≠ plan.manifestDigest ∨
      policyId ≠ manifest.authorization.profileId ∨
      policy.acknowledgements.size > maxManifestListItems ∨
      manifest.authorization.requiredAcknowledgements ≠ policy.acknowledgements then
    throw (.authorizationDenied "manifest, plan, or acknowledgement binding mismatch")
  if manifest.maturity = .blocked ∨
      (manifest.maturity = .deprecated ∧ !policy.includeDeprecated) then
    throw (.authorizationDenied "module maturity is not executable under this grant")
  if !policy.budget.isWithin (fromManifest manifest.budget) ∨ !plan.fitsBudget policy.budget then
    throw (.authorizationDenied "grant budget does not contain the exact plan")
  if policy.mode = .labExecution ∧ !labPolicyCovers manifest policy then
    throw (.authorizationDenied "lab execution policy does not cover manifest risk")
  return {
    grantId, policyId
    target := plan.target
    module := plan.module
    manifestDigest := plan.manifestDigest
    applicabilityDigest := plan.applicabilityDigest
    planDigest := plan.digest
    mode := policy.mode
    riskCeiling := policy.riskCeiling
    allowedSideEffects := policy.allowedSideEffects
    budget := policy.budget
    acknowledgements := policy.acknowledgements
    cleanupRequired := manifest.risk.cleanupRequired
    includeDeprecated := policy.includeDeprecated }

/-- Explicit host inputs for one lab grant. -/
structure ExploitLabGrantRequest where
  grantId : ExploitGrantId
  manifest : ExploitManifest
  plan : ExploitPlan
  budget : ExploitExecutionBudget
  acknowledgements : BTreeSet ExploitAcknowledgementId
  allowedSideEffects : BTreeSet SideEffectClass := ∅
  riskCeiling : OperationalRisk := .passive
  includeDeprecated : Bool := false

def issueLab (policyId : ExploitAuthorizationProfileId) (request : ExploitLabGrantRequest) :
    Except ExploitOrchestrationError ExploitAuthorizationGrant :=
  issue policyId request.grantId request.manifest request.plan
    { mode := .labExecution
      budget := request.budget
      acknowledgements := request.acknowledgements
      allowedSideEffects := request.allowedSideEffects
      riskCeiling := request.riskCeiling
      includeDeprecated := request.includeDeprecated }

/-! ### Narrowing and verification -/

namespace ExploitAuthorizationGrant

variable (grant : ExploitAuthorizationGrant)

def narrowRisk (ceiling : OperationalRisk) :
    Except ExploitOrchestrationError ExploitAuthorizationGrant :=
  if !ceiling.isWithinCeiling grant.riskCeiling then .error .authorityWidening
  else .ok { grant with riskCeiling := ceiling }

def narrowBudget (limits : List ExploitBudgetLimit) :
    Except ExploitOrchestrationError ExploitAuthorizationGrant :=
  (grant.budget.narrowed limits).map fun budget => { grant with budget }

/-- Whether the grant names exactly this plan and covers its manifest. -/
def authorizes (manifest : ExploitManifest) (plan : ExploitPlan) :
    Bool :=
  grant.mode = .labExecution &&
    grant.target = plan.target &&
    grant.module = plan.module &&
    grant.manifestDigest = plan.manifestDigest &&
    grant.applicabilityDigest = plan.applicabilityDigest &&
    grant.planDigest = plan.digest &&
    manifest.risk.operationalRisk.isWithinCeiling grant.riskCeiling &&
    grant.allowedSideEffects.contains manifest.risk.sideEffect &&
    manifest.authorization.requiredAcknowledgements.all grant.acknowledgements.contains &&
    grant.cleanupRequired = manifest.risk.cleanupRequired &&
    !(manifest.maturity = .deprecated && !grant.includeDeprecated) &&
    plan.fitsBudget grant.budget

def verify (manifest : ExploitManifest) (plan : ExploitPlan) :
    Except ExploitOrchestrationError Unit :=
  if grant.authorizes manifest plan then .ok ()
  else .error (.authorizationDenied "grant does not exactly authorize this plan")

end ExploitAuthorizationGrant

/-- One-run checked authority. -/
structure AuthorizedExploitPlan where
  manifest : ExploitManifest
  plan : ExploitPlan
  applicabilityEvidence : BTreeSet ExploitEvidenceReference
  effectiveBudget : ExploitExecutionBudget
  grantId : ExploitGrantId
  policyId : ExploitAuthorizationProfileId

def authorize (prepared : PreparedExploit) (grant : ExploitAuthorizationGrant)
    (hostBudget : ExploitExecutionBudget) :
    Except ExploitOrchestrationError AuthorizedExploitPlan := do
  grant.verify prepared.manifest prepared.plan
  if !hostBudget.isWithin (fromManifest prepared.manifest.budget) then throw .authorityWidening
  let effectiveBudget ← grant.budget.intersection hostBudget
  if !prepared.plan.fitsBudget effectiveBudget then
    throw (.authorizationDenied "effective runtime budget does not contain the plan")
  return {
    manifest := prepared.manifest
    plan := prepared.plan
    applicabilityEvidence := prepared.applicabilityEvidence
    effectiveBudget
    grantId := grant.grantId
    policyId := grant.policyId }

/-! ### What a plan needs -/

/-- The aggregate cost and the applicability evidence of a plan, by dimension. -/
def ExploitPlan.need (plan : ExploitPlan) : ExploitBudgetDimension → Nat
  | .plannedSteps => plan.steps.length
  | .attemptSteps => plan.attemptSteps
  | .verificationSteps => plan.verificationSteps
  | .cleanupSteps => plan.cleanupSteps
  | .hostOperations => plan.aggregateCost.hostOperations
  | .reportedRequests => plan.aggregateCost.reportedRequests
  | .requestBodyBytes => plan.aggregateCost.requestBodyBytes
  | .responseBodyBytes => plan.aggregateCost.responseBodyBytes
  | .cumulativeResponseBytes => plan.aggregateCost.cumulativeResponseBytes
  | .evidenceReferences =>
    plan.aggregateCost.evidenceReferences + plan.applicabilityEvidenceReferences
  | .artifacts => plan.aggregateCost.artifacts
  | .elapsedMilliseconds => plan.aggregateCost.elapsedMilliseconds

theorem checkedAdd_any_le {top a b limit : Nat} :
    (checkedAdd top a b).any (· ≤ limit) = true ↔ a + b ≤ top ∧ a + b ≤ limit := by
  unfold checkedAdd
  split_ifs with h <;> simp [h]

variable {grant : ExploitAuthorizationGrant} {plan : ExploitPlan}

theorem fitsBudget_iff {budget : ExploitExecutionBudget} :
    plan.fitsBudget budget = true ↔
      plan.need ≤ budget.dim ∧ plan.need .evidenceReferences ≤ u32Max := by
  unfold ExploitPlan.fitsBudget
  simp only [Bool.and_eq_true, decide_eq_true_eq, checkedAdd_any_le]
  constructor
  · intro h
    refine ⟨fun d => ?_, ?_⟩
    · cases d <;> simp only [ExploitPlan.need, dim] <;> omega
    · simp only [ExploitPlan.need]
      omega
  · rintro ⟨h, hfits⟩
    have hall := forall_dim.mp h
    exact ⟨⟨⟨hall.1.1.1, hfits, hall.1.1.2⟩, hall.1.2⟩, hall.2⟩

/-- A lab grant after any narrowings of its risk and its budget. -/
inductive Granted : ExploitAuthorizationGrant → Prop where
  | issued {policyId : ExploitAuthorizationProfileId} {request : ExploitLabGrantRequest}
    {grant : ExploitAuthorizationGrant} : Reachable request.budget →
    issueLab policyId request = .ok grant → Granted grant
  | narrowRisk {grant narrower : ExploitAuthorizationGrant} {ceiling : OperationalRisk} :
    Granted grant → grant.narrowRisk ceiling = .ok narrower → Granted narrower
  | narrowBudget {grant narrower : ExploitAuthorizationGrant} {limits : List ExploitBudgetLimit} :
    Granted grant → grant.narrowBudget limits = .ok narrower → Granted narrower

theorem issue_eq_ok {policyId : ExploitAuthorizationProfileId} {grantId : ExploitGrantId}
    {manifest : ExploitManifest} {policy : GrantIssuePolicy}
    (h : issue policyId grantId manifest plan policy = .ok grant) :
    grant.budget = policy.budget ∧ grant.mode = policy.mode ∧
      grant.riskCeiling = policy.riskCeiling ∧
      grant.allowedSideEffects = policy.allowedSideEffects ∧
      (policy.mode = .labExecution → labPolicyCovers manifest policy = true) := by
  have hspec : Checked.wp (issue policyId grantId manifest plan policy)
      (fun grant => grant.budget = policy.budget ∧ grant.mode = policy.mode ∧
        grant.riskCeiling = policy.riskCeiling ∧
        grant.allowedSideEffects = policy.allowedSideEffects ∧
        (policy.mode = .labExecution → labPolicyCovers manifest policy = true))
      (fun _ => True) := by
    unfold issue
    simp only [↓Checked.wp_rules]
    refine ⟨fun _ => trivial, fun _ => ⟨fun _ => trivial, fun _ => ⟨fun _ => trivial, fun _ =>
      ⟨fun _ => trivial, fun hcovers => ⟨trivial, trivial, trivial, trivial, fun hlab => ?_⟩⟩⟩⟩⟩
    by_contra hno
    exact hcovers ⟨hlab, by simpa using hno⟩
  rw [h] at hspec
  exact hspec

theorem narrowRisk_eq_ok {grant narrower : ExploitAuthorizationGrant} {ceiling : OperationalRisk}
    (h : grant.narrowRisk ceiling = .ok narrower) :
    narrower = { grant with riskCeiling := ceiling } ∧
      ceiling.isWithinCeiling grant.riskCeiling = true := by
  unfold ExploitAuthorizationGrant.narrowRisk at h
  split_ifs at h with hwide
  cases h
  exact ⟨rfl, by simpa using hwide⟩

/-- A lab grant never covers more than reversible changes. -/
theorem Granted.reversible (h : Granted grant) :
    grant.riskCeiling.isWithinCeiling .reversibleStateChange = true := by
  induction h with
  | issued _ hissue =>
    obtain ⟨-, -, hceil, -, hcovers⟩ := issue_eq_ok hissue
    have hcovers := hcovers rfl
    unfold labPolicyCovers at hcovers
    simp only [Bool.and_eq_true] at hcovers
    rw [hceil]
    exact hcovers.1.1.2
  | narrowRisk _ hnarrow ih =>
    obtain ⟨rfl, hceil⟩ := narrowRisk_eq_ok hnarrow
    simp only [OperationalRisk.isWithinCeiling, decide_eq_true_eq] at hceil ih ⊢
    omega
  | narrowBudget _ hnarrow ih =>
    obtain ⟨budget, -, rfl⟩ := map_eq_ok hnarrow
    exact ih

/-! ### Authorization -/

/-- A plan is authorized exactly under these conditions, with this result. -/
theorem authorize_eq_ok {prepared : PreparedExploit} {hostBudget : ExploitExecutionBudget}
    {authorized : AuthorizedExploitPlan} :
    authorize prepared grant hostBudget = .ok authorized ↔
      grant.authorizes prepared.manifest prepared.plan = true ∧
      hostBudget.isWithin (fromManifest prepared.manifest.budget) = true ∧
      (grant.budget.minimum hostBudget).Shape ∧
      prepared.plan.fitsBudget (grant.budget.minimum hostBudget) = true ∧
      authorized =
        { manifest := prepared.manifest
          plan := prepared.plan
          applicabilityEvidence := prepared.applicabilityEvidence
          effectiveBudget := grant.budget.minimum hostBudget
          grantId := grant.grantId
          policyId := grant.policyId } := by
  unfold authorize ExploitAuthorizationGrant.verify
  by_cases hgrant : grant.authorizes prepared.manifest prepared.plan = true
  · by_cases hhost : hostBudget.isWithin (fromManifest prepared.manifest.budget) = true
    · by_cases hshp : (grant.budget.minimum hostBudget).Shape
      · have hmeet : grant.budget.intersection hostBudget =
            .ok (grant.budget.minimum hostBudget) := intersection_eq_ok.mpr ⟨rfl, hshp⟩
        by_cases hfits : prepared.plan.fitsBudget (grant.budget.minimum hostBudget) = true
        · simp [hgrant, hhost, hshp, hfits, hmeet, bind, Except.bind, pure, Except.pure, eq_comm]
        · simp [hgrant, hhost, hfits, hmeet, bind, Except.bind, throw, throwThe,
            MonadExceptOf.throw]
      · cases hmeet : grant.budget.intersection hostBudget with
        | error e => simp [hgrant, hhost, hshp, bind, Except.bind]
        | ok r => exact absurd (intersection_eq_ok.mp hmeet).2 hshp
    · simp [hgrant, hhost, bind, Except.bind, throw, throwThe, MonadExceptOf.throw]
  · simp [hgrant, bind, Except.bind]

section Sample

/-- A reversible change with mandatory cleanup. -/
def sampleManifest : ExploitManifest where
  moduleRef := ⟨⟨"lab-pack", by decide +kernel⟩, ⟨"probe", by decide +kernel⟩⟩
  implementationId := ⟨"probe-impl", by decide +kernel⟩
  risk :=
    { operationalRisk := .reversibleStateChange
      sideEffect := .reversible
      possibleServiceDisruption := false
      possibleDataRead := true
      possibleDataMutation := true
      possibleCommandExecution := false
      possiblePersistence := false
      possibleLateralMovement := false
      cleanupRequired := true
      checked := by decide }
  authorization :=
    { profileId := ⟨"lab-profile", by decide +kernel⟩
      minimumProfile := .labExecution
      exactTargetRequired := true
      requiredAcknowledgements := ∅
      labOnly := true
      reversibleStateChangePermitted := true
      highImpactExecutionPermitted := false
      checked := by decide }
  budget :=
    { plannedSteps := 8
      attemptSteps := 1
      verificationSteps := 2
      cleanupSteps := 2
      hostOperations := 8
      reportedRequests := 4
      requestBodyBytes := 1024
      responseBodyBytes := 1024
      cumulativeResponseBytes := 4096
      evidenceReferences := 8
      artifacts := 1
      elapsedMilliseconds := 1000
      checked := by decide }
  verification :=
    { triggerEvidenceContract := ⟨"trigger", by decide +kernel⟩
      impactEvidenceContract := ⟨"impact", by decide +kernel⟩
      nonceCorrelationRequired := false
      minimumEvidenceCount := 2
      independentVerificationRequired := true
      checked := by decide }
  cleanup :=
    { mode := .mandatory
      verificationRequired := true
      stepCeiling := 2
      acceptableFinalStates := [.verified]
      checked := by decide }
  maturity := .labVerified
  digest := "manifest-sha256:00"
  checked := by decide +kernel

def sampleStep (value : String) (h : validateId value "step_id" = .ok ()) (phase : ExploitStepPhase)
    (sideEffect : SideEffectClass) (evidenceContract : Option ExploitEvidenceContractId)
    (cleanupFor : Option ExploitStepId) : ExploitPlanStep where
  id := ⟨value, h⟩
  phase := phase
  cost := { hostOperations := 1, evidenceReferences := 1, elapsedMilliseconds := 10 }
  sideEffect := sideEffect
  evidenceContract := evidenceContract
  cleanupFor := cleanupFor

def sampleSteps : List ExploitPlanStep :=
  [ sampleStep "s1" (by decide +kernel) .attempt .reversible none none,
    sampleStep "s2" (by decide +kernel) .triggerVerification .readOnly
      (some ⟨"trigger", by decide +kernel⟩) none,
    sampleStep "s3" (by decide +kernel) .impactVerification .readOnly
      (some ⟨"impact", by decide +kernel⟩) none,
    sampleStep "s4" (by decide +kernel) .cleanup .reversible none
      (some ⟨"s1", by decide +kernel⟩),
    sampleStep "s5" (by decide +kernel) .cleanupVerification .readOnly none
      (some ⟨"s1", by decide +kernel⟩) ]

def sampleRequest : ExploitPreparationRequest where
  catalog _ := some sampleManifest
  registry _ := some
    { manifestDigest := sampleManifest.digest
      implementationId := sampleManifest.implementationId
      reviewedSteps := sampleSteps
      planSteps := some (.ok sampleSteps) }
  module := sampleManifest.moduleRef
  target := ⟨"host-1", by decide +kernel⟩
  applicability :=
    { module := sampleManifest.moduleRef
      manifestDigest := sampleManifest.digest
      target := ⟨"host-1", by decide +kernel⟩
      producer := ⟨"lab", by decide +kernel⟩
      state := .prerequisitesSatisfied
      evidence := ∅
      bounded := by decide }
  producer := ⟨"lab", by decide +kernel⟩
  run := ⟨"run-1", by decide +kernel⟩
  includeDeprecated := false

/-- The grant for a prepared plan, before it is narrowed. -/
def sampleGrantRequest (prepared : PreparedExploit) : ExploitLabGrantRequest where
  grantId := ⟨"grant-1", by decide +kernel⟩
  manifest := prepared.manifest
  plan := prepared.plan
  budget := fromManifest prepared.manifest.budget
  acknowledgements := ∅
  allowedSideEffects := {SideEffectClass.reversible}
  riskCeiling := .reversibleStateChange

def sampleLimit : ExploitBudgetLimit := ⟨.plannedSteps, 5, by decide⟩

/-- The sample under a grant narrowed to its five steps and the host's full budget. -/
def sampleAuthorized : Except ExploitOrchestrationError
    (PreparedExploit × ExploitAuthorizationGrant × AuthorizedExploitPlan) := do
  let prepared ← prepare (fun _ => List.replicate 32 0) sampleRequest
  let grant ← issueLab prepared.manifest.authorization.profileId (sampleGrantRequest prepared)
  let grant ← grant.narrowBudget [sampleLimit]
  let authorized ← authorize prepared grant (fromManifest prepared.manifest.budget)
  return (prepared, grant, authorized)

/-- The sample comes out of the checks in their order. -/
theorem sampleAuthorized_spec {prepared : PreparedExploit} {grant : ExploitAuthorizationGrant}
    {authorized : AuthorizedExploitPlan} (h : sampleAuthorized = .ok (prepared, grant, authorized)) :
    prepare (fun _ => List.replicate 32 0) sampleRequest = .ok prepared ∧ Granted grant ∧
      authorize prepared grant (fromManifest prepared.manifest.budget) = .ok authorized := by
  have hspec : Checked.wp sampleAuthorized (fun result =>
      prepare (fun _ => List.replicate 32 0) sampleRequest = .ok result.1 ∧ Granted result.2.1 ∧
      authorize result.1 result.2.1 (fromManifest result.1.manifest.budget) = .ok result.2.2)
      (fun _ => True) := by
    unfold sampleAuthorized
    simp only [↓Checked.wp_rules]
    cases hprep : prepare (fun _ => List.replicate 32 0) sampleRequest with
    | error e => simp
    | ok prepared =>
      rw [Checked.wp_ok]
      cases hissue : issueLab prepared.manifest.authorization.profileId
          (sampleGrantRequest prepared) with
      | error e => simp
      | ok issued =>
        rw [Checked.wp_ok]
        cases hnarrow : issued.narrowBudget [sampleLimit] with
        | error e => simp
        | ok narrowed =>
          rw [Checked.wp_ok]
          cases haut : authorize prepared narrowed (fromManifest prepared.manifest.budget) with
          | error e => simp
          | ok result =>
            exact ⟨rfl, .narrowBudget (.issued (.fromManifest _) hissue) hnarrow, rfl⟩
  rw [h] at hspec
  exact hspec

/-- What can be read off the sample holds of its result. -/
theorem sampleAuthorized_eq {α : Type} {f : AuthorizedExploitPlan → Option α} {value : α}
    (h : (sampleAuthorized.toOption.bind fun result => f result.2.2) = some value) :
    ∃ prepared grant authorized, sampleAuthorized = .ok (prepared, grant, authorized) ∧
      f authorized = some value := by
  cases hsample : sampleAuthorized with
  | error e =>
    rw [hsample] at h
    cases h
  | ok result =>
    rw [hsample] at h
    exact ⟨result.1, result.2.1, result.2.2, rfl, h⟩

end Sample

end Termivar.Exploit
