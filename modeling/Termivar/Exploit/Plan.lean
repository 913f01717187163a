/-
# Exploit plans

`termivar-exploit/src/orchestration_plan.rs`: typed steps with their declared
costs, the loop that admits them against a manifest, and the plan sealed over
them. A plan that was admitted has one step in each phase, in the order of the
phases, and its aggregate is the sum of its steps.
-/
import Termivar.Exploit.Budget
import Termivar.Framing

namespace Termivar.Exploit

open Checked List

/-! ### Steps -/

/-- Closed ordered execution phases. -/
inductive ExploitStepPhase where
  | attempt
  | triggerVerification
  | impactVerification
  | cleanup
  | cleanupVerification
  deriving DecidableEq

namespace ExploitStepPhase

/-- The declaration order. -/
def rank : ExploitStepPhase → Nat
  | .attempt => 0
  | .triggerVerification => 1
  | .impactVerification => 2
  | .cleanup => 3
  | .cleanupVerification => 4

def wire : ExploitStepPhase → String
  | .attempt => "attempt"
  | .triggerVerification => "trigger-verification"
  | .impactVerification => "impact-verification"
  | .cleanup => "cleanup"
  | .cleanupVerification => "cleanup-verification"

end ExploitStepPhase

/-- Finite declared or reported cost for one step. -/
@[ext] structure ExploitStepCost where
  hostOperations : Nat := 0
  reportedRequests : Nat := 0
  requestBodyBytes : Nat := 0
  responseBodyBytes : Nat := 0
  cumulativeResponseBytes : Nat := 0
  evidenceReferences : Nat := 0
  artifacts : Nat := 0
  elapsedMilliseconds : Nat := 0
  deriving DecidableEq

namespace ExploitStepCost

/-- A checked sum, as `ok_or(UsageOverflow)`. -/
def addField (top a b : Nat) : Except ExploitOrchestrationError Nat :=
  okOr (Termivar.checkedAdd top a b) .usageOverflow

/-- `checked_add`: everything adds up but the largest response body. -/
def checkedAdd (a b : ExploitStepCost) : Except ExploitOrchestrationError ExploitStepCost := do
  let hostOperations ← addField u32Max a.hostOperations b.hostOperations
  let reportedRequests ← addField u32Max a.reportedRequests b.reportedRequests
  let requestBodyBytes ← addField u64Max a.requestBodyBytes b.requestBodyBytes
  let cumulativeResponseBytes ←
    addField u64Max a.cumulativeResponseBytes b.cumulativeResponseBytes
  let evidenceReferences ← addField u32Max a.evidenceReferences b.evidenceReferences
  let artifacts ← addField u32Max a.artifacts b.artifacts
  let elapsedMilliseconds ← addField u64Max a.elapsedMilliseconds b.elapsedMilliseconds
  return { hostOperations, reportedRequests, requestBodyBytes,
           responseBodyBytes := max a.responseBodyBytes b.responseBodyBytes,
           cumulativeResponseBytes, evidenceReferences, artifacts, elapsedMilliseconds }

def isWithin (cost ceiling : ExploitStepCost) : Bool :=
  cost.hostOperations ≤ ceiling.hostOperations &&
    cost.reportedRequests ≤ ceiling.reportedRequests &&
    cost.requestBodyBytes ≤ ceiling.requestBodyBytes &&
    cost.responseBodyBytes ≤ ceiling.responseBodyBytes &&
    cost.cumulativeResponseBytes ≤ ceiling.cumulativeResponseBytes &&
    cost.evidenceReferences ≤ ceiling.evidenceReferences &&
    cost.artifacts ≤ ceiling.artifacts &&
    cost.elapsedMilliseconds ≤ ceiling.elapsedMilliseconds

end ExploitStepCost

/-- One reviewed, payload-free step declaration. -/
structure ExploitPlanStep where
  id : ExploitStepId
  phase : ExploitStepPhase
  cost : ExploitStepCost
  sideEffect : SideEffectClass
  evidenceContract : Option ExploitEvidenceContractId
  cleanupFor : Option ExploitStepId
  deriving DecidableEq

/-! ### Admission of steps -/

/-- What the loop of `validate_steps` keeps. -/
structure StepScan where
  ids : List ExploitStepId := []
  lastPhase : ExploitStepPhase := .attempt
  aggregate : ExploitStepCost := {}
  attempts : Nat := 0
  verification : Nat := 0
  cleanup : Nat := 0
  triggerSteps : Nat := 0
  impactSteps : Nat := 0
  cleanupOperations : Nat := 0
  cleanupVerifications : Nat := 0
  attemptIds : List ExploitStepId := []
  sawTrigger : Bool := false
  sawImpact : Bool := false
  sawCleanup : Bool := false
  sawCleanupVerification : Bool := false

/-- One more step of a phase. -/
def countStep (count : Nat) : Except ExploitOrchestrationError Nat :=
  okOr (checkedAdd u32Max count 1) .usageOverflow

variable (manifest : ExploitManifest) (scan : StepScan)

def scanAttempt (step : ExploitPlanStep) :
    Except ExploitOrchestrationError StepScan := do
  let attempts ← countStep scan.attempts
  if step.sideEffect ≠ manifest.risk.sideEffect ∨ step.evidenceContract.isSome ∨
      step.cleanupFor.isSome then
    throw (.invalidPlan "attempt side effect or evidence contract is undeclared")
  return { scan with attempts, attemptIds := scan.attemptIds ++ [step.id] }

def scanTrigger (step : ExploitPlanStep) :
    Except ExploitOrchestrationError StepScan := do
  let verification ← countStep scan.verification
  let triggerSteps ← countStep scan.triggerSteps
  if step.sideEffect ≠ .readOnly ∨
      step.evidenceContract ≠ some manifest.verification.triggerEvidenceContract ∨
      step.cleanupFor.isSome then
    throw (.invalidPlan "trigger verification contract is not exact")
  return { scan with verification, triggerSteps, sawTrigger := true }

def scanImpact (step : ExploitPlanStep) :
    Except ExploitOrchestrationError StepScan := do
  let verification ← countStep scan.verification
  let impactSteps ← countStep scan.impactSteps
  if step.sideEffect ≠ .readOnly ∨
      step.evidenceContract ≠ some manifest.verification.impactEvidenceContract ∨
      step.cleanupFor.isSome then
    throw (.invalidPlan "impact verification contract is not exact")
  return { scan with verification, impactSteps, sawImpact := true }

def scanCleanup (step : ExploitPlanStep) :
    Except ExploitOrchestrationError StepScan := do
  let cleanup ← countStep scan.cleanup
  let operation : Bool := step.phase = .cleanup
  let cleanupOperations ←
    if operation then countStep scan.cleanupOperations else pure scan.cleanupOperations
  let cleanupVerifications ←
    if operation then pure scan.cleanupVerifications else countStep scan.cleanupVerifications
  if step.sideEffect ≠ (if operation then .reversible else .readOnly) ∨
      step.evidenceContract.isSome ∨
      ¬step.cleanupFor.any fun attempt => scan.attemptIds.contains attempt then
    throw (.invalidPlan "cleanup must link to an earlier declared attempt")
  return { scan with
    cleanup, cleanupOperations, cleanupVerifications
    sawCleanup := scan.sawCleanup || operation
    sawCleanupVerification := scan.sawCleanupVerification || !operation }

/-- One turn of the loop. -/
def scanStep (step : ExploitPlanStep) :
    Except ExploitOrchestrationError StepScan := do
  if step.id ∈ scan.ids ∨ step.phase.rank < scan.lastPhase.rank then
    throw (.invalidPlan "step identities must be unique and phases ordered")
  if step.cost.hostOperations ≠ 1 ∨ step.cost.elapsedMilliseconds = 0 then
    throw (.invalidPlan "each V1 step must declare one finite host operation")
  let aggregate ← scan.aggregate.checkedAdd step.cost
  let scan := { scan with ids := scan.ids ++ [step.id], lastPhase := step.phase, aggregate }
  match step.phase with
  | .attempt => scanAttempt manifest scan step
  | .triggerVerification => scanTrigger manifest scan step
  | .impactVerification => scanImpact manifest scan step
  | .cleanup | .cleanupVerification => scanCleanup scan step

def aggregateWithinManifest (cost : ExploitStepCost) (budget : ExploitBudgetLimits) : Bool :=
  cost.hostOperations ≤ budget.hostOperations &&
    cost.reportedRequests ≤ budget.reportedRequests &&
    cost.requestBodyBytes ≤ budget.requestBodyBytes &&
    cost.responseBodyBytes ≤ budget.responseBodyBytes &&
    cost.cumulativeResponseBytes ≤ budget.cumulativeResponseBytes &&
    cost.evidenceReferences ≤ budget.evidenceReferences &&
    cost.artifacts ≤ budget.artifacts &&
    cost.elapsedMilliseconds ≤ budget.elapsedMilliseconds

structure StepSummary where
  aggregateCost : ExploitStepCost
  (attemptSteps verificationSteps cleanupSteps : Nat)

def validateSteps (steps : List ExploitPlanStep) :
    Except ExploitOrchestrationError StepSummary := do
  if steps.isEmpty ∨ steps.length > manifest.budget.plannedSteps then
    throw (.invalidPlan "step count is empty or above the manifest limit")
  let scan ← steps.foldlM (scanStep manifest) {}
  if scan.attempts ≠ 1 ∨ scan.triggerSteps ≠ 1 ∨ scan.impactSteps ≠ 1 ∨ !scan.sawTrigger ∨
      !scan.sawImpact then
    throw (.invalidPlan "V1 requires exactly one attempt, trigger, and impact step")
  let requiresCleanup : Bool := manifest.cleanup.mode ≠ .none
  if requiresCleanup ≠ (scan.sawCleanup && scan.sawCleanupVerification) ∨
      (requiresCleanup ∧ (scan.cleanupOperations ≠ 1 ∨ scan.cleanupVerifications ≠ 1)) ∨
      (!requiresCleanup ∧ (scan.cleanupOperations ≠ 0 ∨ scan.cleanupVerifications ≠ 0)) ∨
      scan.cleanup > manifest.cleanup.stepCeiling ∨
      scan.attempts > manifest.budget.attemptSteps ∨
      scan.verification > manifest.budget.verificationSteps ∨
      scan.cleanup > manifest.budget.cleanupSteps ∨
      !aggregateWithinManifest scan.aggregate manifest.budget then
    throw (.invalidPlan "phase or aggregate cost exceeds the manifest contract")
  return { aggregateCost := scan.aggregate, attemptSteps := scan.attempts,
           verificationSteps := scan.verification, cleanupSteps := scan.cleanup }

/-! ### What an admitted list of steps looks like -/

namespace ExploitStepCost

/-- The sum without a bound. -/
def add (a b : ExploitStepCost) : ExploitStepCost where
  hostOperations := a.hostOperations + b.hostOperations
  reportedRequests := a.reportedRequests + b.reportedRequests
  requestBodyBytes := a.requestBodyBytes + b.requestBodyBytes
  responseBodyBytes := max a.responseBodyBytes b.responseBodyBytes
  cumulativeResponseBytes := a.cumulativeResponseBytes + b.cumulativeResponseBytes
  evidenceReferences := a.evidenceReferences + b.evidenceReferences
  artifacts := a.artifacts + b.artifacts
  elapsedMilliseconds := a.elapsedMilliseconds + b.elapsedMilliseconds

theorem addField_spec (top a b : Nat) :
    wp (addField top a b) (fun c => c = a + b) (fun _ => True) := by
  unfold addField
  rw [wp_okOr]
  exact ⟨fun c hc => (checkedAdd_eq_some.mp hc).2, fun _ => trivial⟩

theorem checkedAdd_spec (a b : ExploitStepCost) :
    wp (a.checkedAdd b) (fun c => c = a.add b) (fun _ => True) := by
  unfold checkedAdd
  simp only [↓wp_rules]
  refine wp_imp (addField_spec _ _ _) fun _ h1 => ?_
  refine wp_imp (addField_spec _ _ _) fun _ h2 => ?_
  refine wp_imp (addField_spec _ _ _) fun _ h3 => ?_
  refine wp_imp (addField_spec _ _ _) fun _ h4 => ?_
  refine wp_imp (addField_spec _ _ _) fun _ h5 => ?_
  refine wp_imp (addField_spec _ _ _) fun _ h6 => ?_
  refine wp_imp (addField_spec _ _ _) fun _ h7 => ?_
  rw [h1, h2, h3, h4, h5, h6, h7]
  rfl

end ExploitStepCost

/-- The cost of a list of steps, from the front. -/
def totalCost (steps : List ExploitPlanStep) : ExploitStepCost :=
  steps.foldl (fun total step => total.add step.cost) {}

theorem totalCost_concat (steps : List ExploitPlanStep) (step : ExploitPlanStep) :
    totalCost (steps ++ [step]) = (totalCost steps).add step.cost := by
  simp [totalCost]

/-- What the loop has established of the steps it has seen. -/
structure Scanned (manifest : ExploitManifest) (done : List ExploitPlanStep) (scan : StepScan) :
    Prop where
  ids : scan.ids = done.map ExploitPlanStep.id
  distinct : scan.ids.Nodup
  sorted : (done.map ExploitPlanStep.phase).Pairwise fun p q => p.rank ≤ q.rank
  last : ∀ step ∈ done, step.phase.rank ≤ scan.lastPhase.rank
  aggregate : scan.aggregate = totalCost done
  attempts : scan.attempts = (done.map ExploitPlanStep.phase).count .attempt
  triggers : scan.triggerSteps = (done.map ExploitPlanStep.phase).count .triggerVerification
  impacts : scan.impactSteps = (done.map ExploitPlanStep.phase).count .impactVerification
  operations : scan.cleanupOperations = (done.map ExploitPlanStep.phase).count .cleanup
  verifications : scan.cleanupVerifications =
    (done.map ExploitPlanStep.phase).count .cleanupVerification
  verification : scan.verification = scan.triggerSteps + scan.impactSteps
  cleanup : scan.cleanup = scan.cleanupOperations + scan.cleanupVerifications
  single : ∀ step ∈ done, step.cost.hostOperations = 1
  declared : ∀ step ∈ done, step.phase = .attempt → step.sideEffect = manifest.risk.sideEffect

theorem countStep_spec (count : Nat) :
    wp (countStep count) (fun next => next = count + 1) (fun _ => True) := by
  unfold countStep
  rw [wp_okOr]
  exact ⟨fun c hc => (checkedAdd_eq_some.mp hc).2, fun _ => trivial⟩

/-- What a turn of the loop leaves to the phase of its step. -/
theorem Scanned.step {manifest : ExploitManifest} {done : List ExploitPlanStep} {scan : StepScan}
    (h : Scanned manifest done scan) {step : ExploitPlanStep} {next : StepScan}
    (hnew : step.id ∉ scan.ids) (hord : scan.lastPhase.rank ≤ step.phase.rank)
    (hsingle : step.cost.hostOperations = 1)
    (hdecl : step.phase = .attempt → step.sideEffect = manifest.risk.sideEffect)
    (hids : next.ids = scan.ids ++ [step.id]) (hlast : next.lastPhase = step.phase)
    (haggr : next.aggregate = scan.aggregate.add step.cost)
    (hatt : next.attempts = scan.attempts + [step.phase].count .attempt)
    (htrig : next.triggerSteps = scan.triggerSteps + [step.phase].count .triggerVerification)
    (himp : next.impactSteps = scan.impactSteps + [step.phase].count .impactVerification)
    (hoper : next.cleanupOperations = scan.cleanupOperations + [step.phase].count .cleanup)
    (hverif : next.cleanupVerifications =
      scan.cleanupVerifications + [step.phase].count .cleanupVerification)
    (hver : next.verification = next.triggerSteps + next.impactSteps)
    (hcln : next.cleanup = next.cleanupOperations + next.cleanupVerifications) :
    Scanned manifest (done ++ [step]) next := by
  have hmap : (done ++ [step]).map ExploitPlanStep.phase =
      done.map ExploitPlanStep.phase ++ [step.phase] := by simp
  constructor
  · rw [hids, h.ids]
    simp
  · rw [hids]
    refine nodup_append.mpr ⟨h.distinct, nodup_singleton _, fun id hid other hoth heq => ?_⟩
    rw [mem_singleton.mp hoth] at heq
    exact hnew (heq ▸ hid)
  · rw [hmap, pairwise_append]
    refine ⟨h.sorted, pairwise_singleton _ _, fun p hp q hq => ?_⟩
    obtain ⟨earlier, hearl, rfl⟩ := mem_map.mp hp
    rw [mem_singleton.mp hq]
    exact (h.last earlier hearl).trans hord
  · intro earlier hearl
    rw [hlast]
    rcases mem_append.mp hearl with hold | hnew
    · exact (h.last earlier hold).trans hord
    · rw [mem_singleton.mp hnew]
  · rw [haggr, h.aggregate, totalCost_concat]
  · rw [hatt, h.attempts, hmap, count_append]
  · rw [htrig, h.triggers, hmap, count_append]
  · rw [himp, h.impacts, hmap, count_append]
  · rw [hoper, h.operations, hmap, count_append]
  · rw [hverif, h.verifications, hmap, count_append]
  · exact hver
  · exact hcln
  · intro earlier hearl
    rcases mem_append.mp hearl with hold | hnew
    · exact h.single earlier hold
    · rw [mem_singleton.mp hnew]
      exact hsingle
  · intro earlier hearl
    rcases mem_append.mp hearl with hold | hnew
    · exact h.declared earlier hold
    · rw [mem_singleton.mp hnew]
      exact hdecl

theorem scanStep_spec {manifest : ExploitManifest} {done : List ExploitPlanStep} {scan : StepScan}
    (h : Scanned manifest done scan) (step : ExploitPlanStep) :
    wp (scanStep manifest scan step) (fun next => Scanned manifest (done ++ [step]) next)
      (fun _ => True) := by
  have hver := h.verification
  have hcln := h.cleanup
  unfold scanStep
  simp only [↓wp_rules]
  refine ⟨fun _ => trivial, fun hfsh => ⟨fun _ => trivial, fun hcost => ?_⟩⟩
  refine wp_imp (scan.aggregate.checkedAdd_spec step.cost) fun total htot => ?_
  have hnew : step.id ∉ scan.ids := fun hmem => hfsh (Or.inl hmem)
  have hord : scan.lastPhase.rank ≤ step.phase.rank := by
    by_contra hlt
    exact hfsh (Or.inr (by omega))
  have hsingle : step.cost.hostOperations = 1 := by
    by_contra hne
    exact hcost (Or.inl hne)
  cases hph : step.phase with
  | attempt =>
    simp only [scanAttempt, ↓wp_rules]
    refine wp_imp (countStep_spec _) fun _ hatt => ?_
    refine ⟨fun _ => trivial, fun hok => ?_⟩
    refine h.step hnew hord hsingle (fun _ => ?_) rfl hph.symm htot ?_ ?_ ?_ ?_ ?_ ?_ ?_
    · by_contra hne
      exact hok (Or.inl hne)
    all_goals simp [hph, hatt, hver, hcln]
  | triggerVerification =>
    simp only [scanTrigger, ↓wp_rules]
    refine wp_imp (countStep_spec _) fun _ hcnt => ?_
    refine wp_imp (countStep_spec _) fun _ htrig => ?_
    refine ⟨fun _ => trivial, fun _ => ?_⟩
    refine h.step hnew hord hsingle (by simp [hph]) rfl hph.symm htot ?_ ?_ ?_ ?_ ?_ ?_ ?_
    all_goals simp [hph, hcnt, htrig, hver, hcln]
    omega
  | impactVerification =>
    simp only [scanImpact, ↓wp_rules]
    refine wp_imp (countStep_spec _) fun _ hcnt => ?_
    refine wp_imp (countStep_spec _) fun _ himp => ?_
    refine ⟨fun _ => trivial, fun _ => ?_⟩
    refine h.step hnew hord hsingle (by simp [hph]) rfl hph.symm htot ?_ ?_ ?_ ?_ ?_ ?_ ?_
    all_goals simp [hph, hcnt, himp, hver, hcln]
    omega
  | cleanup =>
    simp only [scanCleanup, hph, decide_true, if_true, ↓wp_rules]
    refine wp_imp (countStep_spec _) fun _ hcnt => ?_
    refine wp_imp (countStep_spec _) fun _ hoper => ?_
    refine ⟨fun _ => trivial, fun _ => ?_⟩
    refine h.step hnew hord hsingle (by simp [hph]) rfl hph.symm htot ?_ ?_ ?_ ?_ ?_ ?_ ?_
    all_goals simp [hph, hcnt, hoper, hver, hcln]
    omega
  | cleanupVerification =>
    have hno : decide (ExploitStepPhase.cleanupVerification = .cleanup) = false := rfl
    simp only [scanCleanup, hph, hno, Bool.false_eq_true, if_false, ↓wp_rules]
    refine wp_imp (countStep_spec _) fun _ hcnt => ?_
    refine wp_imp (countStep_spec _) fun _ hverif => ?_
    refine ⟨fun _ => trivial, fun _ => ?_⟩
    refine h.step hnew hord hsingle (by simp [hph]) rfl hph.symm htot ?_ ?_ ?_ ?_ ?_ ?_ ?_
    all_goals simp [hph, hcnt, hverif, hver, hcln]
    omega

theorem scanned_nil : Scanned manifest [] {} := by
  constructor <;> simp [totalCost]

/-- The phases a plan of the manifest has, in order. -/
def expectedPhases : List ExploitStepPhase :=
  [.attempt, .triggerVerification, .impactVerification] ++
    if manifest.cleanup.mode ≠ .none then [.cleanup, .cleanupVerification] else []

/-- What is known of steps that were admitted. -/
structure Admitted (manifest : ExploitManifest) (steps : List ExploitPlanStep)
    (summary : StepSummary) : Prop where
  phases : steps.map ExploitPlanStep.phase = expectedPhases manifest
  distinct : (steps.map ExploitPlanStep.id).Nodup
  aggregate : summary.aggregateCost = totalCost steps
  attempts : summary.attemptSteps = 1
  verification : summary.verificationSteps = 2
  cleanup : summary.cleanupSteps = if manifest.cleanup.mode ≠ .none then 2 else 0
  single : ∀ step ∈ steps, step.cost.hostOperations = 1
  declared : ∀ step ∈ steps, step.phase = .attempt → step.sideEffect = manifest.risk.sideEffect

/-- Sorted phases are determined by how often each occurs. -/
theorem phases_eq {ps qs : List ExploitStepPhase} (hp : ps.Pairwise fun p q => p.rank ≤ q.rank)
    (hq : qs.Pairwise fun p q => p.rank ≤ q.rank) (hcnt : ∀ p, ps.count p = qs.count p) :
    ps = qs := by
  refine List.Perm.eq_of_pairwise (fun p q _ _ hpq hqp => ?_) hp hq (perm_iff_count.mpr hcnt)
  cases p <;> cases q <;> simp_all [ExploitStepPhase.rank]

/-- **Admitted plans have one step a phase.** The steps of a plan that passes
the checks stand in the order of the phases, one in each, with cleanup exactly
when the manifest declares it; the aggregate is their sum. -/
theorem validateSteps_spec (steps : List ExploitPlanStep) :
    wp (validateSteps manifest steps) (fun summary => Admitted manifest steps summary)
      (fun _ => True) := by
  unfold validateSteps
  simp only [↓wp_rules]
  refine ⟨fun _ => trivial, fun _ => ?_⟩
  have hloop : wp (steps.foldlM (scanStep manifest) {})
      (fun scan => Scanned manifest steps scan) (fun _ => True) := by
    refine wp_imp (wp_foldlM
      (I := fun rest scan => ∃ done, steps = done ++ rest ∧ Scanned manifest done scan)
      ⟨[], rfl, scanned_nil manifest⟩ ?_) ?_
    · rintro step rest scan ⟨done, hst, hscan⟩
      refine wp_imp (scanStep_spec hscan step) fun next hnext => ?_
      exact ⟨done ++ [step], by rw [hst, append_assoc, singleton_append], hnext⟩
    · rintro scan ⟨done, hst, hscan⟩
      rw [append_nil] at hst
      rwa [hst]
  refine wp_imp hloop fun scan h => ?_
  refine ⟨fun _ => trivial, fun hones => ⟨fun _ => trivial, fun hlims => ?_⟩⟩
  have hatt := h.attempts
  have htrig := h.triggers
  have himp := h.impacts
  have hoper := h.operations
  have hverif := h.verifications
  have hver := h.verification
  have hcln := h.cleanup
  simp only [not_or, ne_eq, Decidable.not_not] at hones
  obtain ⟨hone, htrigger, himpact, -, -⟩ := hones
  by_cases hmode : manifest.cleanup.mode = .none
  · have hzero : scan.cleanupOperations = 0 ∧ scan.cleanupVerifications = 0 := by
      simp only [hmode] at hlims
      simp at hlims
      omega
    refine ⟨phases_eq h.sorted (by simp [expectedPhases, hmode, ExploitStepPhase.rank]) fun p => ?_,
      h.ids ▸ h.distinct, h.aggregate, hone, by simp only; omega, ?_, h.single, h.declared⟩
    · cases p <;> simp [expectedPhases, hmode] <;> omega
    · simp [hmode]
      omega
  · have hboth : scan.cleanupOperations = 1 ∧ scan.cleanupVerifications = 1 := by
      simp [hmode] at hlims
      omega
    refine ⟨phases_eq h.sorted (by simp [expectedPhases, hmode, ExploitStepPhase.rank]) fun p => ?_,
      h.ids ▸ h.distinct, h.aggregate, hone, by simp only; omega, ?_, h.single, h.declared⟩
    · cases p <;> simp [expectedPhases, hmode] <;> omega
    · simp [hmode]
      omega

/-! ### Digests -/

section Digests

variable (sha256 : Bytes → Bytes)

/-- `DigestWriter`: named fields behind their lengths, under a domain. -/
def digestText (domain : String) (fields : List (String × String)) (label : String) : String :=
  label ++ ":" ++ hex (sha256 ((("domain", domain) :: fields).flatMap fun field =>
    frame 8 (utf8Bytes field.1) ++ frame 8 (utf8Bytes field.2)))

def sideEffectWire : SideEffectClass → String
  | .none => "none"
  | .readOnly => "read-only"
  | .reversible => "reversible"
  | .irreversible => "irreversible"
  | .unknown => "unknown"

inductive ApplicabilityState where
  | unknown
  | productMatched
  | versionApplicable
  | prerequisitesSatisfied
  | inapplicable
  | unsupported
  | incomplete
  deriving DecidableEq

def applicabilityStateWire : ApplicabilityState → String
  | .unknown => "unknown"
  | .productMatched => "product-matched"
  | .versionApplicable => "version-applicable"
  | .prerequisitesSatisfied => "prerequisites-satisfied"
  | .inapplicable => "inapplicable"
  | .unsupported => "unsupported"
  | .incomplete => "incomplete"

/-- Checked applicability assessment of a manifest on a target. -/
structure ApplicabilityAssessment where
  module : ExploitModuleRef
  manifestDigest : String
  target : ExploitTargetId
  producer : ExploitApplicabilityProducerId
  state : ApplicabilityState
  evidence : BTreeSet ExploitEvidenceReference
  bounded : evidence.size ≤ maxEvidenceReferences

/-- `ExploitApplicabilityDigest::of`. -/
def exploitApplicabilityDigest (assessment : ApplicabilityAssessment) : String :=
  digestText sha256 "venom.exploit-applicability/v1"
    ([("module.pack", assessment.module.pack.value), ("module.id", assessment.module.module.value),
      ("manifest", assessment.manifestDigest), ("target", assessment.target.value),
      ("producer", assessment.producer.value), ("state", applicabilityStateWire assessment.state)] ++
      assessment.evidence.toList.map fun evidence => ("evidence", evidence.value))
    "applicability-sha256"

/-- The fields of a step under the digest of its plan. -/
def stepFields (step : ExploitPlanStep) : List (String × String) :=
  [("step.id", step.id.value), ("step.phase", step.phase.wire),
    ("step.side_effect", sideEffectWire step.sideEffect),
    ("step.host_operations", toString step.cost.hostOperations),
    ("step.reported_requests", toString step.cost.reportedRequests),
    ("step.request_body_bytes", toString step.cost.requestBodyBytes),
    ("step.response_body_bytes", toString step.cost.responseBodyBytes),
    ("step.cumulative_response_bytes", toString step.cost.cumulativeResponseBytes),
    ("step.evidence_references", toString step.cost.evidenceReferences),
    ("step.artifacts", toString step.cost.artifacts),
    ("step.elapsed_milliseconds", toString step.cost.elapsedMilliseconds),
    ("step.evidence_contract", step.evidenceContract.elim "" BoundedId.value),
    ("step.cleanup_for", step.cleanupFor.elim "" BoundedId.value)]

def digestPlan (run : ExploitRunId) (target : ExploitTargetId) (module : ExploitModuleRef)
    (manifestDigest applicabilityDigest : String) (steps : List ExploitPlanStep) : String :=
  digestText sha256 "venom.exploit-plan/v1"
    ([("run", run.value), ("target", target.value), ("module.pack", module.pack.value),
      ("module.id", module.module.value), ("manifest", manifestDigest),
      ("applicability", applicabilityDigest)] ++ steps.flatMap stepFields)
    "plan-sha256"

end Digests

/-! ### Plans -/

/-- Immutable deterministic plan. It contains no payload or execution authority. -/
structure ExploitPlan where
  run : ExploitRunId
  target : ExploitTargetId
  module : ExploitModuleRef
  (manifestDigest applicabilityDigest : String)
  applicabilityEvidenceReferences : Nat
  steps : List ExploitPlanStep
  aggregateCost : ExploitStepCost
  (attemptSteps verificationSteps cleanupSteps : Nat)
  digest : String

/-- `verify_binding`. -/
def ApplicabilityAssessment.verifyBinding (assessment : ApplicabilityAssessment)
    (module : ExploitModuleRef) (digest : String) (target : ExploitTargetId)
    (producer : ExploitApplicabilityProducerId) : Bool :=
  module = assessment.module && digest = assessment.manifestDigest && target = assessment.target &&
    producer = assessment.producer

def ExploitPlan.seal (sha256 : Bytes → Bytes) (run : ExploitRunId)
    (target : ExploitTargetId) (manifest : ExploitManifest) (assessment : ApplicabilityAssessment)
    (producer : ExploitApplicabilityProducerId) (steps : List ExploitPlanStep) :
    Except ExploitOrchestrationError ExploitPlan := do
  if !assessment.verifyBinding manifest.moduleRef manifest.digest target producer then
    throw .applicabilityRejected
  if assessment.state ≠ .prerequisitesSatisfied then throw .applicabilityRejected
  let summary ← validateSteps manifest steps
  if (checkedAdd u32Max summary.aggregateCost.evidenceReferences assessment.evidence.size).all
      fun count => count > manifest.budget.evidenceReferences then
    throw (.invalidPlan "plan and applicability evidence exceed the manifest limit")
  let applicabilityDigest := exploitApplicabilityDigest sha256 assessment
  return {
    run, target
    module := manifest.moduleRef
    manifestDigest := manifest.digest
    applicabilityDigest
    applicabilityEvidenceReferences := assessment.evidence.size
    steps
    aggregateCost := summary.aggregateCost
    attemptSteps := summary.attemptSteps
    verificationSteps := summary.verificationSteps
    cleanupSteps := summary.cleanupSteps
    digest := digestPlan sha256 run target manifest.moduleRef manifest.digest applicabilityDigest
      steps }

/-- Whether a budget contains the plan and its applicability evidence. -/
def ExploitPlan.fitsBudget (plan : ExploitPlan) (budget : ExploitExecutionBudget) : Bool :=
  plan.steps.length ≤ budget.plannedSteps &&
    plan.attemptSteps ≤ budget.attemptSteps &&
    plan.verificationSteps ≤ budget.verificationSteps &&
    plan.cleanupSteps ≤ budget.cleanupSteps &&
    plan.aggregateCost.hostOperations ≤ budget.hostOperations &&
    plan.aggregateCost.reportedRequests ≤ budget.reportedRequests &&
    plan.aggregateCost.requestBodyBytes ≤ budget.requestBodyBytes &&
    plan.aggregateCost.responseBodyBytes ≤ budget.responseBodyBytes &&
    plan.aggregateCost.cumulativeResponseBytes ≤ budget.cumulativeResponseBytes &&
    (checkedAdd u32Max plan.aggregateCost.evidenceReferences
      plan.applicabilityEvidenceReferences).any (· ≤ budget.evidenceReferences) &&
    plan.aggregateCost.artifacts ≤ budget.artifacts &&
    plan.aggregateCost.elapsedMilliseconds ≤ budget.elapsedMilliseconds

/-! ### Preparation -/

/-- A reviewed implementation of the registry: its bindings, the steps that
were reviewed, and what a call of `plan_steps` gives now (nothing when it
panics). -/
structure RegisteredImplementation where
  manifestDigest : String
  implementationId : BoundedId .implementation
  reviewedSteps : List ExploitPlanStep
  planSteps : Option (Except ExploitOrchestrationError (List ExploitPlanStep))

/-- Exact preparation inputs: the catalog and the registry as lookups. -/
structure ExploitPreparationRequest where
  catalog : ExploitModuleRef → Option ExploitManifest
  registry : ExploitModuleRef → Option RegisteredImplementation
  module : ExploitModuleRef
  target : ExploitTargetId
  applicability : ApplicabilityAssessment
  producer : ExploitApplicabilityProducerId
  run : ExploitRunId
  includeDeprecated : Bool

structure PreparedExploit where
  manifest : ExploitManifest
  plan : ExploitPlan
  applicabilityEvidence : BTreeSet ExploitEvidenceReference

/-- Whether the catalog's policy selects the manifest. -/
def selectable (includeDeprecated : Bool) : Bool :=
  manifest.maturity ≠ .blocked && (manifest.maturity ≠ .deprecated || includeDeprecated)

/-- `exact_steps`. -/
def RegisteredImplementation.exactSteps (binding : RegisteredImplementation) :
    Except ExploitOrchestrationError (List ExploitPlanStep) := do
  let answer ← okOr binding.planSteps .implementationPanicked
  let current ← answer
  if current ≠ binding.reviewedSteps then throw .implementationPlanChanged
  return current

def prepare (sha256 : Bytes → Bytes) (request : ExploitPreparationRequest) :
    Except ExploitOrchestrationError PreparedExploit := do
  let manifest ← okOr ((request.catalog request.module).filter
    (selectable · request.includeDeprecated)) .implementationNotSelectable
  let binding ← okOr (request.registry request.module) .implementationUnavailable
  if binding.manifestDigest ≠ manifest.digest ∨
      binding.implementationId ≠ manifest.implementationId then
    throw .implementationBindingMismatch
  let steps ← binding.exactSteps
  let plan ← ExploitPlan.seal sha256 request.run request.target manifest request.applicability
    request.producer steps
  return { manifest, plan, applicabilityEvidence := request.applicability.evidence }

end Termivar.Exploit
