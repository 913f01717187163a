/-
# A run keeps its contract

Whatever the executor answers and whenever cancellations arrive, a run of an
authorized plan ends in a report: each step is called at most once, in the
order of the plan; the usage stays within the effective budget, because the
steps called so far never cost more than the plan was admitted for (`spent`);
an attempt with an obligation is cleaned up; and what the report says of
impact and cleanup stands in the log of the run.
-/
import Termivar.Exploit.Orchestration

namespace Termivar.Exploit

open Command ExploitExecutionBudget List

/-! ### Usage by dimension -/

def ExploitRunUsage.dim (usage : ExploitRunUsage) : ExploitBudgetDimension → Nat
  | .plannedSteps => usage.executorCalls
  | .attemptSteps => usage.attemptCalls
  | .verificationSteps => usage.verificationCalls
  | .cleanupSteps => usage.cleanupCalls
  | .hostOperations => usage.hostOperations
  | .reportedRequests => usage.reportedRequests
  | .requestBodyBytes => usage.requestBodyBytes
  | .responseBodyBytes => usage.responseBodyBytes
  | .cumulativeResponseBytes => usage.cumulativeResponseBytes
  | .evidenceReferences => usage.evidenceReferences
  | .artifacts => usage.artifacts
  | .elapsedMilliseconds => usage.elapsedMilliseconds

variable {usage : ExploitRunUsage} {log : List LogEntry}

theorem usage_isWithin_iff {budget : ExploitExecutionBudget} :
    usage.isWithin budget = true ↔ usage.dim ≤ budget.dim := by
  unfold ExploitRunUsage.isWithin
  simp only [Bool.and_eq_true, decide_eq_true_eq]
  exact (forall_dim (P := fun d => usage.dim d ≤ budget.dim d)).symm

/-- How often a list of steps goes through a phase. -/
def phaseCount (steps : List ExploitPlanStep) (phase : ExploitStepPhase) : Nat :=
  (steps.map ExploitPlanStep.phase).count phase

/-- The most that `evidence` references of applicability and calls of the
steps can use. -/
def spent (evidence : Nat) (steps : List ExploitPlanStep) : ExploitBudgetDimension → Nat
  | .plannedSteps => steps.length
  | .attemptSteps => phaseCount steps .attempt
  | .verificationSteps => phaseCount steps .triggerVerification + phaseCount steps .impactVerification
  | .cleanupSteps => phaseCount steps .cleanup + phaseCount steps .cleanupVerification
  | .hostOperations => (totalCost steps).hostOperations
  | .reportedRequests => (totalCost steps).reportedRequests
  | .requestBodyBytes => (totalCost steps).requestBodyBytes
  | .responseBodyBytes => (totalCost steps).responseBodyBytes
  | .cumulativeResponseBytes => (totalCost steps).cumulativeResponseBytes
  | .evidenceReferences => (totalCost steps).evidenceReferences + evidence
  | .artifacts => (totalCost steps).artifacts
  | .elapsedMilliseconds => (totalCost steps).elapsedMilliseconds

/-- The largest value of a counter. -/
def counterMax : ExploitBudgetDimension → Nat
  | .requestBodyBytes | .responseBodyBytes | .cumulativeResponseBytes | .elapsedMilliseconds => u64Max
  | _ => u32Max

/-- The usage after a call of a phase. -/
def ExploitRunUsage.recorded (usage : ExploitRunUsage) (phase : ExploitStepPhase) : ExploitRunUsage :=
  let usage := { usage with executorCalls := usage.executorCalls + 1 }
  match phase with
  | .attempt => { usage with attemptCalls := usage.attemptCalls + 1 }
  | .triggerVerification | .impactVerification =>
    { usage with verificationCalls := usage.verificationCalls + 1 }
  | .cleanup | .cleanupVerification => { usage with cleanupCalls := usage.cleanupCalls + 1 }

/-- The usage with a cost added. -/
def ExploitRunUsage.charged (usage : ExploitRunUsage) (cost : ExploitStepCost) : ExploitRunUsage :=
  { usage with
    hostOperations := usage.hostOperations + cost.hostOperations
    reportedRequests := usage.reportedRequests + cost.reportedRequests
    requestBodyBytes := usage.requestBodyBytes + cost.requestBodyBytes
    responseBodyBytes := max usage.responseBodyBytes cost.responseBodyBytes
    cumulativeResponseBytes := usage.cumulativeResponseBytes + cost.cumulativeResponseBytes
    evidenceReferences := usage.evidenceReferences + cost.evidenceReferences
    artifacts := usage.artifacts + cost.artifacts
    elapsedMilliseconds := usage.elapsedMilliseconds + cost.elapsedMilliseconds }

theorem wp_addTo {top amount : Nat} {read : ExploitRunUsage → Nat}
    {write : ExploitRunUsage → Nat → ExploitRunUsage} {ok : Unit → ExploitRunUsage → Prop}
    {err : ExploitOrchestrationError → ExploitRunUsage → Prop}
    {pan : Prop} (hfits : read usage + amount ≤ top)
    (h : ok () (write usage (read usage + amount))) :
    wp (addTo top read write amount) ok err pan usage := by
  unfold addTo
  simp only [↓wp_rules, ↓Checked.wp_okOr]
  refine ⟨fun value hvalue => ?_, fun hnone => ?_⟩
  · obtain ⟨-, rfl⟩ := checkedAdd_eq_some.mp hvalue
    exact h
  · have := checkedAdd_eq_none.mp hnone
    omega

/-- A call that fits the counters is recorded. -/
theorem recordCall_ok {phase : ExploitStepPhase} (h : (usage.recorded phase).dim ≤ counterMax) :
    recordCall phase usage = .ok () (usage.recorded phase) := by
  rw [eq_ok_iff_wp]
  unfold recordCall
  rw [wp_bind]
  refine wp_addTo ?_ ?_
  · cases phase <;> exact h .plannedSteps
  · cases phase with
    | attempt => exact wp_addTo (h .attemptSteps) ⟨rfl, rfl⟩
    | triggerVerification | impactVerification => exact wp_addTo (h .verificationSteps) ⟨rfl, rfl⟩
    | cleanup | cleanupVerification => exact wp_addTo (h .cleanupSteps) ⟨rfl, rfl⟩

/-- A cost that fits the counters is charged. -/
theorem charge_ok {cost : ExploitStepCost} (h : (usage.charged cost).dim ≤ counterMax) :
    charge cost usage = .ok () (usage.charged cost) := by
  rw [eq_ok_iff_wp]
  unfold charge
  simp only [↓wp_bind]
  refine wp_addTo (h .hostOperations) (wp_addTo (h .reportedRequests) (wp_addTo (h .requestBodyBytes) ?_))
  rw [wp_modify]
  exact wp_addTo (h .cumulativeResponseBytes) (wp_addTo (h .evidenceReferences)
    (wp_addTo (h .artifacts) (wp_addTo (h .elapsedMilliseconds) ⟨trivial, rfl⟩)))

/-- The counters of a call are those of its phase. -/
theorem recorded_eq (phase : ExploitStepPhase) : usage.recorded phase =
    { usage with
      executorCalls := usage.executorCalls + 1
      attemptCalls := usage.attemptCalls + [phase].count .attempt
      verificationCalls := usage.verificationCalls +
        ([phase].count .triggerVerification + [phase].count .impactVerification)
      cleanupCalls := usage.cleanupCalls +
        ([phase].count .cleanup + [phase].count .cleanupVerification) } := by
  cases phase <;> rfl

theorem recorded_le {evidence : Nat} {done : List ExploitPlanStep} {step : ExploitPlanStep}
    (h : usage.dim ≤ spent evidence done) {cost : ExploitStepCost}
    (hcost : cost.isWithin step.cost = true) :
    ((usage.recorded step.phase).charged cost).dim ≤ spent evidence (done ++ [step]) := by
  unfold ExploitStepCost.isWithin at hcost
  simp only [Bool.and_eq_true, decide_eq_true_eq] at hcost
  intro d
  have hd := h d
  rw [recorded_eq]
  cases d <;> simp only [spent, ExploitRunUsage.dim, ExploitRunUsage.charged, totalCost_concat,
    ExploitStepCost.add, phaseCount, map_append, map_cons, map_nil, count_append,
    length_append, length_singleton] at hd ⊢ <;> omega

/-! ### What the steps of a plan can use -/

theorem totalCost_cons (step : ExploitPlanStep) (steps : List ExploitPlanStep) :
    totalCost (step :: steps) = step.cost.add (totalCost steps) := by
  have hfold : ∀ (steps : List ExploitPlanStep) (cost : ExploitStepCost),
      steps.foldl (fun total step => total.add step.cost) cost = cost.add (totalCost steps) := by
    intro steps
    induction steps with
    | nil =>
      intro cost
      simp [totalCost, ExploitStepCost.add]
    | cons step steps ih =>
      intro cost
      show steps.foldl _ (cost.add step.cost) = cost.add (steps.foldl _ _)
      rw [ih, ih]
      simp [ExploitStepCost.add, Nat.add_assoc, max_assoc]
  show steps.foldl _ _ = _
  rw [hfold]
  simp [ExploitStepCost.add]

/-- Fewer steps cost no more. -/
theorem totalCost_sublist {done steps : List ExploitPlanStep} (h : done.Sublist steps) :
    (totalCost done).isWithin (totalCost steps) = true := by
  induction h with
  | slnil => decide
  | cons step _ ih | cons_cons step _ ih =>
    simp only [ExploitStepCost.isWithin, totalCost_cons, ExploitStepCost.add, Bool.and_eq_true,
      decide_eq_true_eq] at ih ⊢
    omega

theorem spent_mono {evidence : Nat} {done steps : List ExploitPlanStep} (h : done.Sublist steps) :
    spent evidence done ≤ spent evidence steps := by
  have hcost := totalCost_sublist h
  have hcnt : ∀ phase, phaseCount done phase ≤ phaseCount steps phase := fun phase =>
    (h.map ExploitPlanStep.phase).count_le phase
  have hatt := hcnt .attempt
  have htrig := hcnt .triggerVerification
  have himp := hcnt .impactVerification
  have hcln := hcnt .cleanup
  have hver := hcnt .cleanupVerification
  have hlength := h.length_le
  simp only [ExploitStepCost.isWithin, Bool.and_eq_true, decide_eq_true_eq] at hcost
  intro d
  cases d <;> simp only [spent] <;> omega

/-- The ceilings of a manifest are far below the largest values of the counters. -/
theorem fromManifest_le_counterMax (limits : ExploitBudgetLimits) :
    (fromManifest limits).dim ≤ counterMax := by
  have hspec : Checked.wp limits.toRawExploitBudgetLimits.validate
      (fun _ => (fromManifest limits).dim ≤ counterMax) (fun _ => True) := by
    have hlimit : ∀ {field : String} {value maximum : Nat} {P : Prop}, (value ≤ maximum → P) →
        Checked.wp (checkLimit field value maximum) (fun _ => P) (fun _ => True) := by
      intro field value maximum P h
      unfold checkLimit
      simp only [↓Checked.wp_rules]
      exact ⟨fun _ => trivial, fun hfits => h (by omega)⟩
    unfold RawExploitBudgetLimits.validate
    simp only [↓Checked.wp_bind]
    iterate 12 refine hlimit (fun _ => ?_)
    refine Checked.wp_of_forall (fun _ => ?_) (fun _ => trivial)
    simp only [↓Checked.wp_rules]
    refine ⟨fun _ => trivial, fun _ => ⟨fun _ => trivial, fun _ d => ?_⟩⟩
    simp only [maxPlannedSteps, maxPhaseSteps, maxHostOperations, maxReportedRequests,
      maxRequestBodyBytes, maxResponseBodyBytes, maxCumulativeResponseBytes, maxEvidenceReferences,
      maxArtifacts, maxElapsedMilliseconds] at *
    cases d <;> simp only [dim, fromManifest, counterMax, u32Max, u64Max] <;> omega
  rw [limits.checked] at hspec
  exact hspec

/-- A plan that may run: its steps by phase, with the cleanup the manifest
requires, and a budget that has room for any part of them. -/
structure Planned (authorized : AuthorizedExploitPlan) (attempt trigger impact : ExploitPlanStep)
    (closing : List ExploitPlanStep) : Prop where
  steps : authorized.plan.steps = [attempt, trigger, impact] ++ closing
  attempt_phase : attempt.phase = .attempt
  trigger_phase : trigger.phase = .triggerVerification
  impact_phase : impact.phase = .impactVerification
  closing : (authorized.manifest.risk.cleanupRequired = true ∧ attempt.sideEffect = .reversible ∧
      ∃ cleanup verification, closing = [cleanup, verification] ∧ cleanup.phase = .cleanup ∧
        verification.phase = .cleanupVerification) ∨
    (authorized.manifest.risk.cleanupRequired = false ∧ closing = [])
  distinct : (authorized.plan.steps.map ExploitPlanStep.id).Nodup
  room : spent authorized.applicabilityEvidence.size authorized.plan.steps ≤
    authorized.effectiveBudget.dim
  counters : authorized.effectiveBudget.dim ≤ counterMax

/-- What `prepare` has checked of a plan. -/
theorem prepare_spec {sha256 : Bytes → Bytes} {request : ExploitPreparationRequest}
    {prepared : PreparedExploit} (h : prepare sha256 request = .ok prepared) :
    (∃ summary, Admitted prepared.manifest prepared.plan.steps summary ∧
      prepared.plan.aggregateCost = summary.aggregateCost ∧
      prepared.plan.attemptSteps = summary.attemptSteps ∧
      prepared.plan.verificationSteps = summary.verificationSteps ∧
      prepared.plan.cleanupSteps = summary.cleanupSteps) ∧
    prepared.plan.applicabilityEvidenceReferences = prepared.applicabilityEvidence.size := by
  have hspec : Checked.wp (prepare sha256 request) (fun prepared =>
      (∃ summary, Admitted prepared.manifest prepared.plan.steps summary ∧
        prepared.plan.aggregateCost = summary.aggregateCost ∧
        prepared.plan.attemptSteps = summary.attemptSteps ∧
        prepared.plan.verificationSteps = summary.verificationSteps ∧
        prepared.plan.cleanupSteps = summary.cleanupSteps) ∧
      prepared.plan.applicabilityEvidenceReferences = prepared.applicabilityEvidence.size)
      (fun _ => True) := by
    unfold prepare ExploitPlan.seal
    simp only [↓Checked.wp_rules]
    refine ⟨fun manifest _ => ⟨fun binding _ => ⟨fun _ => trivial, fun _ => ?_⟩, fun _ => trivial⟩,
      fun _ => trivial⟩
    refine Checked.wp_of_forall (fun steps => ?_) (fun _ => trivial)
    refine ⟨fun _ => trivial, fun _ => ⟨fun _ => trivial, fun _ => ?_⟩⟩
    refine Checked.wp_imp (validateSteps_spec manifest steps) fun summary hsumm => ?_
    exact ⟨fun _ => trivial, fun _ => ⟨⟨summary, hsumm, rfl, rfl, rfl, rfl⟩, trivial⟩⟩
  rw [h] at hspec
  exact hspec

/-- Steps by their phases. -/
theorem Admitted.split {manifest : ExploitManifest} {steps : List ExploitPlanStep}
    {summary : StepSummary} (h : Admitted manifest steps summary) :
    ∃ attempt trigger impact closing, steps = [attempt, trigger, impact] ++ closing ∧
      attempt.phase = .attempt ∧ trigger.phase = .triggerVerification ∧
      impact.phase = .impactVerification ∧
      closing.map ExploitPlanStep.phase = if manifest.cleanup.mode ≠ CleanupMode.none then
        [ExploitStepPhase.cleanup, ExploitStepPhase.cleanupVerification] else [] := by
  have hphases := h.phases
  unfold expectedPhases at hphases
  obtain ⟨attempt, rest, rfl, hatt, hrest⟩ := map_eq_cons_iff.mp hphases
  obtain ⟨trigger, rest, rfl, htrig, hrest⟩ := map_eq_cons_iff.mp hrest
  obtain ⟨impact, closing, rfl, himp, hclos⟩ := map_eq_cons_iff.mp hrest
  exact ⟨attempt, trigger, impact, closing, rfl, hatt, htrig, himp, hclos⟩

/-- An authorized plan may run. -/
theorem planned_of_authorize {sha256 : Bytes → Bytes} {request : ExploitPreparationRequest}
    {prepared : PreparedExploit} {grant : ExploitAuthorizationGrant}
    {hostBudget : ExploitExecutionBudget} {authorized : AuthorizedExploitPlan}
    (hprep : prepare sha256 request = .ok prepared) (hgrant : Granted grant)
    (hauth : authorize prepared grant hostBudget = .ok authorized) :
    ∃ attempt trigger impact closing, Planned authorized attempt trigger impact closing := by
  obtain ⟨⟨summary, hadmitted, haggr, hattem, hver, hcln⟩, hev⟩ :=
    prepare_spec hprep
  obtain ⟨haut, hwith, -, hfits, rfl⟩ := authorize_eq_ok.mp hauth
  obtain ⟨attempt, trigger, impact, closing, hst, hatt, htrig, himp, hclos⟩ :=
    hadmitted.split
  refine ⟨attempt, trigger, impact, closing, hst, hatt, htrig, himp, ?_,
    hadmitted.distinct, fun d => ?_, ?_⟩
  · have hmode := prepared.manifest.cleanup_mode
    by_cases hreq : prepared.manifest.risk.cleanupRequired = true
    · rw [if_pos (hmode.mpr hreq)] at hclos
      obtain ⟨cleanup, rest, rfl, hph, hrest⟩ := map_eq_cons_iff.mp hclos
      obtain ⟨verification, rest, rfl, hph', hrest⟩ := map_eq_cons_iff.mp hrest
      cases map_eq_nil_iff.mp hrest
      refine .inl ⟨hreq, ?_, cleanup, verification, rfl, hph, hph'⟩
      -- a lab grant covers no more than reversible changes
      have hrev := hgrant.reversible
      unfold ExploitAuthorizationGrant.authorizes at haut
      simp only [Bool.and_eq_true] at haut
      have hrisk := haut.1.1.1.1.1.2
      have hmbr : attempt ∈ prepared.plan.steps := by
        rw [hst]
        exact mem_cons_self
      rw [hadmitted.declared attempt hmbr hatt]
      refine prepared.manifest.risk.reversible_of_cleanup ?_ hreq
      simp only [OperationalRisk.isWithinCeiling, decide_eq_true_eq] at hrev hrisk ⊢
      omega
    · rw [if_neg (mt hmode.mp hreq)] at hclos
      exact .inr ⟨by simpa using hreq, map_eq_nil_iff.mp hclos⟩
  · refine le_trans ?_ ((fitsBudget_iff.mp hfits).1 d)
    have hcnt : ∀ phase, phaseCount prepared.plan.steps phase =
        (expectedPhases prepared.manifest).count phase := fun phase => by
      rw [phaseCount, hadmitted.phases]
    have hcost := haggr.trans hadmitted.aggregate
    have hattem := hattem.trans hadmitted.attempts
    have hver := hver.trans hadmitted.verification
    have hcln := hcln.trans hadmitted.cleanup
    cases d <;> simp only [spent, ExploitPlan.need, hcnt, expectedPhases, hcost, hev,
      hattem, hver, hcln, le_refl]
    · split_ifs <;> decide
    · split_ifs <;> decide
    · split_ifs <;> decide
  · rw [dim_minimum]
    exact inf_le_right.trans ((isWithin_iff.mp hwith).trans (fromManifest_le_counterMax _))

/-! ### One call of the executor -/

/-- The permits a run has handed to the executor, in order. -/
def calls (log : List LogEntry) : List ExploitStepPermit :=
  log.filterMap fun entry => match entry with
    | .called permit _ => some permit
    | .read _ _ => none

@[simp] theorem calls_append (log log' : List LogEntry) : calls (log ++ log') = calls log ++ calls log' :=
  filterMap_append ..

@[simp] theorem calls_called (permit : ExploitStepPermit) (answer : ExecutorAnswer) :
    calls [.called permit answer] = [permit] := rfl

@[simp] theorem calls_read (arrived generation : Nat) : calls [.read arrived generation] = [] := rfl

/-- No cancellation has arrived at any read. -/
def Quiet (log : List LogEntry) : Prop :=
  ∀ arrived generation, LogEntry.read arrived generation ∈ log → arrived = 0

theorem quiet_append {log log' : List LogEntry} : Quiet (log ++ log') ↔ Quiet log ∧ Quiet log' := by
  unfold Quiet
  simp only [mem_append]
  constructor
  · intro h
    exact ⟨fun a g hin => h a g (.inl hin), fun a g hin => h a g (.inr hin)⟩
  · rintro ⟨h, h'⟩ a g (hin | hin)
    · exact h a g hin
    · exact h' a g hin

section Run

variable (sha256 : Bytes → Bytes) (host : Host) (authorized : AuthorizedExploitPlan)

/-- A run that has called the steps `done`. -/
structure Ran (done : List ExploitPlanStep) (s : RunState) : Prop where
  under : s.execution.authorized = authorized
  calls : calls s.log = done.map (permitFor sha256 authorized)
  usage : s.execution.usage.dim ≤ spent authorized.applicabilityEvidence.size done
  counter : s.generation ≤ u64Max
  quiet : s.generation = 0 ↔ Quiet s.log

/-- How a call that is not accepted may end. -/
def callFailures (phase : ExploitStepPhase) : List PendingFailure :=
  [.executorPanicked, .failedFor phase, .incomplete, .invalidReceipt]

/-- What an answer is turned into. -/
def Settled (step : ExploitPlanStep) (answer : ExecutorAnswer) :
    Except PendingFailure ExploitStepReceipt → Prop
  | .ok receipt => answer = .receipt receipt ∧
      receiptMatchesPermit (permitFor sha256 authorized step) receipt = true
  | .error failure => failure ∈ callFailures step.phase

/-- A call of one more step: it shows in the log and in the usage only. -/
structure Invoked (done : List ExploitPlanStep) (step : ExploitPlanStep) (s : RunState)
    (result : Except PendingFailure ExploitStepReceipt) (t : RunState) : Prop where
  ran : Ran sha256 authorized (done ++ [step]) t
  kept : ∃ usage seenReceipts, t.execution = { s.execution with usage, seenReceipts }
  generation : t.generation = s.generation
  called : ∃ answer, t.log = s.log ++ [.called (permitFor sha256 authorized step) answer] ∧
    Settled sha256 authorized step answer result

variable {sha256 host authorized}

theorem wp_onUsage {operation : UsageCommand} {s : RunState} {usage : ExploitRunUsage}
    {ok : Bool → RunState → Prop} {err : ExploitRunReport → RunState → Prop} {pan : Prop}
    (hrun : operation s.execution.usage = .ok () usage)
    (h : ok true { s with execution := { s.execution with usage } }) :
    wp (onUsage operation) ok err pan s := by
  unfold wp onUsage
  rw [hrun]
  exact h

variable {done : List ExploitPlanStep} {step : ExploitPlanStep} {s : RunState}
  {err : ExploitRunReport → RunState → Prop}
  {ok : Except PendingFailure ExploitStepReceipt → RunState → Prop}

/-- A cost that fits is charged and the failure is passed on. -/
theorem chargeFailedStep_spec {cost : ExploitStepCost} {failure : PendingFailure}
    (hcoun : (s.execution.usage.charged cost).dim ≤ counterMax)
    (hbud : (s.execution.usage.charged cost).dim ≤ s.execution.authorized.effectiveBudget.dim)
    (h : ok (.error failure)
      { s with execution := { s.execution with usage := s.execution.usage.charged cost } }) :
    wp (chargeFailedStep cost failure) ok err False s := by
  unfold chargeFailedStep
  rw [wp_bind]
  refine wp_onUsage (charge_ok hcoun) ?_
  simp only [↓wp_rules]
  refine ⟨fun hno => by simp at hno, fun _ => ⟨fun _ => h, fun hno => ?_⟩⟩
  exact absurd (usage_isWithin_iff.mpr hbud) hno

theorem chargeReceipt_spec {receipt : ExploitStepReceipt}
    (hcoun : (s.execution.usage.charged receipt.usage).dim ≤ counterMax)
    (hbud : (s.execution.usage.charged receipt.usage).dim ≤
      s.execution.authorized.effectiveBudget.dim)
    (h : ok (.ok receipt)
      { s with execution := { s.execution with usage := s.execution.usage.charged receipt.usage } }) :
    wp (chargeReceipt receipt) ok err False s := by
  unfold chargeReceipt
  rw [wp_bind]
  refine wp_onUsage (charge_ok hcoun) ?_
  simp only [↓wp_rules]
  refine ⟨fun hno => by simp at hno, fun _ => ⟨fun _ => h, fun hno => ?_⟩⟩
  exact absurd (usage_isWithin_iff.mpr hbud) hno

theorem matches_usage {permit : ExploitStepPermit} {receipt : ExploitStepReceipt}
    (h : receiptMatchesPermit permit receipt = true) :
    receipt.usage.isWithin permit.cost = true := by
  unfold receiptMatchesPermit at h
  simp only [Bool.and_eq_true] at h
  exact h.1.1.1.1.2

theorem cost_isWithin_self (cost : ExploitStepCost) : cost.isWithin cost = true := by
  simp [ExploitStepCost.isWithin]

/-- Every answer is settled within what the step may cost. -/
theorem settle_spec {answer : ExecutorAnswer}
    (hfits : ∀ cost : ExploitStepCost, cost.isWithin step.cost = true →
      (s.execution.usage.charged cost).dim ≤ counterMax ∧
      (s.execution.usage.charged cost).dim ≤ s.execution.authorized.effectiveBudget.dim)
    (h : ∀ result cost seenReceipts, cost.isWithin step.cost = true →
      Settled sha256 authorized step answer result →
      ok result { s with execution :=
        { s.execution with usage := s.execution.usage.charged cost, seenReceipts } }) :
    wp (settle step (permitFor sha256 authorized step) answer) ok err False s := by
  have hself := hfits step.cost (cost_isWithin_self _)
  have hfailed : ∀ failure ∈ callFailures step.phase, ∀ seenReceipts,
      wp (chargeFailedStep (permitFor sha256 authorized step).cost failure) ok err False
        { s with execution := { s.execution with seenReceipts } } :=
    fun failure hin seen => chargeFailedStep_spec hself.1 hself.2
      (h (.error failure) step.cost seen (cost_isWithin_self _) hin)
  cases answer with
  | panicked => exact hfailed .executorPanicked (by simp [callFailures]) s.execution.seenReceipts
  | failed failure =>
    cases failure with
    | failed => exact hfailed (.failedFor step.phase) (by simp [callFailures]) s.execution.seenReceipts
    | incomplete => exact hfailed .incomplete (by simp [callFailures]) s.execution.seenReceipts
  | receipt receipt =>
    have hinvalid := hfailed .invalidReceipt (by simp [callFailures])
    simp only [settle, validateReceipt, assign, ↓wp_rules]
    refine ⟨fun _ => ⟨fun _ => hinvalid s.execution.seenReceipts, fun hno => absurd rfl hno⟩,
      fun hmats => ⟨fun _ => ⟨fun _ => hinvalid s.execution.seenReceipts, fun hno => absurd rfl hno⟩,
        fun _ => ⟨fun hno => (nomatch hno), fun _ => ?_⟩⟩⟩
    have hmats : receiptMatchesPermit (permitFor sha256 authorized step) receipt = true := by
      simpa using hmats
    have husage := matches_usage hmats
    exact chargeReceipt_spec (hfits _ husage).1 (hfits _ husage).2
      (h (.ok receipt) receipt.usage _ husage ⟨rfl, hmats⟩)

variable {attempt trigger impact : ExploitPlanStep} {closing : List ExploitPlanStep}

/-- Any part of the plan fits the budget. -/
theorem Planned.fits (hplan : Planned authorized attempt trigger impact closing)
    (hsub : done.Sublist authorized.plan.steps) :
    spent authorized.applicabilityEvidence.size done ≤ authorized.effectiveBudget.dim :=
  (spent_mono hsub).trans hplan.room

theorem dim_le_charged (usage : ExploitRunUsage) (cost : ExploitStepCost) :
    usage.dim ≤ (usage.charged cost).dim := by
  intro d
  cases d <;> simp only [ExploitRunUsage.dim, ExploitRunUsage.charged] <;> omega

/-- **A call always fits.** A step of the plan that has not been called is
called, and its answer is settled without running out of budget. -/
theorem invoke_spec (hplan : Planned authorized attempt trigger impact closing)
    (h : Ran sha256 authorized done s) (hsub : (done ++ [step]).Sublist authorized.plan.steps) :
    wp (invoke sha256 host step) (Invoked sha256 authorized done step s) err False s := by
  obtain ⟨hunder, hcalls, husage, hcounter, hqt⟩ := h
  have hfits : ∀ cost : ExploitStepCost, cost.isWithin step.cost = true →
      ((s.execution.usage.recorded step.phase).charged cost).dim ≤ counterMax ∧
      ((s.execution.usage.recorded step.phase).charged cost).dim ≤
        authorized.effectiveBudget.dim := fun cost hcost =>
    have hspent := (recorded_le husage hcost).trans (hplan.fits hsub)
    ⟨hspent.trans hplan.counters, hspent⟩
  have hself := hfits step.cost (cost_isWithin_self _)
  have hrec := recordCall_ok ((dim_le_charged _ step.cost).trans hself.1)
  have hreser : reserves s.execution.usage step.phase step.cost authorized.effectiveBudget = true := by
    unfold reserves
    simp only [bind, hrec, charge_ok hself.1]
    exact usage_isWithin_iff.mpr hself.2
  unfold invoke
  simp only [↓wp_rules, hunder]
  refine ⟨fun hno => ?_, fun _ => wp_onUsage hrec ⟨fun hno => by simp at hno, fun _ => ?_⟩⟩
  · have : reserves s.execution.usage step.phase (permitFor sha256 authorized step).cost
        authorized.effectiveBudget = true := hreser
    simp [this] at hno
  · simp only [callExecutor, ↓wp_rules]
    refine settle_spec (fun cost hcost => ?_) (fun result cost seen hcost hsett => ?_)
    · exact hunder ▸ hfits cost hcost
    · refine ⟨⟨hunder, ?_, recorded_le husage hcost, hcounter, ?_⟩, ⟨_, seen, rfl⟩, rfl, _, rfl, hsett⟩
      · simp [hcalls]
      · rw [hqt, quiet_append]
        exact ⟨fun hlog => ⟨hlog, by simp [Quiet]⟩, And.left⟩

/-- The state after a read of the counter. -/
def RunState.afterRead (host : Host) (s : RunState) : RunState :=
  { s with
    generation := saturatingAdd u64Max s.generation (host.arrivals s.log)
    log := s.log ++ [.read (host.arrivals s.log)
      (saturatingAdd u64Max s.generation (host.arrivals s.log))] }

theorem wp_generation {ok : Nat → RunState → Prop} {pan : Prop} :
    wp (generation host) ok err pan s ↔
      ok (s.afterRead host).generation (s.afterRead host) := Iff.rfl

/-- A read shows in the log. Below its largest value, a counter that does not
move has seen no cancellation. -/
theorem log_afterRead (s : RunState) (host : Host) : ∃ arrived,
    (s.afterRead host).log = s.log ++ [.read arrived (s.afterRead host).generation] ∧
      ((s.afterRead host).generation = s.generation → s.generation < u64Max → arrived = 0) := by
  refine ⟨_, rfl, fun hsame hbel => ?_⟩
  simp only [RunState.afterRead, saturatingAdd] at hsame
  omega

/-- A read moves nothing but the counter and the log. -/
theorem Ran.afterRead (h : Ran sha256 authorized done s) (host : Host) :
    Ran sha256 authorized done (s.afterRead host) := by
  obtain ⟨hunder, hcalls, husage, hcounter, hqt⟩ := h
  refine ⟨hunder, ?_, husage, ?_, ?_⟩
  · simp [RunState.afterRead, hcalls]
  · simp only [RunState.afterRead, saturatingAdd]
    omega
  · have hzero : (s.afterRead host).generation = 0 ↔ s.generation = 0 ∧ host.arrivals s.log = 0 := by
      simp only [RunState.afterRead, saturatingAdd, u64Max]
      omega
    have hread : Quiet [.read (host.arrivals s.log) (s.afterRead host).generation] ↔
        host.arrivals s.log = 0 := by
      simp [Quiet]
    rw [hzero, hqt]
    show _ ↔ Quiet (s.log ++ [_])
    rw [quiet_append]
    exact and_congr_right fun _ => hread.symm

end Run

/-! ### What a report promises -/

/-- The executor was called in the phase, and its receipt was accepted. -/
def Accepted (phase : ExploitStepPhase) (observation : ExploitStepObservation)
    (evidence : BTreeSet ExploitEvidenceReference) (entry : LogEntry) : Prop :=
  ∃ permit receipt, entry = .called permit (.receipt receipt) ∧ permit.phase = phase ∧
    receiptMatchesPermit permit receipt = true ∧ receipt.observation = observation ∧
    receipt.evidence = evidence

/-- The trigger was observed with this evidence. -/
def TriggerProven (evidence : BTreeSet ExploitEvidenceReference) (log : List LogEntry) : Prop :=
  ∃ before entry after, log = before ++ [entry] ++ after ∧
    Accepted .triggerVerification .triggerObserved evidence entry

/-- The trigger was observed and then the impact was verified, with enough
evidence, and independent evidence where that is required. -/
def ImpactProven (contract : ExploitVerificationContract) (log : List LogEntry) : Prop :=
  ∃ before first middle second after trigger impact,
    log = before ++ [first] ++ middle ++ [second] ++ after ∧
    Accepted .triggerVerification .triggerObserved trigger first ∧
    Accepted .impactVerification .impactVerified impact second ∧
    contract.minimumEvidenceCount ≤ (trigger ∪ impact).size ∧
    (contract.independentVerificationRequired = true → ∀ e ∈ trigger, e ∉ impact)

/-- Cleanup was performed and then verified, and the counter that was read
when it began has not moved since. Below its largest value that means that no
cancellation arrived. -/
def CleanupProven (log : List LogEntry) : Prop :=
  ∃ before arrived generation performed arrived' verified arrived'' after evidence evidence',
    log = before ++ [.read arrived generation, performed, .read arrived' generation, verified,
      .read arrived'' generation] ++ after ∧
    Accepted .cleanup .cleanupPerformed evidence performed ∧
    Accepted .cleanupVerification .cleanupVerified evidence' verified ∧
    (generation < u64Max → arrived' = 0 ∧ arrived'' = 0)

theorem ImpactProven.append {contract : ExploitVerificationContract} (h : ImpactProven contract log)
    (more : List LogEntry) : ImpactProven contract (log ++ more) := by
  obtain ⟨before, first, middle, second, after, trigger, impact, rfl, hrest⟩ := h
  exact ⟨before, first, middle, second, after ++ more, trigger, impact, by simp, hrest⟩

theorem CleanupProven.append (h : CleanupProven log) (more : List LogEntry) :
    CleanupProven (log ++ more) := by
  obtain ⟨before, arrived, generation, performed, arrived', verified, arrived'', after, evidence,
    evidence', rfl, hrest⟩ := h
  exact ⟨before, arrived, generation, performed, arrived', verified, arrived'', after ++ more,
    evidence, evidence', by simp, hrest⟩

/-- What a report and the log of its run satisfy. -/
structure Contract (sha256 : Bytes → Bytes) (authorized : AuthorizedExploitPlan)
    (report : ExploitRunReport) (log : List LogEntry) : Prop where
  steps : (calls log).Sublist (authorized.plan.steps.map (permitFor sha256 authorized))
  ordered : (calls log).Pairwise fun p q => p.step ≠ q.step ∧ p.phase.rank < q.phase.rank
  usage : report.usage.isWithin authorized.effectiveBudget = true
  budget : report.outcome ≠ .budgetExhausted
  cleaned : authorized.manifest.risk.cleanupRequired = true →
    (∃ permit ∈ calls log, permit.phase = .attempt) →
    (calls log).countP (fun permit => permit.phase = .cleanup) = 1
  cleanup : report.cleanup = .verified → CleanupProven log
  impact : report.impact = .verified → ImpactProven authorized.manifest.verification log
  completed : report.outcome = .completed ↔ report.impact = .verified ∧
    (report.cleanup = .verified ∨ report.cleanup = .notRequired) ∧ Quiet log

section Run

variable {sha256 : Bytes → Bytes} {host : Host} {authorized : AuthorizedExploitPlan}
  {done : List ExploitPlanStep} {step : ExploitPlanStep} {s : RunState}
  {err : ExploitRunReport → RunState → Prop}
  {attempt trigger impact : ExploitPlanStep} {closing : List ExploitPlanStep}

/-- What the contract needs of a run at its end. -/
structure Accountable (sha256 : Bytes → Bytes) (authorized : AuthorizedExploitPlan)
    (done : List ExploitPlanStep) (s : RunState) : Prop where
  ran : Ran sha256 authorized done s
  part : done.Sublist authorized.plan.steps
  cleaned : authorized.manifest.risk.cleanupRequired = true →
    (∃ step ∈ done, step.phase = .attempt) → ∃ step ∈ done, step.phase = .cleanup
  cleanup : s.execution.cleanup = .verified → CleanupProven s.log
  impact : s.execution.impact = .verified → ImpactProven authorized.manifest.verification s.log

theorem Planned.ordered (hplan : Planned authorized attempt trigger impact closing) :
    authorized.plan.steps.Pairwise fun p q => p.id ≠ q.id ∧ p.phase.rank < q.phase.rank := by
  refine pairwise_and_iff.mpr ⟨pairwise_map.mp hplan.distinct, ?_⟩
  have hatt := hplan.attempt_phase
  have htrig := hplan.trigger_phase
  have himp := hplan.impact_phase
  rw [hplan.steps]
  rcases hplan.closing with ⟨-, -, cleanup, verification, rfl, hcln, hver⟩ | ⟨-, rfl⟩
  · simp [hatt, htrig, himp, hcln, hver, ExploitStepPhase.rank]
  · simp [hatt, htrig, himp, ExploitStepPhase.rank]

/-- No phase is gone through twice. -/
theorem Planned.phaseCount_le_one (hplan : Planned authorized attempt trigger impact closing)
    (hsub : done.Sublist authorized.plan.steps) (phase : ExploitStepPhase) :
    phaseCount done phase ≤ 1 := by
  refine nodup_iff_count_le_one.mp (pairwise_map.mpr ?_) phase
  refine (hplan.ordered.sublist hsub).imp fun hpq heq => ?_
  rw [heq] at hpq
  exact lt_irrefl _ hpq.2

/-- The report of an accountable run keeps the contract. -/
theorem Accountable.contract (h : Accountable sha256 authorized done s)
    (hplan : Planned authorized attempt trigger impact closing) {failure : Option PendingFailure}
    (hbud : ∀ f, failure = some f → f.outcome ≠ .budgetExhausted ∧ f.outcome ≠ .completed)
    (hcomp : failure = none ↔ s.execution.impact = .verified ∧
      (s.execution.cleanup = .verified ∨ s.execution.cleanup = .notRequired) ∧ Quiet s.log) :
    Contract sha256 authorized (s.execution.intoReport sha256 failure) s.log := by
  have hsubl : (calls s.log).Sublist (authorized.plan.steps.map (permitFor sha256 authorized)) := by
    rw [h.ran.calls]
    exact h.part.map _
  have hord : (calls s.log).Pairwise fun p q => p.step ≠ q.step ∧ p.phase.rank < q.phase.rank := by
    rw [h.ran.calls]
    exact pairwise_map.mpr (hplan.ordered.sublist h.part)
  refine ⟨hsubl, hord, ?_, ?_, fun hreq hatt => ?_, h.cleanup, h.impact, ?_⟩
  · exact usage_isWithin_iff.mpr (h.ran.usage.trans (hplan.fits h.part))
  · cases failure with
    | none => nofun
    | some f => exact (hbud f rfl).1
  · rw [h.ran.calls] at hatt ⊢
    obtain ⟨step, hin, hph⟩ := h.cleaned hreq (by simpa [permitFor] using hatt)
    have hcnt : (done.map (permitFor sha256 authorized)).countP (fun p => p.phase = .cleanup) =
        phaseCount done .cleanup := by
      rw [phaseCount, count, countP_map, countP_map]
      exact countP_congr fun step _ => by
        rw [Function.comp_apply, Function.comp_apply, decide_eq_true_eq, beq_iff_eq]
        exact Iff.rfl
    have hsome : 0 < phaseCount done .cleanup :=
      count_pos_iff.mpr (mem_map.mpr ⟨step, hin, hph⟩)
    have hone := hplan.phaseCount_le_one h.part .cleanup
    omega
  · show failure.elim .completed (·.outcome) = .completed ↔ s.execution.impact = .verified ∧
      (s.execution.cleanup = .verified ∨ s.execution.cleanup = .notRequired) ∧ Quiet s.log
    rw [← hcomp]
    cases failure with
    | none => simp
    | some f => simpa using (hbud f rfl).2

/-! ### The phases of a run -/

/-- The lifecycle between the start of the attempt and cleanup. -/
def underway : List ExploitLifecycleState :=
  [.attemptStarted, .attemptDelivered, .triggerObserved, .impactVerified]

/-- A failure that leaves the lifecycle open for cleanup. -/
def Soft (failure : PendingFailure) : Prop :=
  failure.terminal ∈ [ExploitLifecycleState.failed, .cancelled, .incomplete] ∧
    failure.outcome ∈ [ExploitRunOutcome.failed, .cancelled, .incomplete]

variable {failure : PendingFailure} {α : Type} {phase : ExploitStepPhase}

theorem soft_of_call (hph : phase.rank ≤ 2) (h : failure ∈ callFailures phase) : Soft failure := by
  have hall : ∀ failure ∈ callFailures phase, Soft failure := by
    unfold Soft
    cases phase with
    | attempt | triggerVerification | impactVerification => decide
    | cleanup | cleanupVerification => exact absurd hph (by decide)
  exact hall failure h

theorem soft_of_receipt (hph : phase.rank ≤ 2)
    (observation : ExploitStepObservation) : Soft (failureFromReceipt phase observation) := by
  unfold Soft
  cases phase with
  | attempt | triggerVerification | impactVerification => cases observation <;> decide
  | cleanup | cleanupVerification => exact absurd hph (by decide)

theorem soft_cancelled : Soft .cancelled := by
  unfold Soft
  decide

/-- The status of cleanup before it runs. -/
def pendingCleanup (authorized : AuthorizedExploitPlan) : ExploitCleanupStatus :=
  if authorized.manifest.risk.cleanupRequired then .required else .notRequired

/-- A run between the start of the attempt and cleanup. -/
structure Underway (sha256 : Bytes → Bytes) (authorized : AuthorizedExploitPlan)
    (done : List ExploitPlanStep) (lifecycle : ExploitLifecycleState) (impact : ExploitImpactStatus)
    (s : RunState) : Prop where
  ran : Ran sha256 authorized done s
  lifecycle : s.execution.lifecycle = lifecycle
  impact : s.execution.impact = impact
  cleanup : s.execution.cleanup = pendingCleanup authorized
  obligation : s.execution.cleanupObligation = authorized.manifest.risk.cleanupRequired

variable {lifecycle : ExploitLifecycleState} {status : ExploitImpactStatus}

theorem Underway.afterRead (h : Underway sha256 authorized done lifecycle status s) (host : Host) :
    Underway sha256 authorized done lifecycle status (s.afterRead host) :=
  { h with ran := h.ran.afterRead host }

theorem Invoked.underway {result : Except PendingFailure ExploitStepReceipt} {t : RunState}
    (h : Invoked sha256 authorized done step s result t)
    (hs : Underway sha256 authorized done lifecycle status s) :
    Underway sha256 authorized (done ++ [step]) lifecycle status t := by
  obtain ⟨usage, seen, hkept⟩ := h.kept
  refine ⟨h.ran, ?_, ?_, ?_, ?_⟩
  · rw [hkept]
    exact hs.lifecycle
  · rw [hkept]
    exact hs.impact
  · rw [hkept]
    exact hs.cleanup
  · rw [hkept]
    exact hs.obligation

/-- The state after a transition. -/
def RunState.moved (s : RunState) (state : ExploitLifecycleState)
    (evidence : BTreeSet ExploitEvidenceReference) : RunState :=
  { s with execution :=
    { s.execution with
      lifecycle := state
      furthestProvenState := if state.isProof then state else s.execution.furthestProvenState
      events := s.execution.events ++ [{ state, evidence }] } }

theorem wp_transition {ok : Unit → RunState → Prop} {state : ExploitLifecycleState}
    {evidence : BTreeSet ExploitEvidenceReference} :
    wp (transition state evidence) ok err False s ↔
      s.execution.lifecycle.legalTransition state = true ∧ ok () (s.moved state evidence) := by
  unfold transition
  simp only [↓wp_rules, ↓wp_unwind, assign]
  by_cases hlegal : s.execution.lifecycle.legalTransition state = true
  · simp [hlegal, RunState.moved]
  · simp [hlegal]

theorem Ran.moved (h : Ran sha256 authorized done s) (state : ExploitLifecycleState)
    (evidence : BTreeSet ExploitEvidenceReference) :
    Ran sha256 authorized done (s.moved state evidence) :=
  { h with }

theorem Underway.moved (h : Underway sha256 authorized done lifecycle status s)
    (state : ExploitLifecycleState) (evidence : BTreeSet ExploitEvidenceReference) :
    Underway sha256 authorized done state status (s.moved state evidence) :=
  { h with ran := h.ran.moved state evidence, lifecycle := rfl }

/-- The run has called `done` and goes on to cleanup with a failure. -/
def Stopped (sha256 : Bytes → Bytes) (authorized : AuthorizedExploitPlan)
    (done : List ExploitPlanStep) (pending : Option PendingFailure) (t : RunState) : Prop :=
  ∃ failure lifecycle, pending = some failure ∧ Soft failure ∧ lifecycle ∈ underway ∧
    Underway sha256 authorized done lifecycle .notVerified t

variable (hplan : Planned authorized attempt trigger impact closing)

include hplan in
theorem recordObligation_spec
    (hran : Ran sha256 authorized [] s) (hlife : s.execution.lifecycle = lifecycle)
    (himp : s.execution.impact = .notVerified)
    (hcln : s.execution.cleanup = pendingCleanup authorized)
    (hobl : s.execution.cleanupObligation = false) :
    wp (recordObligation attempt) (fun _ t => Underway sha256 authorized [] lifecycle .notVerified t)
      err False s := by
  unfold recordObligation
  simp only [↓wp_rules, assign, hran.under]
  refine ⟨fun hreq => ?_, fun hnot => ⟨hran, hlife, himp, hcln, ?_⟩⟩
  · exact ⟨{ hran with under := rfl }, hlife, himp, hcln, hreq.1.symm⟩
  · rcases hplan.closing with ⟨hreq, hrev, -⟩ | ⟨hreq, -⟩
    · exact absurd ⟨hreq, hrev⟩ hnot
    · rw [hobl, hreq]

include hplan in
theorem deliverAttempt_spec (h : Underway sha256 authorized [] .attemptStarted .notVerified s) :
    wp (deliverAttempt sha256 host attempt) (fun pending t =>
      (pending = none ∧ Underway sha256 authorized [attempt] .attemptDelivered .notVerified t) ∨
        Stopped sha256 authorized [attempt] pending t) err False s := by
  have hsub : ([] ++ [attempt]).Sublist authorized.plan.steps := by
    rw [hplan.steps]
    simp
  have hph : attempt.phase.rank ≤ 2 := by
    rw [hplan.attempt_phase]
    decide
  unfold deliverAttempt
  rw [wp_bind]
  refine wp_imp (invoke_spec hplan h.ran hsub) fun result t hinv => ?_
  have ht := hinv.underway h
  obtain ⟨answer, -, hsett⟩ := hinv.called
  cases result with
  | error failure =>
    rw [wp_pure]
    exact .inr ⟨failure, _, rfl, soft_of_call hph hsett, by simp [underway], ht⟩
  | ok receipt =>
    simp only [↓wp_rules, ↓wp_transition]
    refine ⟨fun _ => ⟨?_, .inl ⟨trivial, ht.moved _ receipt.evidence⟩⟩, fun _ => .inr ?_⟩
    · rw [ht.lifecycle]
      rfl
    · exact ⟨_, _, rfl, soft_of_receipt (by decide) _, by simp [underway], ht⟩

/-- A cancellation stops a run, and changes nothing else. -/
theorem unlessCancelled_spec {pending : Option PendingFailure} {since : Nat}
    (h : (pending = none ∧ Underway sha256 authorized done lifecycle .notVerified s) ∨
      Stopped sha256 authorized done pending s) (hin : lifecycle ∈ underway) :
    wp (unlessCancelled host since pending) (fun pending t =>
      (pending = none ∧ Underway sha256 authorized done lifecycle .notVerified t) ∨
        Stopped sha256 authorized done pending t) err False s := by
  unfold unlessCancelled
  rw [wp_bind, wp_generation, wp_pure]
  split_ifs with hcanc
  · right
    rcases h with ⟨-, hs⟩ | ⟨failure, lifecycle, -, -, hlife, hs⟩
    · exact ⟨_, _, rfl, soft_cancelled, hin, hs.afterRead host⟩
    · exact ⟨_, _, rfl, soft_cancelled, hlife, hs.afterRead host⟩
  · rcases h with ⟨hnone, hs⟩ | ⟨failure, lifecycle, hsome, hsoft, hlife, hs⟩
    · exact .inl ⟨hnone, hs.afterRead host⟩
    · exact .inr ⟨failure, lifecycle, hsome, hsoft, hlife, hs.afterRead host⟩

include hplan in
/-- A verification step is cancelled around its call, or judged after it. -/
theorem runVerificationStep_spec {ok : Option PendingFailure → RunState → Prop}
    (h : Underway sha256 authorized done lifecycle .notVerified s)
    (hsub : (done ++ [step]).Sublist authorized.plan.steps)
    (hcanc : ∀ done' t, done'.Sublist (done ++ [step]) →
      Underway sha256 authorized done' lifecycle .notVerified t → ok (some .cancelled) t)
    (hjudge : ∀ result t, Underway sha256 authorized (done ++ [step]) lifecycle .notVerified t →
      t.execution.triggerEvidence = s.execution.triggerEvidence →
      (∃ reads answer more, t.log = s.log ++ reads ++
        [.called (permitFor sha256 authorized step) answer] ++ more ∧
        Settled sha256 authorized step answer result) →
      wp (judge step.phase result) ok err False t) :
    wp (runVerificationStep sha256 host step) ok err False s := by
  have hread := (h.afterRead host).afterRead host
  unfold runVerificationStep
  simp only [↓wp_rules, ↓wp_generation]
  refine ⟨fun _ => hcanc done _ (sublist_append_left _ _) (h.afterRead host), fun _ => ?_⟩
  refine wp_imp (invoke_spec hplan hread.ran hsub) fun result t hinv => ?_
  have ht := (hinv.underway hread).afterRead host
  refine ⟨fun _ => hcanc _ _ (List.Sublist.refl _) ht, fun _ => hjudge result _ ht ?_ ?_⟩
  · obtain ⟨usage, seen, hkept⟩ := hinv.kept
    show t.execution.triggerEvidence = _
    rw [hkept]
    rfl
  · obtain ⟨answer, hlog, hsett⟩ := hinv.called
    obtain ⟨arrived, hfirst, -⟩ := log_afterRead s host
    obtain ⟨arrived', hsnd, -⟩ := log_afterRead (s.afterRead host) host
    obtain ⟨arrived'', hlast, -⟩ := log_afterRead t host
    have hall : (t.afterRead host).log = s.log ++ ([LogEntry.read arrived (s.afterRead host).generation] ++
        [LogEntry.read arrived' ((s.afterRead host).afterRead host).generation]) ++
        [LogEntry.called (permitFor sha256 authorized step) answer] ++
        [LogEntry.read arrived'' (t.afterRead host).generation] := by
      rw [hlast, hlog, hsnd, hfirst]
      simp
    exact ⟨_, answer, _, hall, hsett⟩

include hplan in
/-- The trigger is observed, or the run stops. -/
theorem runTrigger_spec
    (h : Underway sha256 authorized [attempt] .attemptDelivered .notVerified s) :
    wp (runVerificationStep sha256 host trigger) (fun pending t =>
      (pending = none ∧
        Underway sha256 authorized [attempt, trigger] .triggerObserved .notVerified t ∧
        TriggerProven t.execution.triggerEvidence t.log) ∨
      ∃ done, done.Sublist [attempt, trigger, impact] ∧ Stopped sha256 authorized done pending t)
      err False s := by
  have hfr : [attempt, trigger].Sublist [attempt, trigger, impact] := by simp
  have hsub : ([attempt] ++ [trigger]).Sublist authorized.plan.steps := by
    rw [hplan.steps]
    simp
  have hph : trigger.phase.rank ≤ 2 := by
    rw [hplan.trigger_phase]
    decide
  have hin : ExploitLifecycleState.attemptDelivered ∈ underway := by simp [underway]
  refine runVerificationStep_spec hplan h hsub (fun done t hdone ht => ?_)
    (fun result t ht _ hcall => ?_)
  · exact .inr ⟨done, hdone.trans hfr, _, _, rfl, soft_cancelled, hin, ht⟩
  · obtain ⟨reads, answer, more, hlog, hsett⟩ := hcall
    cases result with
    | error failure =>
      exact .inr ⟨_, hfr, _, _, rfl, soft_of_call hph hsett, hin, ht⟩
    | ok receipt =>
      obtain ⟨rfl, hmats⟩ := hsett
      rw [hplan.trigger_phase]
      simp only [judge, assign, ↓wp_rules, ↓wp_transition]
      refine ⟨fun hobs => ⟨?_, .inl ⟨trivial, ?_, ?_⟩⟩, fun _ => .inr ?_⟩
      · rw [ht.lifecycle]
        rfl
      · exact { ht with ran := { ht.ran with }, lifecycle := rfl }
      · exact ⟨_, _, more, hlog, _, receipt, rfl, hplan.trigger_phase, hmats, hobs, rfl⟩
      · exact ⟨_, hfr, _, _, rfl, soft_of_receipt (by decide) _, hin, ht⟩

theorem impactEvidenceSuffices_iff {contract : ExploitVerificationContract}
    {trigger evidence : BTreeSet ExploitEvidenceReference} :
    impactEvidenceSuffices contract trigger evidence = true ↔
      (contract.independentVerificationRequired = true → ∀ e ∈ trigger, e ∉ evidence) ∧
        contract.minimumEvidenceCount ≤ (trigger ∪ evidence).size := by
  rw [← Std.ExtTreeSet.isEmpty_inter_iff]
  unfold impactEvidenceSuffices
  cases contract.independentVerificationRequired <;> simp

include hplan in
/-- The impact is verified, or the run stops. -/
theorem runImpact_spec
    (h : Underway sha256 authorized [attempt, trigger] .triggerObserved .notVerified s)
    (htrig : TriggerProven s.execution.triggerEvidence s.log) :
    wp (runVerificationStep sha256 host impact) (fun pending t =>
      (pending = none ∧
        Underway sha256 authorized [attempt, trigger, impact] .impactVerified .verified t ∧
        ImpactProven authorized.manifest.verification t.log) ∨
      ∃ done, done.Sublist [attempt, trigger, impact] ∧ Stopped sha256 authorized done pending t)
      err False s := by
  have hsub : ([attempt, trigger] ++ [impact]).Sublist authorized.plan.steps := by
    rw [hplan.steps]
    simp
  have hph : impact.phase.rank ≤ 2 := by
    rw [hplan.impact_phase]
    decide
  have hin : ExploitLifecycleState.triggerObserved ∈ underway := by simp [underway]
  refine runVerificationStep_spec hplan h hsub (fun done t hdone ht => ?_)
    (fun result t ht hev hcall => ?_)
  · exact .inr ⟨done, hdone, _, _, rfl, soft_cancelled, hin, ht⟩
  · obtain ⟨reads, answer, more, hlog, hsett⟩ := hcall
    cases result with
    | error failure =>
      exact .inr ⟨_, List.Sublist.refl _, _, _, rfl, soft_of_call hph hsett, hin, ht⟩
    | ok receipt =>
      obtain ⟨rfl, hmats⟩ := hsett
      rw [hplan.impact_phase]
      simp only [judge, assign, ↓wp_rules, ↓wp_transition]
      refine ⟨fun hverif => ⟨fun hsuff => ⟨?_, .inl ⟨trivial, ?_, ?_⟩⟩, fun _ => .inr ?_⟩,
        fun _ => .inr ?_⟩
      · rw [ht.lifecycle]
        rfl
      · exact ⟨{ ht.ran with }, rfl, rfl, ht.cleanup, ht.obligation⟩
      · rw [ht.ran.under, hev] at hsuff
        obtain ⟨hind, hcnt⟩ := impactEvidenceSuffices_iff.mp hsuff
        obtain ⟨before, entry, after, hbef, hacc⟩ := htrig
        refine ⟨before, entry, after ++ reads, _, more, _, receipt.evidence, ?_, hacc,
          ⟨_, receipt, rfl, hplan.impact_phase, hmats, hverif, rfl⟩, hcnt, hind⟩
        show t.log = _
        rw [hlog, hbef]
        simp
      · exact ⟨_, List.Sublist.refl _, _, _, rfl, by unfold Soft; decide, hin, ht⟩
      · exact ⟨_, List.Sublist.refl _, _, _, rfl, soft_of_receipt (by decide) _, hin, ht⟩

/-! ### Cleanup and the end of a run -/

theorem Accountable.moved (h : Accountable sha256 authorized done s) (state : ExploitLifecycleState)
    (evidence : BTreeSet ExploitEvidenceReference) :
    Accountable sha256 authorized done (s.moved state evidence) :=
  { h with ran := h.ran.moved state evidence }

include hplan in
/-- An accountable run that fails reports under the contract. -/
theorem finish_spec {ok : α → RunState → Prop} (h : Accountable sha256 authorized done s)
    (hlegal : s.execution.lifecycle.legalTransition failure.terminal = true)
    (hout : failure.outcome ≠ .budgetExhausted ∧ failure.outcome ≠ .completed)
    (hnot : ¬(s.execution.impact = .verified ∧
      (s.execution.cleanup = .verified ∨ s.execution.cleanup = .notRequired) ∧ Quiet s.log)) :
    wp (finish sha256 failure) ok (fun report t => Contract sha256 authorized report t.log) False s := by
  unfold finish finishTerminal report
  simp only [↓wp_rules, ↓wp_transition]
  refine ⟨hlegal, ?_⟩
  have hmv := h.moved failure.terminal ∅
  refine hmv.contract hplan (fun f hf => ?_) ⟨nofun, fun hall => absurd hall hnot⟩
  cases hf
  exact hout

include hplan in
/-- A run whose cleanup fails reports under the contract: cleanup was called. -/
theorem failCleanup_spec {ok : α → RunState → Prop} {result : ExploitCleanupStatus}
    (h : Underway sha256 authorized done .cleanupStarted status s)
    (hpart : done.Sublist authorized.plan.steps) (hcleaned : ∃ step ∈ done, step.phase = .cleanup)
    (himp : status = .verified → ImpactProven authorized.manifest.verification s.log)
    (hres : result ≠ .verified ∧ result ≠ .notRequired)
    (hterm : failure.terminal = .cleanupFailed ∨ failure.terminal = .incomplete)
    (hout : failure.outcome = .cleanupFailed ∨ failure.outcome = .cancelled) :
    wp (failCleanup sha256 result failure) ok
      (fun report t => Contract sha256 authorized report t.log) False s := by
  unfold failCleanup
  simp only [assign, ↓wp_rules]
  have hacct : Accountable sha256 authorized done
      { s with execution := { s.execution with cleanup := result } } :=
    ⟨{ h.ran with }, hpart, fun _ _ => hcleaned,
      fun hverif => absurd hverif hres.1, fun hverif => himp (h.impact ▸ hverif)⟩
  refine finish_spec hplan hacct ?_ ?_ ?_
  · rw [h.lifecycle]
    rcases hterm with hterm | hterm <;> rw [hterm] <;> rfl
  · rcases hout with hout | hout <;> rw [hout] <;> simp
  · rintro ⟨-, hverif | hnot, -⟩
    · exact hres.1 hverif
    · exact hres.2 hnot

theorem cleanupStatus_pending (failure : PendingFailure) :
    failure.cleanupStatus ≠ .verified ∧ failure.cleanupStatus ≠ .notRequired := by
  unfold PendingFailure.cleanupStatus
  split <;> simp

include hplan in
/-- The counter has not moved, or the run reports that cleanup was cut off. -/
theorem requireUncancelled_spec (h : Underway sha256 authorized done .cleanupStarted status s)
    (hpart : done.Sublist authorized.plan.steps) (hcleaned : ∃ step ∈ done, step.phase = .cleanup)
    (himp : status = .verified → ImpactProven authorized.manifest.verification s.log) :
    wp (requireUncancelled sha256 host s.generation) (fun _ t =>
        Underway sha256 authorized done .cleanupStarted status t ∧ t.generation = s.generation ∧
        ∃ arrived, t.log = s.log ++ [.read arrived s.generation] ∧
          (s.generation < u64Max → arrived = 0))
      (fun report t => Contract sha256 authorized report t.log) False s := by
  obtain ⟨arrived, hlog, harr⟩ := log_afterRead s host
  unfold requireUncancelled
  simp only [↓wp_rules, ↓wp_generation]
  refine ⟨fun _ => ?_, fun hsame => ⟨h.afterRead host, ?_, arrived, ?_, ?_⟩⟩
  · exact failCleanup_spec hplan (h.afterRead host) hpart hcleaned
      (fun hv => hlog ▸ (himp hv).append _) (by simp) (.inr rfl) (.inr rfl)
  · simpa using hsame
  · rw [not_not.mp hsame] at hlog
    exact hlog
  · exact harr (not_not.mp hsame)

/-- The answer to a call in the log. -/
theorem Settled.accepted {answer : ExecutorAnswer} {receipt : ExploitStepReceipt}
    {observation : ExploitStepObservation} (h : Settled sha256 authorized step answer (.ok receipt))
    (hobser : receipt.observation = observation) :
    Accepted step.phase observation receipt.evidence
      (.called (permitFor sha256 authorized step) answer) := by
  obtain ⟨rfl, hmats⟩ := h
  exact ⟨_, receipt, rfl, rfl, hmats, hobser, rfl⟩

include hplan in
theorem performCleanup_spec {cleanup : ExploitPlanStep} (hph : cleanup.phase = .cleanup)
    (h : Underway sha256 authorized done .cleanupStarted status s)
    (hpart : (done ++ [cleanup]).Sublist authorized.plan.steps)
    (himp : status = .verified → ImpactProven authorized.manifest.verification s.log) :
    wp (performCleanup sha256 host (some cleanup)) (fun _ t =>
        Underway sha256 authorized (done ++ [cleanup]) .cleanupStarted status t ∧
        t.generation = s.generation ∧ ∃ entry evidence, t.log = s.log ++ [entry] ∧
          Accepted .cleanup .cleanupPerformed evidence entry)
      (fun report t => Contract sha256 authorized report t.log) False s := by
  have hcleaned : ∃ step ∈ done ++ [cleanup], step.phase = .cleanup := ⟨cleanup, by simp, hph⟩
  unfold performCleanup
  rw [wp_bind]
  refine wp_imp (invoke_spec hplan h.ran hpart) fun result t hinv => ?_
  have ht := hinv.underway h
  obtain ⟨answer, hlog, hsett⟩ := hinv.called
  have himp : status = .verified → ImpactProven authorized.manifest.verification t.log :=
    fun hv => hlog ▸ (himp hv).append _
  cases result with
  | error failure =>
    exact failCleanup_spec hplan ht hpart hcleaned himp (cleanupStatus_pending failure) (.inl rfl)
      (.inl rfl)
  | ok receipt =>
    simp only [↓wp_rules, assign]
    refine ⟨fun hperf => ⟨?_, hinv.generation, _, receipt.evidence, hlog, ?_⟩, fun _ => ?_⟩
    · exact { ht with ran := { ht.ran with } }
    · exact hph ▸ hsett.accepted hperf
    · exact failCleanup_spec hplan ht hpart hcleaned himp (by simp) (.inl rfl) (.inl rfl)

include hplan in
theorem verifyCleanup_spec {verification : ExploitPlanStep}
    (hph : verification.phase = .cleanupVerification)
    (h : Underway sha256 authorized done .cleanupStarted status s)
    (hpart : (done ++ [verification]).Sublist authorized.plan.steps)
    (hcleaned : ∃ step ∈ done, step.phase = .cleanup)
    (himp : status = .verified → ImpactProven authorized.manifest.verification s.log) :
    wp (verifyCleanup sha256 host s.generation (some verification)) (fun _ t =>
        Ran sha256 authorized (done ++ [verification]) t ∧
        t.execution.lifecycle = .cleanupVerified ∧ t.execution.impact = status ∧
        t.execution.cleanup = .verified ∧ ∃ entry evidence arrived,
          t.log = s.log ++ [entry, .read arrived s.generation] ∧
          Accepted .cleanupVerification .cleanupVerified evidence entry ∧
          (s.generation < u64Max → arrived = 0))
      (fun report t => Contract sha256 authorized report t.log) False s := by
  have hcleaned : ∃ step ∈ done ++ [verification], step.phase = .cleanup := by
    obtain ⟨step, hin, hstep⟩ := hcleaned
    exact ⟨step, mem_append_left _ hin, hstep⟩
  unfold verifyCleanup
  rw [wp_bind]
  refine wp_imp (invoke_spec hplan h.ran hpart) fun result t hinv => ?_
  have ht := hinv.underway h
  obtain ⟨answer, hlog, hsett⟩ := hinv.called
  have himp : status = .verified → ImpactProven authorized.manifest.verification t.log :=
    fun hv => hlog ▸ (himp hv).append _
  cases result with
  | error failure =>
    exact failCleanup_spec hplan ht hpart hcleaned himp (cleanupStatus_pending failure) (.inl rfl)
      (.inl rfl)
  | ok receipt =>
    simp only [↓wp_rules]
    refine ⟨fun hverif => ?_, fun _ => ?_⟩
    · rw [← hinv.generation]
      refine wp_imp (requireUncancelled_spec hplan ht hpart hcleaned himp) fun _ u hu => ?_
      obtain ⟨hu, -, arrived, hread, harr⟩ := hu
      simp only [assign, ↓wp_modify, ↓wp_transition]
      refine ⟨?_, { hu.ran with }, rfl,
        hu.impact, rfl, _, receipt.evidence, arrived, ?_, hph ▸ hsett.accepted hverif,
        harr⟩
      · rw [hu.lifecycle]
        rfl
      · show u.log = _
        rw [hread, hlog]
        simp
    · exact failCleanup_spec hplan ht hpart hcleaned himp (by simp) (.inl rfl) (.inl rfl)

/-- Cleanup is called, and it is verified or the run reports that it is not. -/
theorem runCleanup_spec {cleanup verification : ExploitPlanStep}
    (hplan : Planned authorized attempt trigger impact [cleanup, verification])
    (hcln : cleanup.phase = .cleanup) (hver : verification.phase = .cleanupVerification)
    (h : Underway sha256 authorized done lifecycle status s) (hin : lifecycle ∈ underway)
    (hpart : done.Sublist [attempt, trigger, impact])
    (himp : status = .verified → ImpactProven authorized.manifest.verification s.log)
    (hread : ∃ before arrived, s.log = before ++ [.read arrived s.generation]) :
    wp (runCleanup sha256 host (some cleanup) (some verification) s.generation)
      (fun _ t => Ran sha256 authorized (done ++ [cleanup] ++ [verification]) t ∧
        t.execution.lifecycle = .cleanupVerified ∧ t.execution.impact = status ∧
        t.execution.cleanup = .verified ∧ CleanupProven t.log ∧ ∃ more, t.log = s.log ++ more)
      (fun report t => Contract sha256 authorized report t.log) False s := by
  have hfirst : (done ++ [cleanup]).Sublist authorized.plan.steps := by
    rw [hplan.steps]
    exact hpart.append (by simp)
  have hboth : (done ++ [cleanup] ++ [verification]).Sublist authorized.plan.steps := by
    rw [hplan.steps, append_assoc]
    exact hpart.append (by simp)
  have hcleaned : ∃ step ∈ done ++ [cleanup], step.phase = .cleanup := ⟨cleanup, by simp, hcln⟩
  unfold runCleanup
  simp only [↓wp_bind, ↓wp_transition]
  refine ⟨?_, rfl, ?_⟩
  · rw [h.lifecycle]
    revert hin
    cases lifecycle <;> simp [underway] <;> rfl
  have hstar := (h.moved .cleanupRequired ∅).moved .cleanupStarted ∅
  refine wp_imp (performCleanup_spec hplan hcln hstar hfirst himp) fun _ t ht => ?_
  obtain ⟨ht, hgen, performed, evidence, hperf, hacc⟩ := ht
  have himp₁ : status = .verified → ImpactProven authorized.manifest.verification t.log :=
    fun hv => hperf ▸ (himp hv).append _
  have hgen : t.generation = s.generation := hgen
  rw [← hgen]
  refine wp_imp (requireUncancelled_spec hplan ht hfirst hcleaned himp₁) fun _ u hu => ?_
  obtain ⟨hu, hsame, arrived', hread', harr'⟩ := hu
  have himp₂ : status = .verified → ImpactProven authorized.manifest.verification u.log :=
    fun hv => hread' ▸ (himp₁ hv).append _
  rw [← hsame]
  refine wp_imp (verifyCleanup_spec hplan hver hu hboth hcleaned himp₂) (fun _ v hv => ?_)
  obtain ⟨hran, hlife, hstat, hverif, entry, evidence', arrived'', hlog, hacc', harr''⟩ := hv
  have hlogs : v.log = s.log ++ [performed, .read arrived' s.generation, entry,
      .read arrived'' s.generation] := by
    rw [hlog, hread', hperf, hsame, hgen]
    simp [RunState.moved]
  obtain ⟨before, arrived, hbef⟩ := hread
  refine ⟨hran, hlife, hstat, hverif, ⟨before, arrived, s.generation, performed, arrived',
    entry, arrived'', [], evidence, evidence', ?_, hacc, hacc', fun hbel => ?_⟩, _, hlogs⟩
  · rw [hlogs, hbef]
    simp
  · rw [hgen] at harr'
    rw [hsame, hgen] at harr''
    exact ⟨harr' hbel, harr'' hbel⟩

/-! ### The whole run -/

/-- The phases went through, or stopped. -/
def Concluded (sha256 : Bytes → Bytes) (authorized : AuthorizedExploitPlan)
    (front : List ExploitPlanStep) (pending : Option PendingFailure) (s : RunState) : Prop :=
  (pending = none ∧ Underway sha256 authorized front .impactVerified .verified s ∧
    ImpactProven authorized.manifest.verification s.log) ∨
  ∃ done, done.Sublist front ∧ Stopped sha256 authorized done pending s

include hplan in
theorem runPhases_spec
    (hran : Ran sha256 authorized [] s) (hlife : s.execution.lifecycle = .attemptStarted)
    (himp : s.execution.impact = .notVerified)
    (hcln : s.execution.cleanup = pendingCleanup authorized)
    (hobl : s.execution.cleanupObligation = false) (attemptGeneration : Nat) :
    wp (runPhases sha256 host attempt trigger impact attemptGeneration)
      (Concluded sha256 authorized [attempt, trigger, impact]) err False s := by
  unfold runPhases
  simp only [↓wp_bind]
  refine wp_imp (recordObligation_spec hplan hran hlife himp hcln hobl) (fun _ t ht => ?_)
  refine wp_imp (deliverAttempt_spec hplan ht) fun pending u hu => ?_
  refine wp_imp (unlessCancelled_spec hu (by simp [underway])) fun pending v hv => ?_
  -- a run that has stopped stays stopped
  have hstop : ∀ {failure : PendingFailure} {done : List ExploitPlanStep} {w : RunState},
      done.Sublist [attempt, trigger, impact] → Stopped sha256 authorized done (some failure) w →
      wp (unlessStopped (some failure) (runVerificationStep sha256 host impact))
        (Concluded sha256 authorized [attempt, trigger, impact]) err False w :=
    fun hsub hw => .inr ⟨_, hsub, hw⟩
  rcases hv with ⟨rfl, hv⟩ | hv
  · refine wp_imp (runTrigger_spec hplan hv) fun pending w hw => ?_
    rcases hw with ⟨rfl, hw, htrig⟩ | ⟨done, hsub, hw⟩
    · exact wp_imp (runImpact_spec hplan hw htrig) (fun _ _ hx => hx)
    · obtain ⟨failure, lifecycle, rfl, hrest⟩ := hw
      exact hstop hsub ⟨failure, lifecycle, rfl, hrest⟩
  · obtain ⟨failure, lifecycle, rfl, hrest⟩ := hv
    exact hstop (by simp) ⟨failure, lifecycle, rfl, hrest⟩

/-- Nothing is left to clean up. -/
structure Discharged (sha256 : Bytes → Bytes) (authorized : AuthorizedExploitPlan)
    (done : List ExploitPlanStep) (pending : Option PendingFailure) (s : RunState) : Prop where
  accountable : Accountable sha256 authorized done s
  lifecycle : s.execution.lifecycle ∈ .cleanupVerified :: underway
  cleanup : s.execution.cleanup = .verified ∨ s.execution.cleanup = .notRequired
  proven : pending = none → s.execution.impact = .verified ∧
    s.execution.lifecycle ∈ [ExploitLifecycleState.impactVerified, .cleanupVerified]
  failed : ∀ failure, pending = some failure → Soft failure ∧
    (s.execution.impact = .notVerified ∨ ¬Quiet s.log)

theorem Concluded.underway {pending : Option PendingFailure} {front : List ExploitPlanStep}
    (h : Concluded sha256 authorized front pending s) :
    ∃ done lifecycle status, done.Sublist front ∧ lifecycle ∈ underway ∧
      Underway sha256 authorized done lifecycle status s ∧
      (status = .verified → ImpactProven authorized.manifest.verification s.log) ∧
      (pending = none → status = .verified ∧ lifecycle = .impactVerified) ∧
      ∀ failure, pending = some failure → Soft failure ∧ status = .notVerified := by
  rcases h with ⟨rfl, hs, hproven⟩ | ⟨done, hsub, failure, lifecycle, rfl, hsoft, hin, hs⟩
  · exact ⟨front, .impactVerified, .verified, List.Sublist.refl _, by simp [Exploit.underway], hs,
      fun _ => hproven, fun _ => ⟨rfl, rfl⟩, nofun⟩
  · refine ⟨done, lifecycle, .notVerified, hsub, hin, hs, nofun, nofun, fun f hf => ?_⟩
    cases hf
    exact ⟨hsoft, rfl⟩

include hplan in
theorem discharge_spec
    {pending : Option PendingFailure}
    (h : Concluded sha256 authorized [attempt, trigger, impact] pending s) :
    wp (discharge sha256 host (authorized.plan.steps.find? fun step => step.phase = .cleanup)
        (authorized.plan.steps.find? fun step => step.phase = .cleanupVerification) 0 pending)
      (fun pending t => ∃ done, Discharged sha256 authorized done pending t)
      (fun report t => Contract sha256 authorized report t.log) False s := by
  obtain ⟨done, lifecycle, status, hsub, hin, hs, hproven, hnone, hsome⟩ := h.underway
  unfold discharge
  simp only [↓wp_rules, ↓wp_generation, hs.obligation]
  rcases hplan.closing with ⟨hreq, -, cleanup, verification, rfl, hcln, hver⟩ | ⟨hreq, rfl⟩
  · refine ⟨fun hno => by simp [hreq] at hno, fun _ => ?_⟩
    have hfind : (authorized.plan.steps.find? fun step => step.phase = .cleanup) = some cleanup := by
      simp [hplan.steps, hplan.attempt_phase, hplan.trigger_phase, hplan.impact_phase, hcln]
    have hfind' : (authorized.plan.steps.find? fun step => step.phase = .cleanupVerification) =
        some verification := by
      simp [hplan.steps, hplan.attempt_phase, hplan.trigger_phase, hplan.impact_phase, hcln, hver]
    obtain ⟨arrived, hlog, -⟩ := log_afterRead s host
    rw [hfind, hfind']
    refine wp_imp (runCleanup_spec hplan hcln hver (hs.afterRead host) hin hsub
      (fun hv => hlog ▸ (hproven hv).append _) ⟨_, arrived, hlog⟩) (fun _ t ht => ?_)
    obtain ⟨hran, hlife, hstat, hverif, hcleaned, more, hmore⟩ := ht
    refine ⟨_, ⟨hran, ?_, fun _ _ => ⟨cleanup, by simp, hcln⟩, fun _ => hcleaned, fun hv => ?_⟩,
      ?_, .inl hverif, fun hp => ?_, fun failure hp => ?_⟩
    · rw [hplan.steps, append_assoc]
      exact hsub.append (by simp)
    · rw [hmore, hlog]
      exact ((hproven (hstat ▸ hv)).append _).append _
    · rw [hlife]
      exact mem_cons_self
    · split_ifs at hp
      rw [hstat, hlife]
      exact ⟨(hnone hp).1, by simp⟩
    · split_ifs at hp with hcanc
      · cases hp
        refine ⟨soft_cancelled, .inr fun hqt => hcanc.2 ?_⟩
        rw [hmore, quiet_append] at hqt
        exact ((hs.ran.afterRead host).quiet).mpr hqt.1
      · rw [hstat]
        exact ⟨(hsome failure hp).1, .inl (hsome failure hp).2⟩
  · refine ⟨fun _ => ⟨done, ⟨hs.ran, ?_, fun hno => by simp [hreq] at hno, fun hv => ?_, fun hv => ?_⟩,
      ?_, .inr ?_, fun hp => ?_, fun failure hp => ?_⟩, fun hno => by simp [hreq] at hno⟩
    · rw [hplan.steps]
      exact hsub.trans (sublist_append_left _ _)
    · rw [hs.cleanup, pendingCleanup, hreq] at hv
      cases hv
    · exact hproven (hs.impact ▸ hv)
    · rw [hs.lifecycle]
      exact mem_cons_of_mem _ hin
    · rw [hs.cleanup, pendingCleanup, hreq]
      rfl
    · rw [hs.impact, hs.lifecycle, (hnone hp).2]
      exact ⟨(hnone hp).1, by simp⟩
    · rw [hs.impact]
      exact ⟨(hsome failure hp).1, .inl (hsome failure hp).2⟩

include hplan in
/-- A failure that is left when nothing is to be cleaned up ends the run. -/
theorem finish_soft {ok : α → RunState → Prop} {pending : Option PendingFailure}
    (h : Discharged sha256 authorized done pending s) (hsoft : Soft failure)
    (hopen : s.execution.impact = .notVerified ∨ ¬Quiet s.log) :
    wp (finish sha256 failure) ok (fun report t => Contract sha256 authorized report t.log) False s := by
  obtain ⟨hterm, hout⟩ := hsoft
  refine finish_spec hplan h.accountable ?_ ?_ ?_
  · have hlegal : ∀ state ∈ ExploitLifecycleState.cleanupVerified :: underway,
        ∀ terminal ∈ [ExploitLifecycleState.failed, .cancelled, .incomplete],
        state.legalTransition terminal = true := by decide
    exact hlegal _ h.lifecycle _ hterm
  · constructor
    · intro heq
      simp [heq] at hout
    · intro heq
      simp [heq] at hout
  · rintro ⟨himp, -, hqt⟩
    rcases hopen with hnot | hnot
    · rw [himp] at hnot
      cases hnot
    · exact hnot hqt

include hplan in
theorem conclude_spec {ok : ExploitRunReport → RunState → Prop} {pending : Option PendingFailure}
    (h : Discharged sha256 authorized done pending s) :
    wp (conclude sha256 host 0 pending) ok
      (fun report t => Contract sha256 authorized report t.log) False s := by
  unfold conclude
  cases pending with
  | some failure =>
    obtain ⟨hsoft, hopen⟩ := h.failed failure rfl
    exact finish_soft hplan h hsoft hopen
  | none =>
    obtain ⟨himp, hlife⟩ := h.proven rfl
    obtain ⟨arrived, hlog, -⟩ := log_afterRead s host
    have hacct := h.accountable
    have hread : Accountable sha256 authorized done (s.afterRead host) :=
      ⟨hacct.ran.afterRead host, hacct.part, hacct.cleaned,
        fun hv => hlog ▸ (hacct.cleanup hv).append _,
        fun hv => hlog ▸ (hacct.impact hv).append _⟩
    have hqt := hread.ran.quiet
    have hdisc : ∀ pending, pending ≠ none → (∀ f, pending = some f → Soft f ∧
        ¬Quiet (s.afterRead host).log) → Discharged sha256 authorized done pending (s.afterRead host) :=
      fun pending hsome hfailed => ⟨hread, h.lifecycle, h.cleanup, fun hnone => absurd hnone hsome,
        fun f hf => ⟨(hfailed f hf).1, .inr (hfailed f hf).2⟩⟩
    simp only [unlessStopped, unlessCancelled, ↓wp_rules, ↓wp_generation]
    by_cases hcanc : (s.afterRead host).generation ≠ 0
    · rw [if_pos hcanc]
      have hnot : ¬Quiet (s.afterRead host).log := fun hq => hcanc (hqt.mpr hq)
      refine finish_soft hplan (hdisc (some .cancelled) nofun fun f hf => ?_) soft_cancelled
        (.inr hnot)
      cases hf
      exact ⟨soft_cancelled, hnot⟩
    · rw [if_neg hcanc]
      simp only [↓wp_rules, ↓wp_transition, report]
      refine ⟨fun _ => ⟨?_, ?_⟩, fun hno => absurd himp hno⟩
      · have hlegal : ∀ state ∈ [ExploitLifecycleState.impactVerified, .cleanupVerified],
            state.legalTransition .completed = true := by decide
        exact hlegal _ hlife
      · have hmv := hread.moved .completed ∅
        refine hmv.contract hplan nofun ⟨fun _ => ?_, fun _ => rfl⟩
        exact ⟨himp, h.cleanup, hqt.mp (not_not.mp hcanc)⟩

theorem requireStep_spec {ok : ExploitPlanStep → RunState → Prop}
    (step : ExploitPlanStep) (hunder : s.execution.authorized = authorized)
    (hfind : (authorized.plan.steps.find? fun step => step.phase = phase) = some step)
    (h : ok step s) : wp (requireStep phase) ok err False s := by
  unfold requireStep Execution.stepOptional
  simp only [↓wp_rules, hunder, hfind]
  exact h

include hplan in
/-- A run that has not called anything may still be cancelled. -/
theorem cancelled_spec {ok : α → RunState → Prop} (hran : Ran sha256 authorized [] s)
    (hlife : s.execution.lifecycle = .planned ∨ s.execution.lifecycle = .attemptStarted)
    (himp : s.execution.impact = .notVerified)
    (hcln : s.execution.cleanup = pendingCleanup authorized) :
    wp (finish sha256 .cancelled) ok (fun report t => Contract sha256 authorized report t.log) False
      s := by
  have hpend : pendingCleanup authorized ≠ .verified := by
    unfold pendingCleanup
    split_ifs <;> simp
  have hacct : Accountable sha256 authorized [] s :=
    ⟨hran, nil_sublist _, fun _ hatt => by simp at hatt,
      fun hv => absurd (hcln ▸ hv) hpend, fun hv => by rw [himp] at hv; cases hv⟩
  refine finish_spec hplan hacct ?_ ?_ ?_
  · rcases hlife with hlife | hlife <;> rw [hlife] <;> rfl
  · exact ⟨nofun, nofun⟩
  · rintro ⟨hv, -⟩
    rw [himp] at hv
    cases hv

include hplan in
theorem run_spec (hran : Ran sha256 authorized [] s) (hlife : s.execution.lifecycle = .planned)
    (himp : s.execution.impact = .notVerified)
    (hcln : s.execution.cleanup = pendingCleanup authorized)
    (hobl : s.execution.cleanupObligation = false) :
    wp (Execution.run sha256 host) (fun _ _ => False)
      (fun report t => Contract sha256 authorized report t.log) False s := by
  have hread := hran.afterRead host
  unfold Execution.run
  simp only [↓wp_rules, ↓wp_generation, ↓wp_transition]
  refine ⟨fun _ => cancelled_spec hplan hread (.inl hlife) himp hcln, fun hzero => ?_⟩
  rw [not_not.mp hzero]
  refine requireStep_spec attempt hread.under (by simp [hplan.steps, hplan.attempt_phase]) ?_
  refine requireStep_spec trigger hread.under
    (by simp [hplan.steps, hplan.attempt_phase, hplan.trigger_phase]) ?_
  refine requireStep_spec impact hread.under
    (by simp [hplan.steps, hplan.attempt_phase, hplan.trigger_phase, hplan.impact_phase]) ?_
  refine ⟨?_, ?_⟩
  · show s.execution.lifecycle.legalTransition _ = true
    rw [hlife]
    rfl
  have hstar := (hread.moved .attemptStarted ∅).afterRead host
  refine ⟨fun _ => cancelled_spec hplan hstar (.inr rfl) himp hcln, fun _ => ?_⟩
  refine wp_imp (runPhases_spec hplan hstar rfl himp hcln hobl 0) (fun pending t ht => ?_)
  have hopt : ∀ phase, (s.afterRead host).execution.stepOptional phase =
      authorized.plan.steps.find? fun step => step.phase = phase := fun phase => by
    rw [Execution.stepOptional, hread.under]
  rw [hopt, hopt]
  refine wp_imp (discharge_spec hplan ht) fun pending u hu => ?_
  obtain ⟨done, hu⟩ := hu
  exact conclude_spec hplan hu

include hplan in
/-- A run of a plan that may run ends in a report under the contract. -/
theorem execute_spec :
    ∃ report log, execute sha256 host authorized = some (report, log) ∧
      Contract sha256 authorized report log := by
  have hev : authorized.applicabilityEvidence.size ≤ u32Max := by
    have hroom := (hplan.room.trans hplan.counters) .evidenceReferences
    simp only [spent, counterMax] at hroom
    omega
  have hnew : ∃ execution, Execution.new authorized = some execution ∧
      execution.authorized = authorized ∧ execution.lifecycle = .planned ∧
      execution.impact = .notVerified ∧ execution.cleanup = pendingCleanup authorized ∧
      execution.cleanupObligation = false ∧
      execution.usage = { evidenceReferences := authorized.applicabilityEvidence.size } := by
    unfold Execution.new
    rw [if_neg (by omega), if_neg (by decide)]
    exact ⟨_, rfl, rfl, rfl, rfl, rfl, rfl, rfl⟩
  obtain ⟨execution, hnew, hunder, hlife, himp, hcln, hobl, husage⟩ := hnew
  have hran : Ran sha256 authorized [] { execution, generation := 0, log := [] } := by
    refine ⟨hunder, rfl, fun d => ?_, Nat.zero_le _, by simp [Quiet]⟩
    simp only [husage]
    cases d <;> simp [ExploitRunUsage.dim, spent]
  have hrun : wp (Execution.run sha256 host) (fun _ _ => False)
      (fun report t => Contract sha256 authorized report t.log) False
      { execution, generation := 0, log := [] } :=
    run_spec hplan hran hlife himp hcln hobl
  unfold execute
  rw [hnew]
  simp only [Option.bind_eq_bind, Option.bind_some]
  unfold wp at hrun
  cases hres : Execution.run sha256 host { execution, generation := 0, log := [] } with
  | ok report t => exact (by rw [hres] at hrun; exact hrun : False).elim
  | error report t =>
    rw [hres] at hrun
    exact ⟨report, t.log, rfl, hrun⟩
  | panic => exact (by rw [hres] at hrun; exact hrun : False).elim

end Run

/-- **A run keeps its contract.** Whatever the executor answers and whenever
cancellations arrive, a run of a plan that was prepared and authorized ends in
a report: no transition of its lifecycle is illegal, and the report and the
log of the run satisfy `Contract`. -/
theorem execution_contract {sha256 : Bytes → Bytes} {request : ExploitPreparationRequest}
    {prepared : PreparedExploit} {grant : ExploitAuthorizationGrant}
    {hostBudget : ExploitExecutionBudget} {authorized : AuthorizedExploitPlan}
    (hprepare : prepare sha256 request = .ok prepared) (hgrant : Granted grant)
    (hauthorize : authorize prepared grant hostBudget = .ok authorized) (host : Host) :
    ∃ report log, execute sha256 host authorized = some (report, log) ∧
      Contract sha256 authorized report log := by
  obtain ⟨attempt, trigger, impact, closing, hplan⟩ := planned_of_authorize hprepare hgrant hauthorize
  exact execute_spec hplan

/-! ### Runs of the sample -/

section Sample

def sampleEvidence (value : String) (h : validateId value "evidence_id" = .ok ()) :
    BTreeSet ExploitEvidenceReference := {⟨value, h⟩}

/-- An executor that does what each step asks for. -/
def sampleReceipt (permit : ExploitStepPermit) : ExploitStepReceipt :=
  let result : ExploitStepObservation × BTreeSet ExploitEvidenceReference := match permit.phase with
    | .attempt => (.attemptDelivered, ∅)
    | .triggerVerification => (.triggerObserved, sampleEvidence "e1" (by decide +kernel))
    | .impactVerification => (.impactVerified, sampleEvidence "e2" (by decide +kernel))
    | .cleanup => (.cleanupPerformed, ∅)
    | .cleanupVerification => (.cleanupVerified, sampleEvidence "e3" (by decide +kernel))
  { run := permit.run
    target := permit.target
    module := permit.module
    manifestDigest := permit.manifestDigest
    planDigest := permit.planDigest
    step := permit.step
    phase := permit.phase
    correlation := permit.correlation
    observation := result.1
    usage := { hostOperations := 1, evidenceReferences := result.2.size, elapsedMilliseconds := 1 }
    evidence := result.2 }

/-- That executor, with cancellations that arrive at the reads with these numbers. -/
def sampleHost (arrivals : Nat → Nat) : Host where
  execute _ permit := .receipt (sampleReceipt permit)
  arrivals log := arrivals (log.countP fun entry => match entry with
    | .read _ _ => true
    | .called _ _ => false)

/-- What a log shows: the reads with their arrivals and values, and the phases. -/
def trace (log : List LogEntry) : List (Nat × Nat ⊕ ExploitStepPhase) :=
  log.map fun entry => match entry with
    | .read arrived generation => .inl (arrived, generation)
    | .called permit _ => .inr permit.phase

/-- A cooperative executor that is not cancelled completes. -/
theorem execution_contract_sample : ∃ prepared grant authorized report log,
    sampleAuthorized = .ok (prepared, grant, authorized) ∧
      execute (fun _ => List.replicate 32 0) (sampleHost fun _ => 0) authorized = some (report, log) ∧
      Contract (fun _ => List.replicate 32 0) authorized report log ∧ report.outcome = .completed := by
  obtain ⟨prepared, grant, authorized, hres, hout⟩ := sampleAuthorized_eq
    (f := fun authorized => (execute (fun _ => List.replicate 32 0) (sampleHost fun _ => 0)
      authorized).map fun run => run.1.outcome) (show _ = some .completed by decide +kernel)
  obtain ⟨hprep, hgrant, hauth⟩ := sampleAuthorized_spec hres
  obtain ⟨report, log, hrun, hctr⟩ :=
    execution_contract hprep hgrant hauth (sampleHost fun _ => 0)
  rw [hrun] at hout
  exact ⟨prepared, grant, authorized, report, log, hres, hrun, hctr, Option.some.inj hout⟩

/-- A counter at its largest value does not show a cancellation during cleanup. -/
theorem cleanup_verified_saturated : ∃ prepared grant authorized report log,
    sampleAuthorized = .ok (prepared, grant, authorized) ∧
      execute (fun _ => List.replicate 32 0)
        (sampleHost fun read => if read = 9 then u64Max else if read = 10 then 1 else 0) authorized =
          some (report, log) ∧
      report.cleanup = .verified ∧
      trace log = [.inl (0, 0), .inl (0, 0), .inr .attempt, .inl (0, 0),
        .inl (0, 0), .inl (0, 0), .inr .triggerVerification, .inl (0, 0),
        .inl (0, 0), .inl (0, 0), .inr .impactVerification, .inl (0, 0),
        .inl (u64Max, u64Max), .inr .cleanup, .inl (1, u64Max), .inr .cleanupVerification,
        .inl (0, u64Max)] := by
  obtain ⟨prepared, grant, authorized, hres, hrun⟩ := sampleAuthorized_eq
    (f := fun authorized => (execute (fun _ => List.replicate 32 0)
      (sampleHost fun read => if read = 9 then u64Max else if read = 10 then 1 else 0)
        authorized).map fun run => (run.1.cleanup, trace run.2))
    (show _ = some (.verified, [.inl (0, 0), .inl (0, 0), .inr .attempt, .inl (0, 0),
        .inl (0, 0), .inl (0, 0), .inr .triggerVerification, .inl (0, 0),
        .inl (0, 0), .inl (0, 0), .inr .impactVerification, .inl (0, 0),
        .inl (u64Max, u64Max), .inr .cleanup, .inl (1, u64Max), .inr .cleanupVerification,
        .inl (0, u64Max)]) by decide +kernel)
  obtain ⟨⟨report, log⟩, hexecute, hobs⟩ := Option.map_eq_some_iff.mp hrun
  obtain ⟨hcln, htr⟩ := Prod.mk.inj hobs
  exact ⟨prepared, grant, authorized, report, log, hres, hexecute, hcln, htr⟩

end Sample

end Termivar.Exploit
