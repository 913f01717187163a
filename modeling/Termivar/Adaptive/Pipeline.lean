/-
# Adaptive decisions

`termivar-scanner/src/adaptive/pipeline.rs`: policy rules map the outcome of a
verification to a directive, and a ledger counts what the rules did. Deciding
reads the ledger and checks its limits, recording writes the decision into it.
-/
import Termivar.Verification.Registry

namespace Termivar

/-! ### Outcomes -/

/-- The order of the statuses. -/
def OutcomeStatus.rank : OutcomeStatus → Nat
  | .success => 0
  | .blocked => 1
  | .unknown => 2
  | .falsePositive => 3
  | .needsReview => 4
  | .confirmedNegative => 5

instance : Ord OutcomeStatus := ⟨compareOn OutcomeStatus.rank⟩

instance : Std.TransOrd OutcomeStatus :=
  inferInstanceAs (Std.TransCmp (compareOn OutcomeStatus.rank))

instance : Std.LawfulEqOrd OutcomeStatus :=
  lawfulEqCmp_compareOn fun a b h => by cases a <;> cases b <;> first | rfl | cases h

def VerificationStage.rank : VerificationStage → Nat
  | .passive => 0
  | .active => 1

instance : Ord VerificationStage := ⟨compareOn VerificationStage.rank⟩

instance : Std.TransOrd VerificationStage :=
  inferInstanceAs (Std.TransCmp (compareOn VerificationStage.rank))

instance : Std.LawfulEqOrd VerificationStage :=
  lawfulEqCmp_compareOn fun a b h => by cases a <;> cases b <;> first | rfl | cases h

/-- Outcomes that exist: those a constructor of the outcome contracts gives. -/
inductive VerificationOutcome.Constructed : VerificationOutcome → Prop
  | verified {caseId : String} {subject : EntityId} {actionId hypothesisId verifierRuleId : String}
      {stage : VerificationStage} {status : OutcomeStatus} {confidence : Probability}
      {rationale : String} {evidenceIds : BTreeSet EvidenceId} {outcome : VerificationOutcome}
      (h : VerificationOutcome.verified caseId subject actionId hypothesisId verifierRuleId stage
        status confidence rationale evidenceIds = .ok outcome) : Constructed outcome
  | unknown {caseId : String} {subject : EntityId} {actionId hypothesisId : String}
      {stage : VerificationStage} {rationale : String} {outcome : VerificationOutcome}
      (h : VerificationOutcome.unknown caseId subject actionId hypothesisId stage rationale =
        .ok outcome) : Constructed outcome

/-! ### Rules -/

/-- Validation and consistency errors raised by adaptive decisions. -/
inductive AdaptivePipelineError where
  | emptyValue (field : String)
  | emptyStatuses
  | emptyStages
  | zeroRuleApplications (ruleId : String)
  | emptyScheduledAction
  | zeroThrottleDelay
  | ruleIdentityConflict (id : String)
  | snapshotSubjectMismatch (expected actual : EntityId)
  | missingOutcomeEvidence (evidenceId : EvidenceId)
  | missingContributingEvidence (ruleId : String)
  | zeroTransitions
  | zeroActionSchedules
  | decisionSequenceMismatch (expected actual : Nat)
  | counterOverflow
  | invalidLedgerEntry (field : String)
  | rule (failure : RuleEngineError)
  deriving DecidableEq

/-- Outcome statuses and verification stages accepted by one policy rule. -/
structure OutcomeSelector where
  statuses : BTreeSet OutcomeStatus
  stages : BTreeSet VerificationStage
  statusesNonempty : statuses.isEmpty = false
  stagesNonempty : stages.isEmpty = false

namespace OutcomeSelector

def new (statuses : BTreeSet OutcomeStatus) (stages : BTreeSet VerificationStage) :
    Except AdaptivePipelineError OutcomeSelector :=
  if statusesNonempty : statuses.isEmpty = false then
    if stagesNonempty : stages.isEmpty = false then
      .ok { statuses, stages, statusesNonempty, stagesNonempty }
    else .error .emptyStages
  else .error .emptyStatuses

def admits (selector : OutcomeSelector) (outcome : VerificationOutcome) : Bool :=
  selector.statuses.contains outcome.status && selector.stages.contains outcome.stage

end OutcomeSelector

/-- Side-effect-free command emitted for the runner or scheduler. -/
inductive PipelineDirective where
  | complete
  | scheduleAction (actionId : String)
  | replan (suppressCurrentAction : Bool)
  | throttle (delayMs : UInt64) (retryCurrentAction : Bool)
  | awaitActiveVerification
  | awaitHumanReview
  | halt
  deriving DecidableEq

namespace PipelineDirective

def validate : PipelineDirective → Except AdaptivePipelineError Unit
  | .scheduleAction actionId => if isBlank actionId then .error .emptyScheduledAction else .ok ()
  | .throttle delayMs _ => if delayMs = 0 then .error .zeroThrottleDelay else .ok ()
  | _ => .ok ()

/-- The explicitly scheduled action, if any. -/
def scheduledActionId : PipelineDirective → Option String
  | .scheduleAction actionId => some actionId
  | _ => none

/-- The action that is scheduled or tried again. -/
def repeatedActionId (directive : PipelineDirective) (sourceActionId : String) : Option String :=
  match directive with
  | .scheduleAction actionId => some actionId
  | .throttle _ true => some sourceActionId
  | _ => none

end PipelineDirective

/-- Declarative mapping from an outcome and a condition to a directive. -/
structure AdaptationRule where
  id : String
  selector : OutcomeSelector
  priority : Nat
  condition : Option Expression
  directive : PipelineDirective
  rationale : String
  maxApplications : Nat
  idNotBlank : isBlank id = false
  priorityBounded : priority ≤ u16Max
  directiveValid : directive.validate = .ok ()
  rationaleNotBlank : isBlank rationale = false
  applicationsPositive : 0 < maxApplications
  applicationsBounded : maxApplications ≤ u16Max

/-- `new`. The bounds are those of the types of the arguments. -/
def AdaptationRule.new (id : String) (selector : OutcomeSelector)
    (priority : { n : Nat // n ≤ u16Max }) (condition : Option Expression)
    (directive : PipelineDirective) (rationale : String)
    (maxApplications : { n : Nat // n ≤ u16Max }) :
    Except AdaptivePipelineError AdaptationRule :=
  if idNotBlank : isBlank id = false then
    if applicationsPositive : 0 < maxApplications.1 then
      match directiveValid : directive.validate with
      | .error failure => .error failure
      | .ok () =>
        if rationaleNotBlank : isBlank rationale = false then
          .ok { id, selector, priority := priority.1, condition, directive, rationale
                maxApplications := maxApplications.1, idNotBlank
                priorityBounded := priority.2, directiveValid, rationaleNotBlank
                applicationsPositive, applicationsBounded := maxApplications.2 }
        else .error (.emptyValue "adaptation rationale")
    else .error (.zeroRuleApplications id)
  else .error (.emptyValue "adaptation rule id")

/-- Limits applied across an adaptive decision ledger. -/
structure AdaptationLimits where
  (maxTransitions maxActionSchedules : Nat)
  transitionsPositive : 0 < maxTransitions
  transitionsBounded : maxTransitions ≤ u32Max
  schedulesPositive : 0 < maxActionSchedules
  schedulesBounded : maxActionSchedules ≤ u16Max

/-! ### Decisions -/

/-- Explainable evaluation of one adaptation policy. -/
structure AdaptationRuleEvaluation where
  ruleId : String
  selectorMatched : Bool
  condition : Option ExpressionTrace
  (outcomeEvidenceMatched ruleLimitExhausted actionLimitExhausted policySuppressed eligible : Bool)
  selected : Bool

/-- Immutable adaptive decision for one verification outcome. -/
structure AdaptiveDecision where
  sequence : Nat
  subject : EntityId
  (caseId sourceActionId : String)
  outcomeStatus : OutcomeStatus
  outcomeStage : VerificationStage
  selectedRuleId : Option String
  directive : PipelineDirective
  rationale : String
  evaluations : List AdaptationRuleEvaluation
  transitionLimitReached : Bool

/-- Replayable counters and suppressions for one adaptive scan session. -/
structure AdaptationLedger where
  transitions : Nat
  (ruleApplications actionSchedules : BTreeMap String Nat)
  suppressedActions : BTreeSet String

/-- How often an identity was counted. -/
def countFor (counters : BTreeMap String Nat) (identity : String) : Nat :=
  counters[identity]?.getD 0

def increment (counters : BTreeMap String Nat) (identity : String) :
    Except AdaptivePipelineError (BTreeMap String Nat) := do
  let next ← okOr (checkedAdd u16Max (countFor counters identity) 1) .counterOverflow
  return counters.insert identity next

/-- Counts an identity, if there is one. -/
def incrementSome (counters : BTreeMap String Nat) :
    Option String → Except AdaptivePipelineError (BTreeMap String Nat)
  | some identity => increment counters identity
  | none => .ok counters

namespace AdaptationLedger

def new : AdaptationLedger := ⟨0, ∅, ∅, ∅⟩

/-- Records one decision exactly once and in sequence order. -/
def record (decision : AdaptiveDecision) :
    Command AdaptationLedger AdaptivePipelineError Unit := do
  let ledger ← get
  if decision.sequence ≠ ledger.transitions then
    throw (.decisionSequenceMismatch ledger.transitions decision.sequence)
  if decision.transitionLimitReached then return ()
  let transitions ← okOr (checkedAdd u32Max ledger.transitions 1)
    AdaptivePipelineError.counterOverflow
  let ruleApplications ← incrementSome ledger.ruleApplications decision.selectedRuleId
  let actionSchedules ← incrementSome ledger.actionSchedules decision.directive.scheduledActionId
  let suppressedActions := if decision.directive = .replan true then
    ledger.suppressedActions.insert decision.sourceActionId else ledger.suppressedActions
  set (⟨transitions, ruleApplications, actionSchedules, suppressedActions⟩ : AdaptationLedger)

end AdaptationLedger

/-- Deterministic outcome-to-directive policy engine. -/
structure AdaptivePipeline where
  rules : BTreeMap String AdaptationRule
  keyed : ∀ (id : String) (rule : AdaptationRule), rules[id]? = some rule → rule.id = id

/-- The directive for an outcome no rule is eligible for. -/
def fallback (outcome : VerificationOutcome) : PipelineDirective × String :=
  match outcome.status, outcome.stage with
  | .success, _ => (.complete, "verified objective completed")
  | .falsePositive, _ | .confirmedNegative, _ =>
    (.replan true, "negative conclusion suppresses the source action before replanning")
  | .unknown, .passive | .needsReview, .passive =>
    (.awaitActiveVerification, "passive evidence is inconclusive")
  | .blocked, _ | .unknown, _ | .needsReview, _ =>
    (.awaitHumanReview, "no eligible automated adaptation policy remains")

def validateOutcomeSnapshot (outcome : VerificationOutcome) (snapshot : KnowledgeSnapshot) :
    Except AdaptivePipelineError Unit := do
  if outcome.subject ≠ snapshot.subject then
    throw (.snapshotSubjectMismatch outcome.subject snapshot.subject)
  match outcome.evidenceIds.toList.find? fun id =>
      !(snapshot.evidence.map Evidence.id).contains id with
  | some evidenceId => throw (.missingOutcomeEvidence evidenceId)
  | none => return ()

namespace AdaptivePipeline

/-- The condition of a rule, evaluated only where the selector matches. -/
def evaluateCondition (snapshot : KnowledgeSnapshot) (selectorMatched : Bool)
    (rule : AdaptationRule) : Except AdaptivePipelineError (Option ExpressionTrace) :=
  if selectorMatched then
    rule.condition.mapM fun condition => (evaluateNode snapshot condition).mapError .rule
  else .ok none

variable (pipeline : AdaptivePipeline) (outcome : VerificationOutcome)

/-- One turn of the evaluation of the rules. -/
def evaluateAdaptationRule (snapshot : KnowledgeSnapshot)
    (ledger : AdaptationLedger) (limits : AdaptationLimits) (suppressedActions : BTreeSet String)
    (rule : AdaptationRule) : Except AdaptivePipelineError AdaptationRuleEvaluation := do
  let selectorMatched := rule.selector.admits outcome
  let condition ← evaluateCondition snapshot selectorMatched rule
  if condition.any fun trace => trace.matched && trace.evidenceIds.isEmpty then
    throw (.missingContributingEvidence rule.id)
  let conditionMatched := (condition.map ExpressionTrace.matched).getD rule.condition.isNone
  let outcomeEvidenceMatched := condition.all fun trace =>
    trace.evidenceIds.toList.any fun id => outcome.evidenceIds.contains id
  let ruleLimitExhausted := decide (rule.maxApplications ≤ countFor ledger.ruleApplications rule.id)
  let actionLimitExhausted := rule.directive.scheduledActionId.any fun actionId =>
    limits.maxActionSchedules ≤ countFor ledger.actionSchedules actionId
  let policySuppressed := (rule.directive.repeatedActionId outcome.actionId).any fun actionId =>
    suppressedActions.contains actionId || ledger.suppressedActions.contains actionId
  return { ruleId := rule.id, selectorMatched, condition, outcomeEvidenceMatched
           ruleLimitExhausted, actionLimitExhausted, policySuppressed
           eligible := selectorMatched && conditionMatched && outcomeEvidenceMatched &&
             !ruleLimitExhausted && !actionLimitExhausted && !policySuppressed
           selected := false }

/-- The order of the candidates: by priority, falling, then by identifier. -/
def compareCandidates : String → String → Ordering :=
  let priority := fun id => (pipeline.rules[id]?.map AdaptationRule.priority).getD 0
  compareLex (fun left right => compareOn priority right left) compare

/-- The eligible rule that comes first. -/
def selectRuleId (evaluations : List AdaptationRuleEvaluation) :
    Option String :=
  (((evaluations.filter fun evaluation => evaluation.eligible).map fun evaluation =>
    evaluation.ruleId).mergeSort fun left right =>
      (pipeline.compareCandidates left right).isLE).head?

/-- Marks the evaluation of the rule that was selected. -/
def markSelected (ruleId : String) : List AdaptationRuleEvaluation → List AdaptationRuleEvaluation
  | [] => []
  | evaluation :: rest =>
    if evaluation.ruleId = ruleId then { evaluation with selected := true } :: rest
    else evaluation :: markSelected ruleId rest

/-- A decision for an outcome, before a rule is chosen. -/
def decisionFor (ledger : AdaptationLedger)
    (selectedRuleId : Option String) (directive : PipelineDirective) (rationale : String)
    (evaluations : List AdaptationRuleEvaluation) (transitionLimitReached : Bool) :
    AdaptiveDecision where
  sequence := ledger.transitions
  subject := outcome.subject
  caseId := outcome.caseId
  sourceActionId := outcome.actionId
  outcomeStatus := outcome.status
  outcomeStage := outcome.stage
  selectedRuleId := selectedRuleId
  directive := directive
  rationale := rationale
  evaluations := evaluations
  transitionLimitReached := transitionLimitReached

/-- Produces a pure decision while excluding actions suppressed by external policy. -/
def decideWithSuppressedActions (snapshot : KnowledgeSnapshot) (ledger : AdaptationLedger)
    (limits : AdaptationLimits)
    (suppressedActions : BTreeSet String) : Except AdaptivePipelineError AdaptiveDecision := do
  validateOutcomeSnapshot outcome snapshot
  if limits.maxTransitions ≤ ledger.transitions then
    return decisionFor outcome ledger none .halt "adaptive transition budget exhausted" [] true
  let evaluations ← pipeline.rules.toList.mapM fun entry =>
    evaluateAdaptationRule outcome snapshot ledger limits suppressedActions entry.2
  let selected := pipeline.selectRuleId evaluations
  let marked := (selected.map fun ruleId => markSelected ruleId evaluations).getD evaluations
  let chosen := (selected.bind fun ruleId => pipeline.rules[ruleId]?.map fun rule =>
    (rule.directive, rule.rationale)).getD (fallback outcome)
  return decisionFor outcome ledger selected chosen.1 chosen.2 marked false

/-- Produces and records a decision with explicit policy suppressions. -/
def decideAndRecordWithSuppressedActions (snapshot : KnowledgeSnapshot) (limits : AdaptationLimits)
    (suppressedActions : BTreeSet String) :
    Command AdaptationLedger AdaptivePipelineError AdaptiveDecision := do
  let ledger ← get
  let decision ← pipeline.decideWithSuppressedActions outcome snapshot ledger limits
    suppressedActions
  AdaptationLedger.record decision
  return decision

end AdaptivePipeline

end Termivar
