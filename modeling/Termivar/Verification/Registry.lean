/-
# Verifiers

`termivar-scanner/src/verification.rs` and `termivar-core/src/outcome.rs`: the
rules of a verifier, each a condition with the outcome it stands for, the
evaluation of a registry of rules against a snapshot, and the passive and the
active verifier. The wire form of a rule is left out.
-/
import Termivar.Reasoning.Posterior
import Termivar.Rules.Expression
import Termivar.Verification.Case

namespace Termivar

/-! ### Outcomes -/

/-- Evidence collection stage that produced a verification outcome. -/
inductive VerificationStage where
  | passive
  | active
  deriving DecidableEq

def VerificationStage.asStr : VerificationStage → String
  | .passive => "passive"
  | .active => "active"

/-- Final classification emitted by a verifier. -/
inductive OutcomeStatus where
  | success
  | blocked
  | unknown
  | falsePositive
  | needsReview
  | confirmedNegative
  deriving DecidableEq

namespace OutcomeStatus

end OutcomeStatus

/-- Validation errors for verification outcome contracts. -/
inductive OutcomeError where
  | emptyValue (field : String)
  | invalidUnknown
  | confirmedNegativeRequiresActive
  | missingEvidence (status : OutcomeStatus)
  | zeroConfidence (status : OutcomeStatus)
  deriving DecidableEq

/-- `Outcome`: the evidence-backed result of evaluating one planned action. -/
structure VerificationOutcome where
  caseId : String
  subject : EntityId
  (actionId hypothesisId : String)
  verifierRuleId : Option String
  stage : VerificationStage
  status : OutcomeStatus
  confidence : Probability
  rationale : String
  evidenceIds : BTreeSet EvidenceId
  deriving DecidableEq

namespace VerificationOutcome

/-- `non_empty` of the outcome contracts. -/
def requireText (value field : String) : Except OutcomeError String :=
  if isBlank value then .error (.emptyValue field) else .ok value

/-- An evidence-backed non-unknown outcome. -/
def verified (caseId : String) (subject : EntityId) (actionId hypothesisId verifierRuleId : String)
    (stage : VerificationStage) (status : OutcomeStatus) (confidence : Probability)
    (rationale : String) (evidenceIds : BTreeSet EvidenceId) :
    Except OutcomeError VerificationOutcome := do
  if status = .unknown then throw .invalidUnknown
  if status = .confirmedNegative ∧ stage ≠ .active then throw .confirmedNegativeRequiresActive
  if evidenceIds.isEmpty then throw (.missingEvidence status)
  if confidence = .zero then throw (.zeroConfidence status)
  let caseId ← requireText caseId "verification case id"
  let actionId ← requireText actionId "verification action id"
  let hypothesisId ← requireText hypothesisId "verification hypothesis id"
  let verifierRuleId ← requireText verifierRuleId "verifier rule id"
  let rationale ← requireText rationale "verification rationale"
  return { caseId, subject, actionId, hypothesisId, verifierRuleId := some verifierRuleId, stage
           status, confidence, rationale, evidenceIds }

/-- The canonical fallback used when no verifier rule is eligible. -/
def unknown (caseId : String) (subject : EntityId) (actionId hypothesisId : String)
    (stage : VerificationStage) (rationale : String) : Except OutcomeError VerificationOutcome := do
  let caseId ← requireText caseId "verification case id"
  let actionId ← requireText actionId "verification action id"
  let hypothesisId ← requireText hypothesisId "verification hypothesis id"
  let rationale ← requireText rationale "verification rationale"
  return { caseId, subject, actionId, hypothesisId, verifierRuleId := none, stage
           status := .unknown, confidence := .zero, rationale, evidenceIds := ∅ }

end VerificationOutcome

/-! ### Rules -/

/-- Validation and evaluation errors raised by verification components. -/
inductive VerificationError where
  | emptyValue (field : String)
  | reservedUnknownStatus (ruleId : String)
  | zeroConfidence (ruleId : String)
  | confirmedNegativeRequiresActive (ruleId : String)
  | caseCorrelationRequiresEvidenceOnly (ruleId : String)
  | wrongStage (ruleId : String) (expected actual : VerificationStage)
  | ruleIdentityConflict (id : String)
  | snapshotSubjectMismatch (expected actual : EntityId)
  | unknownHypothesis (hypothesisId : String)
  | missingContributingEvidence (ruleId : String)
  | nonMonotonicSnapshot (evidenceId : EvidenceId)
  | unknownEvidence (evidenceId : EvidenceId)
  | evidenceSubjectMismatch (evidenceId : EvidenceId) (subject : EntityId)
  | conflictingTerminalState (hypothesisId : String) (current attempted : HypothesisState)
  | rule (failure : RuleEngineError)
  | outcome (failure : OutcomeError)
  | knowledge (failure : KnowledgeBaseError)
  deriving DecidableEq

/-- Declarative evidence expression mapped to one non-unknown outcome. -/
structure VerificationRule where
  id : String
  stage : VerificationStage
  priority : Nat
  condition : Expression
  outcome : OutcomeStatus
  confidence : Probability
  rationale : String
  actionId : Option String
  caseCorrelatedEvidence : Bool
  idNotBlank : isBlank id = false
  conclusive : outcome ≠ .unknown
  negativeActive : outcome = .confirmedNegative → stage = .active
  confident : confidence ≠ .zero
  rationaleNotBlank : isBlank rationale = false
  actionIdNotBlank : actionId.all (!isBlank ·) = true
  correlationOnEvidence : caseCorrelatedEvidence = true → condition.usesOnlyEvidence = true

namespace VerificationRule

/-- `VerificationRule::new`. -/
def new (id : String) (stage : VerificationStage) (priority : Nat) (condition : Expression)
    (outcome : OutcomeStatus) (confidence : Probability) (rationale : String) :
    Except VerificationError VerificationRule :=
  if idNotBlank : isBlank id = false then
    if conclusive : outcome ≠ .unknown then
      if negativeActive : outcome = .confirmedNegative → stage = .active then
        if confident : confidence ≠ .zero then
          if rationaleNotBlank : isBlank rationale = false then
            .ok { id, stage, priority, condition, outcome, confidence, rationale
                  actionId := none, caseCorrelatedEvidence := false, idNotBlank, conclusive
                  negativeActive, confident, rationaleNotBlank
                  actionIdNotBlank := .refl true, correlationOnEvidence := nofun }
          else .error (.emptyValue "verification rule rationale")
        else .error (.zeroConfidence id)
      else .error (.confirmedNegativeRequiresActive id)
    else .error (.reservedUnknownStatus id)
  else .error (.emptyValue "verification rule id")

/-- Restricts this rule to verification cases opened by one action. -/
def scopedToAction (rule : VerificationRule) (actionId : String) :
    Except VerificationError VerificationRule :=
  if h : isBlank actionId = false then
    .ok { rule with actionId := some actionId, actionIdNotBlank := by simp [h] }
  else .error (.emptyValue "verification rule action id")

/-- Restricts raw evidence evaluation to the current case correlation. -/
def withCaseCorrelatedEvidence (rule : VerificationRule) :
    Except VerificationError VerificationRule :=
  if h : rule.condition.usesOnlyEvidence = true then
    .ok { rule with caseCorrelatedEvidence := true, correlationOnEvidence := fun _ => h }
  else .error (.caseCorrelationRequiresEvidenceOnly rule.id)

end VerificationRule

/-- The rules of one stage by their identifiers. -/
structure RuleRegistry where
  stage : VerificationStage
  rules : BTreeMap String VerificationRule
  keyed : ∀ (id : String) (rule : VerificationRule), rules[id]? = some rule →
    rule.id = id ∧ rule.stage = stage

namespace RuleRegistry

end RuleRegistry

/-! ### Evaluation -/

/-- The snapshot with the evidence of one correlation only. -/
def KnowledgeSnapshot.withEvidenceCorrelation (snapshot : KnowledgeSnapshot) (correlationId : String) :
    KnowledgeSnapshot :=
  { snapshot with
    evidence := snapshot.evidence.filter fun evidence =>
      evidence.source.correlationId = some correlationId }

/-- Explainable evaluation of one verifier rule. -/
structure VerificationRuleEvaluation where
  ruleId : String
  stage : VerificationStage
  priority : Nat
  condition : ExpressionTrace
  freshEvidenceIds : BTreeSet EvidenceId
  (actionMatched eligible selected : Bool)

/-- The revisions and the knowledge base a report was made from. -/
structure VerificationCommitToken where
  authority : KnowledgeAuthority
  (subjectRevision ontologyRevision : Nat)

/-- Outcome and audit trail for one verification stage. -/
structure VerificationReport where
  case : VerificationCase
  stage : VerificationStage
  outcome : VerificationOutcome
  evaluations : List VerificationRuleEvaluation
  commitToken : VerificationCommitToken

variable (registry : RuleRegistry) (case : VerificationCase)
  (evaluations : List VerificationRuleEvaluation)

def validateSnapshot (snapshot : KnowledgeSnapshot) :
    Except VerificationError Unit :=
  if snapshot.subject ≠ case.subject then
    .error (.snapshotSubjectMismatch case.subject snapshot.subject)
  else if !snapshot.hypotheses.any (·.id = case.hypothesisId) then
    .error (.unknownHypothesis case.hypothesisId)
  else .ok ()

def validateMonotonic (baseline afterProbe : KnowledgeSnapshot) : Except VerificationError Unit :=
  if baseline.authority ≠ afterProbe.authority then
    .error (.knowledge (.snapshotAuthorityMismatch afterProbe.subject))
  else
    match baseline.evidence.find? fun evidence => !afterProbe.evidence.any (·.id = evidence.id) with
    | some evidence => .error (.nonMonotonicSnapshot evidence.id)
    | none => .ok ()

/-- The snapshot a rule reads: the whole, or the evidence of the case. -/
def VerificationRule.scopedSnapshot (rule : VerificationRule) (case : VerificationCase)
    (snapshot : KnowledgeSnapshot) : KnowledgeSnapshot :=
  if rule.caseCorrelatedEvidence then snapshot.withEvidenceCorrelation case.id else snapshot

/-- Whether a rule is unscoped or scoped to the action of the case. -/
def VerificationRule.inScope (rule : VerificationRule) (case : VerificationCase) : Bool :=
  rule.actionId.all (· = case.actionId)

/-- One turn of the evaluation of a registry. The condition is evaluated, and
fails, whatever the action of the rule. -/
def evaluateVerificationRule (stage : VerificationStage) (case : VerificationCase)
    (snapshot : KnowledgeSnapshot) (baselineIds : BTreeSet EvidenceId) (rule : VerificationRule) :
    Except VerificationError VerificationRuleEvaluation := do
  let condition ← (evaluateNode (rule.scopedSnapshot case snapshot) rule.condition).mapError .rule
  if condition.matched && condition.evidenceIds.isEmpty then
    throw (.missingContributingEvidence rule.id)
  let freshEvidenceIds := condition.evidenceIds.filter fun id => !baselineIds.contains id
  let actionMatched := rule.inScope case
  return { ruleId := rule.id, stage := rule.stage, priority := rule.priority, condition
           freshEvidenceIds, actionMatched
           eligible := actionMatched && condition.matched &&
             (stage = .passive || !freshEvidenceIds.isEmpty)
           selected := false }

/-- The order of the candidates: by priority and by confidence, both falling,
then by identifier. -/
def compareCandidates : VerificationRule → VerificationRule → Ordering :=
  compareLex (fun left right => compareOn VerificationRule.priority right left)
    (compareLex (fun left right => compareOn (fun rule => rule.confidence.partsPerMillion) right left)
      (compareOn VerificationRule.id))

/-- The eligible rule that comes first. -/
def selectRule :
    Option VerificationRule :=
  let candidates := (evaluations.filter (·.eligible)).filterMap fun evaluation =>
    registry.rules[evaluation.ruleId]?
  (candidates.mergeSort fun left right => (compareCandidates left right).isLE).head?

/-- The evidence an evaluated rule rests on. -/
def citedEvidence (ruleId : String) :
    BTreeSet EvidenceId :=
  ((evaluations.find? fun evaluation => evaluation.ruleId = ruleId).map fun evaluation =>
    evaluation.condition.evidenceIds).getD ∅

/-- The outcome of a stage. -/
def concludeOutcome : Except OutcomeError VerificationOutcome :=
  match selectRule registry evaluations with
  | some rule =>
    VerificationOutcome.verified case.id case.subject case.actionId case.hypothesisId rule.id
      registry.stage rule.outcome rule.confidence rule.rationale (citedEvidence evaluations rule.id)
  | none =>
    VerificationOutcome.unknown case.id case.subject case.actionId case.hypothesisId registry.stage
      ("no eligible " ++ registry.stage.asStr ++ " verification rule matched current evidence")

def baselineEvidenceIds (baseline : Option KnowledgeSnapshot) : BTreeSet EvidenceId :=
  (baseline.map fun snapshot => .ofList (snapshot.evidence.map Evidence.id)).getD ∅

def evaluateRegistry (snapshot : KnowledgeSnapshot) (baseline : Option KnowledgeSnapshot) :
    Except VerificationError VerificationReport := do
  validateSnapshot case snapshot
  let evaluations ← registry.rules.toList.mapM fun entry =>
    evaluateVerificationRule registry.stage case snapshot (baselineEvidenceIds baseline) entry.2
  let outcome ← (concludeOutcome registry case evaluations).mapError .outcome
  let selectedId := (selectRule registry evaluations).map VerificationRule.id
  return { case
           stage := registry.stage
           outcome
           evaluations := evaluations.map fun evaluation =>
             { evaluation with selected := selectedId = some evaluation.ruleId }
           commitToken :=
             { authority := snapshot.authority
               subjectRevision := snapshot.subjectRevision
               ontologyRevision := snapshot.ontologyRevision } }

/-- The registry of a passive verifier. -/
structure PassiveVerifier where
  registry : RuleRegistry
  stage : registry.stage = .passive

/-- The registry of an active verifier. -/
structure ActiveVerifier where
  registry : RuleRegistry
  stage : registry.stage = .active

/-- Verifies a case against an explicit immutable snapshot. -/
def PassiveVerifier.verifySnapshot (verifier : PassiveVerifier) (case : VerificationCase)
    (snapshot : KnowledgeSnapshot) : Except VerificationError VerificationReport :=
  evaluateRegistry verifier.registry case snapshot none

/-- Verifies a case using a baseline and a post-probe snapshot. -/
def ActiveVerifier.verifySnapshots (verifier : ActiveVerifier) (case : VerificationCase)
    (baseline afterProbe : KnowledgeSnapshot) : Except VerificationError VerificationReport := do
  validateSnapshot case baseline
  validateMonotonic baseline afterProbe
  evaluateRegistry verifier.registry case afterProbe (some baseline)

end Termivar
