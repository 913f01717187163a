/-
# The rule engine

`termivar-scanner/src/rules/evaluation.rs` and `engine.rs`: a rule whose
condition matches materializes one hypothesis from the evidence its condition
rests on, and `apply` evaluates every rule against one snapshot and commits the
hypotheses in one transaction. The readings of the clock are parameters of a
call, as are the calls of other parties that come between the snapshot of an
attempt and its commit (`apply_with_before_commit`).
-/
import Termivar.Rules.Registry

namespace Termivar

/-! ### Materialization -/

variable (rule : ReasoningRule) (ruleId : String) (calibration : EvidenceCalibration)
  (evidenceIds : BTreeSet EvidenceId)

/-- `hypothesis_id_for_rule`. -/
def hypothesisIdForRule (subject : EntityId) : String :=
  "rule:" ++ toString ruleId.utf8ByteSize ++ ":" ++ ruleId ++ ":" ++ subject.value

/-- The order of contributions: by reliability and by time, both falling, then
by identifier. -/
def compareContributions (left right : Evidence) : Ordering :=
  ((compare right.reliability.basisPoints left.reliability.basisPoints).then
    (compare right.observedAtMs left.observedAtMs)).then (compare left.id right.id)

variable (snapshot : KnowledgeSnapshot)

/-- The evidence that contributes to a calibration. -/
def contributions : List Evidence :=
  let hits := snapshot.evidence.filter fun evidence =>
    evidenceIds.contains evidence.id && calibration.selector.matchesEvidence evidence
  match calibration.aggregation.limit with
  | none => hits
  | some limit => (hits.mergeSort fun left right => (compareContributions left right).isLE).take limit

/-- The likelihoods of a calibration for one record. -/
def EvidenceCalibration.observation (evidence : Evidence) :
    BayesianEvidence where
  evidenceId := evidence.id
  likelihoodIfTrue := calibration.likelihoodIfTrue
  likelihoodIfFalse := calibration.likelihoodIfFalse
  rationale := calibration.rationale
  rationaleNotBlank := calibration.rationaleNotBlank

/-- One contribution joins the observations, unless another calibration gave
the record other likelihoods. -/
def bindObservation (observations : BTreeMap EvidenceId BayesianEvidence) (evidence : Evidence) :
    Except RuleEngineError (BTreeMap EvidenceId BayesianEvidence) :=
  match observations[evidence.id]? with
  | some existing =>
    if existing ≠ calibration.observation evidence then
      .error (.ambiguousEvidenceCalibration ruleId evidence.id)
    else .ok observations
  | none => .ok (observations.insert evidence.id (calibration.observation evidence))

/-- The observations of every calibration, by evidence. -/
def collectObservations :
    Except RuleEngineError (BTreeMap EvidenceId BayesianEvidence) :=
  rule.conclusion.calibrations.foldlM (fun observations calibration =>
    (contributions calibration evidenceIds snapshot).foldlM (bindObservation rule.id calibration)
      observations) ∅

/-- `observe` on a belief of one's own; it does not unwind. -/
def observed (belief : BayesianBelief) (observation : BayesianEvidence) :
    Except RuleEngineError BayesianBelief :=
  match observe observation belief with
  | .ok _ after => .ok after
  | .error failure _ => .error (.reasoning failure)
  | .panic => .ok belief

/-- The belief a rule concludes. -/
def materializeBelief : Except RuleEngineError BayesianBelief := do
  let observations ← collectObservations rule evidenceIds snapshot
  if observations.isEmpty then throw (.missingCalibratedEvidence rule.id)
  observations.toList.foldlM (fun belief entry => observed belief entry.2)
    (.new rule.conclusion.prior)

theorem hypothesisIdForRule_notBlank (subject : EntityId) :
    isBlank (hypothesisIdForRule ruleId subject) = false := by
  have hpre : "rule:".toList.all isWhitespace = false := by decide
  unfold isBlank hypothesisIdForRule
  simp only [String.toList_append, List.all_append, hpre, Bool.false_and]

/-- The hypothesis of a matched rule, with the last reading of the clock. -/
def materializeHypothesis (condition : ExpressionTrace) (now : Nat) : Except RuleEngineError Hypothesis := do
  let belief ← materializeBelief rule condition.evidenceIds snapshot
  return { id := hypothesisIdForRule rule.id snapshot.subject
           subject := snapshot.subject
           predicate := rule.conclusion.predicate
           value := rule.conclusion.value
           belief
           strength := rule.conclusion.strength
           state := rule.conclusion.state
           updatedAtMs := now
           idNotBlank := hypothesisIdForRule_notBlank rule.id snapshot.subject }

/-- Pure result of evaluating one rule against one snapshot. -/
structure RuleEvaluation where
  ruleId : String
  condition : ExpressionTrace
  hypothesis : Option Hypothesis

def evaluateRule (now : Nat) :
    Except RuleEngineError RuleEvaluation := do
  let condition ← evaluateNode snapshot rule.condition
  let hypothesis ←
    if condition.matched then some <$> materializeHypothesis rule snapshot condition now
    else pure none
  return { ruleId := rule.id, condition, hypothesis }

/-! ### The engine -/

/-- Deterministic registry and evaluator for declarative reasoning rules. -/
structure RuleEngine where
  rules : BTreeMap String ReasoningRule

/-- Result of evaluating one rule and committing its conclusion in a batch. -/
structure RuleApplication where
  evaluation : RuleEvaluation
  write : Option KnowledgeWrite

/-- The readings of the clock met by one call of `apply`, by attempt: when a
rule's hypothesis is materialized, and in the turns of the commit. -/
structure ApplyClock where
  materialize : Nat → String → Nat
  commit : Nat → Nat → Nat

def maxStaleSnapshotRetries : Nat := 3

def maxReasoningApplyAttempts : Nat := maxStaleSnapshotRetries + 1

/-- The evaluations with the writes of their hypotheses. The sources expect a
write for each hypothesis. -/
def alignWrites : List RuleEvaluation → List KnowledgeWrite → Option (List RuleApplication)
  | [], _ => some []
  | evaluation :: rest, writes =>
    match evaluation.hypothesis, writes with
    | none, writes => (alignWrites rest writes).map (⟨evaluation, none⟩ :: ·)
    | some _, write :: writes => (alignWrites rest writes).map (⟨evaluation, some write⟩ :: ·)
    | some _, [] => none

/-- The calls other parties make, whatever they return. -/
def interleave (authority : KnowledgeAuthority) : List KnowledgeOp → KnowledgeCommand RuleEngineError Unit
  | [] => return ()
  | op :: ops => do
    let _ ← Command.attempt (op.exec authority)
    interleave authority ops

namespace RuleEngine

variable (engine : RuleEngine)

/-- Evaluates all rules against one immutable snapshot. -/
def evaluateSnapshot (now : String → Nat) (snapshot : KnowledgeSnapshot) :
    Except RuleEngineError (List RuleEvaluation) :=
  engine.rules.toList.mapM fun entry => evaluateRule entry.2 snapshot (now entry.2.id)

/-- The attempts of `apply_with_before_commit`, from the given one on. -/
def applyAttempts (authority : KnowledgeAuthority) (subject : EntityId) (clock : ApplyClock)
    (between : Nat → List KnowledgeOp) :
    (remaining attempt : Nat) → KnowledgeCommand RuleEngineError (List RuleApplication)
  | 0, _ => Command.unwind
  | remaining + 1, attempt => do
    let state ← get
    let snapshot := state.snapshotForSubject authority subject
    let evaluations ← engine.evaluateSnapshot (clock.materialize attempt) snapshot
    let hypotheses := evaluations.filterMap RuleEvaluation.hypothesis
    interleave authority (between attempt)
    match ← Command.attempt (upsertReasoningHypothesisBatch authority snapshot hypotheses
        (clock.commit attempt)) with
    | .ok writes =>
      match alignWrites evaluations writes with
      | some applications => return applications
      | none => Command.unwind
    | .error (.staleSnapshot ..) =>
      if attempt < maxReasoningApplyAttempts then
        applyAttempts authority subject clock between remaining (attempt + 1)
      else throw (.staleSnapshotRetriesExhausted attempt)
    | .error failure => throw (.knowledge failure)

/-- `apply` with the calls of other parties between the snapshot of each
attempt and its commit. -/
def applyWithBeforeCommit (authority : KnowledgeAuthority) (subject : EntityId) (clock : ApplyClock)
    (between : Nat → List KnowledgeOp) : KnowledgeCommand RuleEngineError (List RuleApplication) :=
  engine.applyAttempts authority subject clock between maxReasoningApplyAttempts 1

/-- Evaluates one decision cycle and atomically writes matched hypotheses. -/
def apply (authority : KnowledgeAuthority) (subject : EntityId) (clock : ApplyClock) :
    KnowledgeCommand RuleEngineError (List RuleApplication) :=
  engine.applyWithBeforeCommit authority subject clock fun _ => []

end RuleEngine

end Termivar
