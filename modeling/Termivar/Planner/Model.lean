/-
# Actions and plans

`termivar-scanner/src/planner/{model,scoring}.rs` and `evaluate_candidate` of
`selection.rs`: actions with a condition, a hypothesis that gives them
confidence, costs and prerequisites, the utility of an action, and what makes
an action eligible. The wire form is left out.
-/
import Termivar.Rules.Expression
import Termivar.Verification.Case

namespace Termivar

/-! ### Scores -/

def maxBasisPoints : Nat := 10000

/-- Normalized gain or business-value score in basis points. -/
structure BenefitScore where
  basisPoints : Nat
  inRange : basisPoints ≤ maxBasisPoints

/-- Normalized operational risk in non-zero basis points. -/
structure RiskScore where
  basisPoints : Nat
  positive : 0 < basisPoints
  inRange : basisPoints ≤ maxBasisPoints

/-- Positive estimated execution cost in planner-defined units. -/
structure ActionCost where
  units : Nat
  positive : 0 < units
  bounded : units ≤ u32Max

/-- Explainable inputs and result of one utility calculation. -/
structure UtilityBreakdown where
  gain : BenefitScore
  confidence : Probability
  businessValue : BenefitScore
  cost : ActionCost
  risk : RiskScore
  score : Nat

/-- The utility, rounded half up. -/
def UtilityBreakdown.calculate (gain : BenefitScore) (confidence : Probability)
    (businessValue : BenefitScore) (cost : ActionCost) (risk : RiskScore) : UtilityBreakdown :=
  let numerator := gain.basisPoints * confidence.partsPerMillion * businessValue.basisPoints
  let denominator := cost.units * risk.basisPoints
  { gain, confidence, businessValue, cost, risk
    score := (numerator + denominator / 2) / denominator }

/-! ### Actions -/

/-- Required qualitative strength for an action's confidence source. -/
inductive RequiredStrength where
  | any
  | strong
  deriving DecidableEq

/-- Selects the Bayesian hypothesis that supplies action confidence. -/
structure HypothesisSelector where
  predicate : KnowledgePredicate
  value : EvidenceValue
  minimumPosterior : Probability
  requiredStrength : RequiredStrength

namespace HypothesisSelector

def admits (selector : HypothesisSelector) (hypothesis : Hypothesis) : Bool :=
  hypothesis.predicate = selector.predicate && hypothesis.value = selector.value &&
    (hypothesis.state = .supported || hypothesis.state = .confirmed) &&
    selector.minimumPosterior.partsPerMillion ≤ hypothesis.belief.posterior.partsPerMillion &&
    (selector.requiredStrength = .any || hypothesis.strength = .strong)

/-- The first of the admitted hypotheses with the greatest posterior. -/
def select (selector : HypothesisSelector) (hypotheses : List Hypothesis) : Option Hypothesis :=
  (hypotheses.filter selector.admits).foldl (fun selected hypothesis =>
    if selected.all fun current =>
        current.belief.posterior.partsPerMillion < hypothesis.belief.posterior.partsPerMillion then
      some hypothesis
    else selected) none

end HypothesisSelector

/-- What a conclusive outcome may transition. -/
inductive VerificationTarget where
  | motivation
  | distinct (selector : HypothesisSelector)
  | knowledgeOnly

/-- Plan-time resolution of the claim an action outcome may transition. -/
inductive ResolvedVerificationTarget where
  | hypothesis (id : String)
  | knowledgeOnly

def VerificationTarget.resolve (target : VerificationTarget) (hypotheses : List Hypothesis)
    (motivationHypothesisId : String) : Option ResolvedVerificationTarget :=
  match target with
  | .motivation => some (.hypothesis motivationHypothesisId)
  | .distinct selector =>
    ((selector.select hypotheses).filter fun hypothesis =>
      hypothesis.id ≠ motivationHypothesisId).map fun hypothesis => .hypothesis hypothesis.id
  | .knowledgeOnly => some .knowledgeOnly

/-- Errors of the planner. -/
inductive PlannerError where
  | emptyValue (field : String)
  | benefitOutOfRange (value : Nat)
  | riskOutOfRange (value : Nat)
  | zeroCost
  | selfDependency (actionId : String)
  | unknownPrerequisite (actionId prerequisite : String)
  | dependencyCycle (actionId : String)
  | actionIdentityConflict (id : String)
  | incompleteDecision (actionId : String)
  | rule (failure : RuleEngineError)
  deriving DecidableEq

/-- Declarative executable candidate considered by the planner. -/
structure AttackAction where
  (id executor : String)
  payloadStrategy : Option PayloadStrategyRef
  requirements : Expression
  confidenceSource : HypothesisSelector
  gain : BenefitScore
  cost : ActionCost
  risk : RiskScore
  prerequisites : BTreeSet String
  verificationTarget : VerificationTarget
  idNotBlank : isBlank id = false
  executorNotBlank : isBlank executor = false
  prerequisitesValid : ∀ prerequisite ∈ prerequisites,
    isBlank prerequisite = false ∧ prerequisite ≠ id

/-- Inputs shared by every candidate in one planning cycle. -/
structure PlanningContext where
  businessValue : BenefitScore
  budget : Nat
  maximumRisk : RiskScore
  minimumUtility : Nat
  bounded : budget ≤ u64Max

/-- Reason a registered action was not selected. -/
inductive ExclusionReason where
  | policySuppressed
  | defenseSuppressed
  | requirementsNotMet
  | noEligibleHypothesis
  | noEligibleVerificationTarget
  | riskLimitExceeded (actual maximum : RiskScore)
  | belowMinimumUtility (actual minimum : Nat)
  | dependencyUnavailable (prerequisite : String)
  | budgetExceeded (required remaining : Nat)

structure ExcludedAction where
  actionId : String
  reason : ExclusionReason

structure EligibleCandidate where
  action : AttackAction
  confidenceHypothesisId : String
  verificationTarget : ResolvedVerificationTarget
  requirements : ExpressionTrace
  utility : UtilityBreakdown

/-- One action of a plan. -/
structure PlanStep where
  position : Nat
  (actionId executor : String)
  payloadStrategy : Option PayloadStrategyRef
  prerequisites : BTreeSet String
  confidenceHypothesisId : String
  verificationTarget : ResolvedVerificationTarget
  requirements : ExpressionTrace
  utility : UtilityBreakdown

/-- Immutable output of one deterministic planning cycle. -/
structure AttackPlan where
  subject : EntityId
  context : PlanningContext
  totalCost : Nat
  steps : List PlanStep
  excluded : List ExcludedAction

/-! ### Candidates -/

def evaluateCandidate (action : AttackAction) (snapshot : KnowledgeSnapshot)
    (context : PlanningContext) (suppression : Option ExclusionReason) :
    Except PlannerError (Except ExclusionReason EligibleCandidate) :=
  match suppression with
  | some reason => return .error reason
  | none => do
    let requirements ← (evaluateNode snapshot action.requirements).mapError .rule
    if !requirements.matched then return .error .requirementsNotMet
    if context.maximumRisk.basisPoints < action.risk.basisPoints then
      return .error (.riskLimitExceeded action.risk context.maximumRisk)
    match action.confidenceSource.select snapshot.hypotheses with
    | none => return .error .noEligibleHypothesis
    | some hypothesis =>
      match action.verificationTarget.resolve snapshot.hypotheses hypothesis.id with
      | none => return .error .noEligibleVerificationTarget
      | some verificationTarget =>
        let utility := UtilityBreakdown.calculate action.gain hypothesis.belief.posterior
          context.businessValue action.cost action.risk
        if utility.score < context.minimumUtility then
          return .error (.belowMinimumUtility utility.score context.minimumUtility)
        return .ok { action, confidenceHypothesisId := hypothesis.id, verificationTarget
                     requirements, utility }

def planStep (position : Nat) (candidate : EligibleCandidate) : PlanStep where
  position := position
  actionId := candidate.action.id
  executor := candidate.action.executor
  payloadStrategy := candidate.action.payloadStrategy
  prerequisites := candidate.action.prerequisites
  confidenceHypothesisId := candidate.confidenceHypothesisId
  verificationTarget := candidate.verificationTarget
  requirements := candidate.requirements
  utility := candidate.utility

end Termivar
