/-
# Reasoning rules

`termivar-scanner/src/rules/registry.rs`: the selector of the evidence a
calibration counts, the likelihoods and the cap on contributions of a
calibration, the conclusion of a rule and the rule. Each type carries what its
constructors and its decoder both check.
-/
import Termivar.Rules.Expression

namespace Termivar

/-! ### Selectors -/

/-- The number of constraints a selector has. -/
def matcherCount (value : Option EvidenceValue) (needle listValue : Option String) : Nat :=
  value.isSome.toNat + needle.isSome.toNat + listValue.isSome.toNat

/-- Selects raw evidence for one Bayesian calibration. The guard stands on the
wire of a selector with a constraint. -/
structure EvidenceSelector where
  predicate : KnowledgePredicate
  value : Option EvidenceValue
  (textContainsAsciiCaseInsensitive textListContainsExact : Option String)
  matcherPolicyGuard : Bool
  single : matcherCount value textContainsAsciiCaseInsensitive textListContainsExact ≤ 1
  guarded : matcherPolicyGuard =
    decide (matcherCount value textContainsAsciiCaseInsensitive textListContainsExact = 1)
  needleNotBlank : textContainsAsciiCaseInsensitive.all (!isBlank ·) = true
  listValueNotBlank : textListContainsExact.all (!isBlank ·) = true

namespace EvidenceSelector

/-- Selects evidence with an exact predicate and value. -/
def equals (predicate : KnowledgePredicate) (value : EvidenceValue) : EvidenceSelector where
  predicate := predicate
  value := some value
  textContainsAsciiCaseInsensitive := none
  textListContainsExact := none
  matcherPolicyGuard := true
  single := Nat.le_refl 1
  guarded := rfl
  needleNotBlank := rfl
  listValueNotBlank := rfl

/-- `EvidenceSelector::matches`. -/
def matchesEvidence (selector : EvidenceSelector) (evidence : Evidence) : Bool :=
  evidence.predicate = selector.predicate &&
    (selector.value.all fun expected => evidence.value = expected) &&
    (selector.textContainsAsciiCaseInsensitive.all fun needle =>
      (evidenceValueTexts evidence.value).any fun text => textContains text needle true) &&
    selector.textListContainsExact.all fun value =>
      Termivar.textListContainsExact evidence.value value

end EvidenceSelector

/-! ### Calibrations -/

/-- How matching observations contribute to one Bayesian calibration. -/
inductive EvidenceAggregation where
  | independent
  | maxContributions (limit : Nat) (positive : 0 < limit) (bounded : limit ≤ u32Max)

namespace EvidenceAggregation

def limit : EvidenceAggregation → Option Nat
  | .independent => none
  | .maxContributions limit _ _ => some limit

def isIndependent : EvidenceAggregation → Bool
  | .independent => true
  | .maxContributions _ _ _ => false

end EvidenceAggregation

/-- Bayesian likelihoods assigned to evidence selected by a rule. The guard
stands on the wire of a bounded calibration. -/
structure EvidenceCalibration where
  selector : EvidenceSelector
  (likelihoodIfTrue likelihoodIfFalse : Probability)
  rationale : String
  aggregation : EvidenceAggregation
  aggregationPolicyGuard : Bool
  rationaleNotBlank : isBlank rationale = false
  guarded : aggregationPolicyGuard = !aggregation.isIndependent

namespace EvidenceCalibration

def new (selector : EvidenceSelector) (likelihoodIfTrue likelihoodIfFalse : Probability)
    (rationale : String) : Except RuleEngineError EvidenceCalibration := do
  let rationale ← nonEmpty rationale "evidence calibration rationale"
  return { selector, likelihoodIfTrue, likelihoodIfFalse
           rationale := rationale.1
           aggregation := .independent
           aggregationPolicyGuard := false
           rationaleNotBlank := rationale.2
           guarded := rfl }

/-- Applies an explicit contribution policy to this calibration. -/
def withAggregation (calibration : EvidenceCalibration) (aggregation : EvidenceAggregation) :
    EvidenceCalibration :=
  { calibration with
    aggregation
    aggregationPolicyGuard := !aggregation.isIndependent
    guarded := rfl }

end EvidenceCalibration

/-! ### Rules -/

/-- Data needed to materialize one Bayesian hypothesis after a rule matches. -/
structure HypothesisConclusion where
  predicate : KnowledgePredicate
  value : EvidenceValue
  prior : Probability
  strength : HypothesisStrength
  state : HypothesisState
  calibrations : List EvidenceCalibration
  calibrated : calibrations ≠ []
  stateOpen : isTerminalHypothesisState state = false

def HypothesisConclusion.new (predicate : KnowledgePredicate) (value : EvidenceValue)
    (prior : Probability) (strength : HypothesisStrength) (state : HypothesisState)
    (calibrations : List EvidenceCalibration) : Except RuleEngineError HypothesisConclusion :=
  if calibrated : calibrations ≠ [] then
    if stateOpen : isTerminalHypothesisState state = false then
      .ok { predicate, value, prior, strength, state, calibrations, calibrated, stateOpen }
    else .error (.verifierOnlyState state)
  else .error .emptyCalibrations

/-- Stable declarative rule from an expression to a Bayesian conclusion. -/
structure ReasoningRule where
  id : String
  condition : Expression
  conclusion : HypothesisConclusion
  idNotBlank : isBlank id = false
  conditionWellFormed : condition.wellFormed = true

def ReasoningRule.new (id : String) (condition : { e : Expression // e.wellFormed = true })
    (conclusion : HypothesisConclusion) : Except RuleEngineError ReasoningRule := do
  let id ← nonEmpty id "rule id"
  return { id := id.1, condition := condition.1, conclusion
           idNotBlank := id.2, conditionWellFormed := condition.2 }

end Termivar
