/-
# Visibility reviews

`termivar-scanner/src/api_observation/review.rs`: a relation of a resource
becomes a review if the evidence it cites is a canonical paired comparison;
the review then holds the boundary hypothesis about it, if there is one.
-/
import Termivar.ApiEvidence.Signature
import Termivar.Rules.Engine
import Termivar.Text

namespace Termivar.ApiObservation

open ApiEvidence (ApiVisibilityDimension)

def apiVisibilityRelation : String := "api.visibility.resource-scope"
def apiVisibilityEvidenceKind : String := "api.visibility-comparison"
def apiVisibilitySourceMethod : String := "paired-api-visibility"
def comparisonSubjectPrefix : String := "api-comparison:"
def comparisonEvidencePrefix : String := "api-comparison-evidence:"
def comparisonRelationPrefix : String := "api-comparison-scope:"
def uiApiBoundaryRule : String := "api.visibility.ui-api.paired-difference"
def authorizationBoundaryRule : String := "api.visibility.authorization-context.paired-difference"
def maxApiVisibilitySourceComponentBytes : Nat := 256
def maxApiVisibilityReviewRationaleBytes : Nat := 1024

/-! ### Predicates -/

namespace ApiEvidencePredicate

def jsonUiApiDifference : KnowledgePredicate :=
  ⟨"api.visibility.json.ui-api", "difference", by decide, by decide⟩
def jsonUiApiEquivalent : KnowledgePredicate :=
  ⟨"api.visibility.json.ui-api", "equivalent", by decide, by decide⟩
def jsonAuthorizationContextDifference : KnowledgePredicate :=
  ⟨"api.visibility.json.authorization-context", "difference", by decide, by decide⟩
def jsonAuthorizationContextEquivalent : KnowledgePredicate :=
  ⟨"api.visibility.json.authorization-context", "equivalent", by decide, by decide⟩
def graphqlUiApiDifference : KnowledgePredicate :=
  ⟨"api.visibility.graphql.ui-api", "difference", by decide, by decide⟩
def graphqlUiApiEquivalent : KnowledgePredicate :=
  ⟨"api.visibility.graphql.ui-api", "equivalent", by decide, by decide⟩
def graphqlAuthorizationContextDifference : KnowledgePredicate :=
  ⟨"api.visibility.graphql.authorization-context", "difference", by decide, by decide⟩
def graphqlAuthorizationContextEquivalent : KnowledgePredicate :=
  ⟨"api.visibility.graphql.authorization-context", "equivalent", by decide, by decide⟩

end ApiEvidencePredicate

def visibilityBoundaryPredicate : KnowledgePredicate :=
  ⟨"api.visibility", "boundary", by decide, by decide⟩

inductive ApiVisibilityBoundaryKind where
  | uiApi
  | authorizationContext

def ApiVisibilityBoundaryKind.asStr : ApiVisibilityBoundaryKind → String
  | .uiApi => "ui-api-visibility-boundary"
  | .authorizationContext => "authorization-context-visibility-boundary"

/-! ### Reviews -/

structure ApiVisibilityReview where
  (resourceScope comparisonSubject : EntityId)
  relationId : RelationId
  evidence : Evidence
  boundaryHypotheses : List Hypothesis

def isBoundedReviewEvidence (evidence : Evidence) : Bool :=
  evidence.source.component.utf8ByteSize ≤ maxApiVisibilitySourceComponentBytes

def isVisibilityPredicate (predicate : KnowledgePredicate) : Bool :=
  [ApiEvidencePredicate.jsonUiApiDifference, ApiEvidencePredicate.jsonUiApiEquivalent,
    ApiEvidencePredicate.jsonAuthorizationContextDifference,
    ApiEvidencePredicate.jsonAuthorizationContextEquivalent,
    ApiEvidencePredicate.graphqlUiApiDifference, ApiEvidencePredicate.graphqlUiApiEquivalent,
    ApiEvidencePredicate.graphqlAuthorizationContextDifference,
    ApiEvidencePredicate.graphqlAuthorizationContextEquivalent].any fun known => known = predicate

def isVisibilityDimension (value : EvidenceValue) : Bool :=
  [ApiVisibilityDimension.resources, .fields, .status].any fun dimension =>
    EvidenceValue.text dimension.asStr = value

/-- A digit of a digest: hexadecimal and not an upper-case letter. -/
def isDigestDigit (c : Char) : Bool := c.isDigit || ('a' ≤ c && c ≤ 'f')

/-- What is checked of the comparison that a digest names. -/
def isComparisonOf (digest : String) (evidence : Evidence) (relation : KnowledgeRelation) : Bool :=
  digest.utf8ByteSize = 64 && digest.toList.all isDigestDigit &&
    evidence.id.value = comparisonEvidencePrefix ++ digest &&
    relation.id.value = comparisonRelationPrefix ++ digest &&
    relation.source = evidence.subject && relation.evidenceIds.size = 1 &&
    relation.evidenceIds.contains evidence.id && relation.confidence = evidence.reliability &&
    evidence.reliability.basisPoints ≠ 0 && evidence.kind = .custom apiVisibilityEvidenceKind &&
    evidence.source.method = apiVisibilitySourceMethod &&
    evidence.source.correlationId = some evidence.subject.value &&
    isVisibilityPredicate evidence.predicate && isVisibilityDimension evidence.value

def isCanonicalComparison (evidence : Evidence) (relation : KnowledgeRelation) : Bool :=
  match stripPrefix comparisonSubjectPrefix.toList evidence.subject.value.toList with
  | some digest => isComparisonOf (.ofList digest) evidence relation
  | none => false

def expectedBoundaryRule (evidence : Evidence) : Option (ApiVisibilityBoundaryKind × String) :=
  if evidence.predicate = ApiEvidencePredicate.jsonUiApiDifference ∨
      evidence.predicate = ApiEvidencePredicate.graphqlUiApiDifference then
    some (.uiApi, uiApiBoundaryRule)
  else if evidence.predicate = ApiEvidencePredicate.jsonAuthorizationContextDifference ∨
      evidence.predicate = ApiEvidencePredicate.graphqlAuthorizationContextDifference then
    some (.authorizationContext, authorizationBoundaryRule)
  else none

def isBoundedBoundaryHypothesis (hypothesis : Hypothesis) : Bool :=
  (hypothesis.belief.evidence.all fun observation =>
      observation.rationale.utf8ByteSize ≤ maxApiVisibilityReviewRationaleBytes) &&
    hypothesis.belief.updates.all fun update =>
      update.rationale.utf8ByteSize ≤ maxApiVisibilityReviewRationaleBytes

def isCanonicalBoundaryHypothesis (hypothesis : Hypothesis) (evidence : Evidence) : Bool :=
  match expectedBoundaryRule evidence with
  | none => false
  | some (boundary, ruleId) =>
    hypothesis.subject = evidence.subject && hypothesis.predicate = visibilityBoundaryPredicate &&
      hypothesis.strength = .weak && hypothesis.state = .supported &&
      hypothesis.belief.evidence.map BayesianEvidence.evidenceId = [evidence.id] &&
      hypothesis.value = .text boundary.asStr &&
      hypothesis.id = hypothesisIdForRule ruleId evidence.subject

def canonicalBoundaryHypothesis (knowledge : KnowledgeState) (evidence : Evidence) :
    Option Hypothesis := do
  let (_, ruleId) ← expectedBoundaryRule evidence
  let hypothesis ← knowledge.hypotheses[hypothesisIdForRule ruleId evidence.subject]?
  guard (isCanonicalBoundaryHypothesis hypothesis evidence && isBoundedBoundaryHypothesis hypothesis)
  return hypothesis

/-- `project_api_visibility_review`. -/
def projectApiVisibilityReview (knowledge : KnowledgeState) (resourceScope : EntityId)
    (relation : KnowledgeRelation) : Option ApiVisibilityReview := do
  guard (relation.kind = .custom apiVisibilityRelation && relation.target = resourceScope &&
    relation.evidenceIds.size = 1)
  let evidenceId ← relation.evidenceIds.toList.head?
  let evidence ← knowledge.evidence[evidenceId]?
  guard (isCanonicalComparison evidence relation && isBoundedReviewEvidence evidence)
  return {
    resourceScope, evidence
    comparisonSubject := evidence.subject
    relationId := relation.id
    boundaryHypotheses := (canonicalBoundaryHypothesis knowledge evidence).toList }

end Termivar.ApiObservation
