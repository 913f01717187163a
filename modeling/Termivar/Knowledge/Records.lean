/-
# Knowledge records

`termivar-core/src/reasoning.rs`: evidence with the lineage of derived
records, facts, hypotheses, entities and relations, as the knowledge base
stores and compares them.
-/
import Termivar.Reasoning.Belief

namespace Termivar

abbrev RelationId : Type := Identifier .relation

def maxConfidenceBasisPoints : Nat := 10000

/-- A confidence in basis points. -/
structure ConfidenceScore where
  basisPoints : Nat
  inRange : basisPoints ≤ maxConfidenceBasisPoints
  deriving DecidableEq

/-- A namespaced predicate. -/
structure KnowledgePredicate where
  (namespaceName name : String)
  namespaceNotBlank : isBlank namespaceName = false
  nameNotBlank : isBlank name = false
  deriving DecidableEq

namespace KnowledgePredicate

instance : Ord KnowledgePredicate where
  compare := compareLex (compareOn (·.namespaceName)) (compareOn (·.name))

instance : Std.TransOrd KnowledgePredicate :=
  inferInstanceAs (Std.TransCmp (compareLex (compareOn KnowledgePredicate.namespaceName)
    (compareOn KnowledgePredicate.name)))

instance : Std.LawfulEqOrd KnowledgePredicate :=
  lawfulEqCmp_compareLex (by simp [compareOn]) (by simp [compareOn]) (by
    rintro ⟨s, n, hs, hn⟩ ⟨s', n', hs', hn'⟩ h1 h2
    simp only [compareOn, Std.LawfulEqOrd.compare_eq_iff_eq] at h1 h2
    subst h1
    subst h2
    rfl)

end KnowledgePredicate

inductive EvidenceValue where
  | boolean (value : Bool)
  | signed (value : Int)
  | unsigned (value : Nat)
  | text (value : String)
  | textList (values : List String)
  deriving DecidableEq

inductive EvidenceKind where
  | network
  | http
  | tls
  | dns
  | content
  | authentication
  | rateLimit
  | timing
  | technology
  | custom (name : String)
  deriving DecidableEq

structure EvidenceSource where
  (component method : String)
  correlationId : Option String
  componentNotBlank : isBlank component = false
  methodNotBlank : isBlank method = false
  correlationNotBlank : correlationId.all (!isBlank ·) = true
  deriving DecidableEq

/-! ### Lineage -/

def maxDerivationParents : Nat := 32

def maxDerivationAlgorithmBytes : Nat := 64

structure DerivationAlgorithm where
  name : String
  version : Nat
  notBlank : isBlank name = false
  bounded : name.utf8ByteSize ≤ maxDerivationAlgorithmBytes
  deriving DecidableEq

/-- The canonical parents of a derived record. -/
structure EvidenceDerivation where
  parents : BTreeSet EvidenceId
  algorithm : DerivationAlgorithm
  notEmpty : parents ≠ ∅
  bounded : parents.size ≤ maxDerivationParents
  deriving DecidableEq

inductive EvidenceOrigin where
  | direct
  | derived (derivation : EvidenceDerivation)
  deriving DecidableEq

def EvidenceOrigin.derivation : EvidenceOrigin → Option EvidenceDerivation
  | .derived derivation => some derivation
  | .direct => none

/-- One immutable observation. -/
structure Evidence where
  id : EvidenceId
  subject : EntityId
  kind : EvidenceKind
  predicate : KnowledgePredicate
  value : EvidenceValue
  source : EvidenceSource
  reliability : ConfidenceScore
  observedAtMs : Nat
  origin : EvidenceOrigin
  deriving DecidableEq

/-- The parents of a record, none if it was observed directly. -/
def Evidence.parents (evidence : Evidence) : List EvidenceId :=
  match evidence.origin.derivation with
  | some derivation => derivation.parents.toList
  | none => []

/-! ### Facts and hypotheses -/

structure Fact where
  id : String
  subject : EntityId
  predicate : KnowledgePredicate
  value : EvidenceValue
  confidence : ConfidenceScore
  evidenceIds : BTreeSet EvidenceId
  assertedAtMs : Nat
  cited : evidenceIds ≠ ∅
  idNotBlank : isBlank id = false
  deriving DecidableEq

inductive HypothesisState where
  | proposed
  | supported
  | contradicted
  | confirmed
  | rejected
  deriving DecidableEq

inductive HypothesisStrength where
  | weak
  | strong
  deriving DecidableEq

structure Hypothesis where
  id : String
  subject : EntityId
  predicate : KnowledgePredicate
  value : EvidenceValue
  belief : BayesianBelief
  strength : HypothesisStrength
  state : HypothesisState
  updatedAtMs : Nat
  idNotBlank : isBlank id = false

namespace Hypothesis

/-- Changes the lifecycle state, with a reading of the clock. -/
def setState (hypothesis : Hypothesis) (state : HypothesisState) (now : Nat) : Hypothesis :=
  { hypothesis with state, updatedAtMs := now }

/-- Equal but for the time of the last update. -/
def sameEvaluationAs (self other : Hypothesis) : Bool :=
  self.id = other.id && self.subject = other.subject && self.predicate = other.predicate &&
    self.value = other.value && self.belief = other.belief && self.strength = other.strength &&
    self.state = other.state

end Hypothesis

/-! ### The instance graph -/

inductive EntityKind where
  | host
  | service
  | endpoint
  | technology
  | identity
  | session
  | parameter
  | credential
  | custom (name : String)
  deriving DecidableEq

structure KnowledgeEntity where
  id : EntityId
  kind : EntityKind
  label : String
  labelNotBlank : isBlank label = false
  deriving DecidableEq

inductive RelationKind where
  | exposes
  | serves
  | uses
  | dependsOn
  | contains
  | authenticatesWith
  | derivedFrom
  | relatedTo
  | custom (name : String)
  deriving DecidableEq

structure KnowledgeRelation where
  id : RelationId
  (source target : EntityId)
  kind : RelationKind
  confidence : ConfidenceScore
  evidenceIds : BTreeSet EvidenceId
  cited : evidenceIds ≠ ∅
  deriving DecidableEq

end Termivar
