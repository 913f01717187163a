/-
# Rule conditions

`termivar-scanner/src/rules/expression.rs`: the conditions of reasoning rules
and verification rules, trees of claims about the records of a snapshot and
about its ontology, and their evaluation to a trace. Each node of a trace says
whether it matched and which evidence it rests on. The label of a node is the
operation it stands for; its rendering as a text is not modelled.
-/
import Termivar.Knowledge.Model

namespace Termivar

/-- Errors raised while validating or evaluating deterministic rules. -/
inductive RuleEngineError where
  | emptyValue (field : String)
  | emptyExpression (operator : String)
  | emptyCalibrations
  | invalidAggregationLimit
  | verifierOnlyState (state : HypothesisState)
  | ruleIdentityConflict (id : String)
  | missingCalibratedEvidence (ruleId : String)
  | ambiguousEvidenceCalibration (ruleId : String) (evidenceId : EvidenceId)
  | ontology (failure : OntologyError)
  | reasoning (failure : ReasoningModelError)
  | knowledge (failure : KnowledgeBaseError)
  | staleSnapshotRetriesExhausted (attempts : Nat)
  deriving DecidableEq

/-- `non_empty`: the text, if it is not blank. -/
def nonEmpty (value field : String) : Except RuleEngineError { s // isBlank s = false } :=
  if h : isBlank value = false then .ok ⟨value, h⟩ else .error (.emptyValue field)

/-! ### Syntax -/

/-- Knowledge record layer queried by a claim expression. -/
inductive KnowledgeLayer where
  | evidence
  | fact
  | hypothesis
  deriving DecidableEq

/-- A condition over a knowledge snapshot. The value of a claim is absent where
the wire has an explicit `null`: such a claim asks for existence only. -/
inductive Expression where
  | all (expressions : List Expression)
  | any (expressions : List Expression)
  | negate (expression : Expression)
  | claim (layer : KnowledgeLayer) (predicate : KnowledgePredicate) (value : Option EvidenceValue)
  | textContains (layer : KnowledgeLayer) (predicate : KnowledgePredicate) (needle : String)
      (asciiCaseInsensitive : Bool)
  | textListContainsExact (layer : KnowledgeLayer) (predicate : KnowledgePredicate) (value : String)
  | ontologyRelation (subject : ConceptId) (relation : RelationTypeId) (object : ConceptId)

namespace Expression

/-- The operands of a node. -/
def operands : Expression → List Expression
  | .all expressions => expressions
  | .any expressions => expressions
  | .negate expression => [expression]
  | _ => []

variable (e : Expression)

/-- Induction over a condition, with a hypothesis for each operand of a group. -/
theorem inductionOn {motive : Expression → Prop}
    (all : ∀ es, (∀ e ∈ es, motive e) → motive (.all es))
    (any : ∀ es, (∀ e ∈ es, motive e) → motive (.any es))
    (negate : ∀ e, motive e → motive (.negate e))
    (claim : ∀ layer predicate value, motive (.claim layer predicate value))
    (textContains : ∀ layer predicate needle asciiCaseInsensitive,
      motive (.textContains layer predicate needle asciiCaseInsensitive))
    (textListContainsExact : ∀ layer predicate value,
      motive (.textListContainsExact layer predicate value))
    (ontologyRelation : ∀ subject relation object,
      motive (.ontologyRelation subject relation object)) : motive e :=
  @Expression.rec motive (fun es => ∀ e ∈ es, motive e) all any negate claim textContains
    textListContainsExact ontologyRelation (fun _ he => absurd he List.not_mem_nil)
    (fun _ _ hhead htail => List.forall_mem_cons.mpr ⟨hhead, htail⟩) e

mutual

/-- Whether two conditions are the same tree. -/
def same : Expression → Expression → Bool
  | .all es, .all es' => sameAll es es'
  | .any es, .any es' => sameAll es es'
  | .negate e, .negate e' => same e e'
  | .claim layer predicate value, .claim layer' predicate' value' =>
    layer = layer' && predicate = predicate' && value = value'
  | .textContains layer predicate needle ci, .textContains layer' predicate' needle' ci' =>
    layer = layer' && predicate = predicate' && needle = needle' && ci = ci'
  | .textListContainsExact layer predicate value, .textListContainsExact layer' predicate' value' =>
    layer = layer' && predicate = predicate' && value = value'
  | .ontologyRelation subject relation object, .ontologyRelation subject' relation' object' =>
    subject = subject' && relation = relation' && object = object'
  | _, _ => false

def sameAll : List Expression → List Expression → Bool
  | [], [] => true
  | e :: es, e' :: es' => same e e' && sameAll es es'
  | _, _ => false

end

variable {es : List Expression} {test : Expression → Bool}

theorem sameAll_iff (h : ∀ e ∈ es, ∀ e', same e e' = true ↔ e = e') :
    ∀ es', sameAll es es' = true ↔ es = es' := by
  induction es with
  | nil => intro es'; cases es' <;> simp [sameAll]
  | cons e es ih =>
    obtain ⟨he, hes⟩ := List.forall_mem_cons.mp h
    intro es'
    cases es' with
    | nil => simp [sameAll]
    | cons e' es' => simp [sameAll, he, ih hes]

theorem same_iff (e e' : Expression) : same e e' = true ↔ e = e' := by
  induction e using inductionOn generalizing e' with
  | all es ih => cases e' <;> simp [same, sameAll_iff ih]
  | any es ih => cases e' <;> simp [same, sameAll_iff ih]
  | negate e ih => cases e' <;> simp [same, ih]
  | claim layer predicate value => cases e' <;> simp [same, and_assoc]
  | textContains layer predicate needle ci => cases e' <;> simp [same, and_assoc]
  | textListContainsExact layer predicate value => cases e' <;> simp [same, and_assoc]
  | ontologyRelation subject relation object => cases e' <;> simp [same, and_assoc]

instance : DecidableEq Expression := fun e e' => decidable_of_iff _ (same_iff e e')

mutual

/-- Whether a test passes at every node of a condition. -/
def every (test : Expression → Bool) : Expression → Bool
  | .all es => test (.all es) && everyOf test es
  | .any es => test (.any es) && everyOf test es
  | .negate e => test (.negate e) && every test e
  | .claim layer predicate value => test (.claim layer predicate value)
  | .textContains layer predicate needle ci => test (.textContains layer predicate needle ci)
  | .textListContainsExact layer predicate value =>
    test (.textListContainsExact layer predicate value)
  | .ontologyRelation subject relation object => test (.ontologyRelation subject relation object)

def everyOf (test : Expression → Bool) : List Expression → Bool
  | [] => true
  | e :: es => every test e && everyOf test es

end

theorem everyOf_iff {test : Expression → Bool} : ∀ {es : List Expression},
    everyOf test es = true ↔ ∀ e ∈ es, e.every test = true
  | [] => by simp [everyOf]
  | e :: es => by simp [everyOf, everyOf_iff]

@[simp] theorem every_all :
    (Expression.all es).every test = true ↔
      test (.all es) = true ∧ ∀ e ∈ es, e.every test = true := by
  rw [every, Bool.and_eq_true, everyOf_iff]

@[simp] theorem every_any :
    (Expression.any es).every test = true ↔
      test (.any es) = true ∧ ∀ e ∈ es, e.every test = true := by
  rw [every, Bool.and_eq_true, everyOf_iff]

@[simp] theorem every_negate {e : Expression} :
    (Expression.negate e).every test = true ↔ test (.negate e) = true ∧ e.every test = true := by
  rw [every, Bool.and_eq_true]

/-! ### Constructors -/

/-- `Expression::all`. -/
def allOf (expressions : List Expression) : Except RuleEngineError Expression :=
  if expressions.isEmpty then .error (.emptyExpression "all") else .ok (.all expressions)

/-- `Expression::any`. -/
def anyOf (expressions : List Expression) : Except RuleEngineError Expression :=
  if expressions.isEmpty then .error (.emptyExpression "any") else .ok (.any expressions)

/-- `Expression::equals`. -/
def equals (layer : KnowledgeLayer) (predicate : KnowledgePredicate) (value : EvidenceValue) :
    Expression :=
  .claim layer predicate (some value)

/-- `Expression::exists`. -/
def existsIn (layer : KnowledgeLayer) (predicate : KnowledgePredicate) : Expression :=
  .claim layer predicate none

/-- `Expression::text_contains` and its case-insensitive sibling. -/
def textMatch (layer : KnowledgeLayer) (predicate : KnowledgePredicate) (needle : String)
    (asciiCaseInsensitive : Bool) : Except RuleEngineError Expression := do
  let needle ← nonEmpty needle "text-match needle"
  return .textContains layer predicate needle.1 asciiCaseInsensitive

/-- `Expression::text_list_contains_exact`. -/
def textListMatch (layer : KnowledgeLayer) (predicate : KnowledgePredicate) (value : String) :
    Except RuleEngineError Expression := do
  let value ← nonEmpty value "text-list exact value"
  return .textListContainsExact layer predicate value.1

/-- Whether a node is one the constructors admit: no empty group, no blank text. -/
def admitted : Expression → Bool
  | .all es => !es.isEmpty
  | .any es => !es.isEmpty
  | .textContains _ _ needle _ => !isBlank needle
  | .textListContainsExact _ _ value => !isBlank value
  | _ => true

/-- Whether a condition is built by the constructors. -/
def wellFormed : Bool := e.every admitted

/-- The layer a leaf queries. -/
def layer : Expression → Option KnowledgeLayer
  | .claim layer _ _ => some layer
  | .textContains layer _ _ _ => some layer
  | .textListContainsExact layer _ _ => some layer
  | _ => none

/-- Whether a node is a query of the ontology. -/
def isOntologyRelation : Expression → Bool
  | .ontologyRelation _ _ _ => true
  | _ => false

/-- `uses_only_evidence`: no query of the ontology or of another layer. -/
def usesOnlyEvidence : Bool :=
  e.every fun node => !node.isOntologyRelation && node.layer.all (· = .evidence)

/-- Whether no part of a condition queries the hypotheses. -/
def hypothesisFree : Bool := e.every fun node => node.layer.all (· ≠ .hypothesis)

/-- Whether a node is a negation. -/
def isNegation : Expression → Bool
  | .negate _ => true
  | _ => false

/-- Whether no part of a condition is negated. -/
def negationFree : Bool := e.every fun node => !node.isNegation

end Expression

/-! ### Records -/

/-- The texts of a text or of a text list. -/
def evidenceValueTexts : EvidenceValue → List String
  | .text text => [text]
  | .textList values => values
  | _ => []

def toAsciiLowercase (value : String) : List Char := value.toList.map Char.toLower

/-- Whether a text contains a needle. -/
def textContains (value needle : String) (asciiCaseInsensitive : Bool) : Bool :=
  if asciiCaseInsensitive then toAsciiLowercase needle <:+: toAsciiLowercase value
  else needle.toList <:+: value.toList

/-- Exact membership in a text list, never in a scalar text. -/
def textListContainsExact (value : EvidenceValue) (target : String) : Bool :=
  match value with
  | .textList values => values.contains target
  | _ => false

/-- What a condition reads of a record of one layer: its claim and the
evidence it stands on. -/
structure LayerRecord where
  predicate : KnowledgePredicate
  value : EvidenceValue
  evidenceIds : List EvidenceId

def Evidence.layerRecord (evidence : Evidence) : LayerRecord :=
  ⟨evidence.predicate, evidence.value, [evidence.id]⟩

def Fact.layerRecord (fact : Fact) : LayerRecord :=
  ⟨fact.predicate, fact.value, fact.evidenceIds.toList⟩

def Hypothesis.layerRecord (hypothesis : Hypothesis) : LayerRecord :=
  ⟨hypothesis.predicate, hypothesis.value, hypothesis.belief.evidence.map (·.evidenceId)⟩

/-- The records of a layer, in the order of the snapshot. -/
def KnowledgeSnapshot.records (snapshot : KnowledgeSnapshot) : KnowledgeLayer → List LayerRecord
  | .evidence => snapshot.evidence.map Evidence.layerRecord
  | .fact => snapshot.facts.map Fact.layerRecord
  | .hypothesis => snapshot.hypotheses.map Hypothesis.layerRecord

/-! ### Evaluation -/

/-- The operation a node of a trace stands for. -/
inductive TraceLabel where
  | all
  | any
  | not
  | claim (layer : KnowledgeLayer) (predicate : KnowledgePredicate) (value : Option EvidenceValue)
  | contains (layer : KnowledgeLayer) (predicate : KnowledgePredicate) (needle : String)
      (asciiCaseInsensitive : Bool)
  | listContainsExact (layer : KnowledgeLayer) (predicate : KnowledgePredicate) (value : String)
  | ontology (subject : ConceptId) (relation : RelationTypeId) (object : ConceptId)

/-- One node in an expression evaluation trace. -/
structure ExpressionTrace where
  label : TraceLabel
  matched : Bool
  evidenceIds : BTreeSet EvidenceId
  children : List ExpressionTrace

/-- The records of a layer with the predicate and a value that passes the test,
and the evidence they stand on. -/
def evaluateLayer (label : TraceLabel) (layer : KnowledgeLayer) (predicate : KnowledgePredicate)
    (test : EvidenceValue → Bool) (snapshot : KnowledgeSnapshot) : ExpressionTrace :=
  let hits := (snapshot.records layer).filter fun r => r.predicate = predicate && test r.value
  { label
    matched := !hits.isEmpty
    evidenceIds := .ofList (hits.flatMap LayerRecord.evidenceIds)
    children := [] }

def evaluateClaim (layer : KnowledgeLayer) (predicate : KnowledgePredicate)
    (value : Option EvidenceValue) (snapshot : KnowledgeSnapshot) : ExpressionTrace :=
  evaluateLayer (.claim layer predicate value) layer predicate
    (fun candidate => value.all fun expected => candidate = expected) snapshot

def evaluateTextContains (layer : KnowledgeLayer) (predicate : KnowledgePredicate) (needle : String)
    (asciiCaseInsensitive : Bool) (snapshot : KnowledgeSnapshot) : ExpressionTrace :=
  evaluateLayer (.contains layer predicate needle asciiCaseInsensitive) layer predicate
    (fun candidate => (evidenceValueTexts candidate).any fun text =>
      textContains text needle asciiCaseInsensitive) snapshot

def evaluateTextListContainsExact (layer : KnowledgeLayer) (predicate : KnowledgePredicate)
    (value : String) (snapshot : KnowledgeSnapshot) : ExpressionTrace :=
  evaluateLayer (.listContainsExact layer predicate value) layer predicate
    (fun candidate => textListContainsExact candidate value) snapshot

def collectTraceEvidence (children : List ExpressionTrace) : BTreeSet EvidenceId :=
  .ofList (children.flatMap fun child => child.evidenceIds.toList)

mutual

def evaluateNode (snapshot : KnowledgeSnapshot) : Expression → Except RuleEngineError ExpressionTrace
  | .all expressions => do
    let children ← evaluateChildren snapshot expressions
    let matched := children.all ExpressionTrace.matched
    return { label := .all, matched
             evidenceIds := if matched then collectTraceEvidence children else ∅, children }
  | .any expressions => do
    let children ← evaluateChildren snapshot expressions
    return { label := .any
             matched := children.any ExpressionTrace.matched
             evidenceIds := collectTraceEvidence (children.filter ExpressionTrace.matched), children }
  | .negate expression => do
    let child ← evaluateNode snapshot expression
    return { label := .not, matched := !child.matched, evidenceIds := ∅, children := [child] }
  | .claim layer predicate value => return evaluateClaim layer predicate value snapshot
  | .textContains layer predicate needle asciiCaseInsensitive =>
    return evaluateTextContains layer predicate needle asciiCaseInsensitive snapshot
  | .textListContainsExact layer predicate value =>
    return evaluateTextListContainsExact layer predicate value snapshot
  | .ontologyRelation subject relation object => do
    let matched ← (snapshot.ontology.isRelated subject relation object).mapError .ontology
    return { label := .ontology subject relation object, matched, evidenceIds := ∅, children := [] }

def evaluateChildren (snapshot : KnowledgeSnapshot) :
    List Expression → Except RuleEngineError (List ExpressionTrace)
  | [] => return []
  | expression :: expressions => do
    let child ← evaluateNode snapshot expression
    let children ← evaluateChildren snapshot expressions
    return child :: children

end

end Termivar
