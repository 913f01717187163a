/-
# Bayesian beliefs

`termivar-core/src/reasoning.rs`: a belief keeps its observations in the order
of their evidence identifiers and replays all of them, from its prior, at
every observation; its serialized form has the prior, the posterior and the
observations, and deserializing replays them once more.
-/
import Termivar.Command
import Termivar.SortedList
import Termivar.Reasoning.Probability

namespace Termivar

/-- A likelihood observation about one evidence record. -/
structure BayesianEvidence where
  evidenceId : EvidenceId
  (likelihoodIfTrue likelihoodIfFalse : Probability)
  rationale : String
  rationaleNotBlank : isBlank rationale = false

instance : DecidableEq BayesianEvidence := fun a b =>
  decidable_of_iff (a.evidenceId = b.evidenceId ∧ a.likelihoodIfTrue = b.likelihoodIfTrue ∧
    a.likelihoodIfFalse = b.likelihoodIfFalse ∧ a.rationale = b.rationale) (by cases a; cases b; simp)

/-- Result of adding evidence to a Bayesian belief. -/
inductive BeliefWrite where
  | inserted
  | replaced
  | unchanged

/-- One explainable step in a posterior calculation. -/
structure BayesianUpdate where
  evidenceId : EvidenceId
  (prior likelihoodIfTrue likelihoodIfFalse posterior : Probability)
  rationale : String
  deriving DecidableEq

/-- Deterministic Bayesian state for one hypothesis. -/
structure BayesianBelief where
  (prior posterior : Probability)
  evidence : List BayesianEvidence
  updates : List BayesianUpdate
  deriving DecidableEq

/-- A belief at the caller's prior. -/
def BayesianBelief.new (prior : Probability) : BayesianBelief :=
  { prior, posterior := prior, evidence := [], updates := [] }

/-! ### Observations -/

/-- The order of the observations. -/
def BayesianEvidence.key (observation : BayesianEvidence) : String := observation.evidenceId.value

/-- The audit record of one observation. -/
def BayesianEvidence.step (observation : BayesianEvidence) (prior posterior : Probability) :
    BayesianUpdate where
  evidenceId := observation.evidenceId
  prior := prior
  likelihoodIfTrue := observation.likelihoodIfTrue
  likelihoodIfFalse := observation.likelihoodIfFalse
  posterior := posterior
  rationale := observation.rationale

/-- One turn of the replay: the current probability and the updates so far. -/
def replayOne (current : Probability × List BayesianUpdate) (observation : BayesianEvidence) :
    Except ReasoningModelError (Probability × List BayesianUpdate) := do
  let posterior ← current.1.update observation.likelihoodIfTrue observation.likelihoodIfFalse
  return (posterior, current.2 ++ [observation.step current.1 posterior])

def calculateBayesianUpdates (prior : Probability) (evidence : List BayesianEvidence) :
    Except ReasoningModelError (Probability × List BayesianUpdate) :=
  evidence.foldlM replayOne (prior, [])

/-- Replay the candidate evidence and commit it. -/
def replaceEvidence (candidate : List BayesianEvidence) (write : BeliefWrite) :
    Command BayesianBelief ReasoningModelError BeliefWrite := do
  let belief ← get
  let (posterior, updates) ← calculateBayesianUpdates belief.prior candidate
  set { belief with posterior, evidence := candidate, updates }
  return write

/-- Adds or replaces one observation and recomputes the posterior. -/
def observe (observation : BayesianEvidence) :
    Command BayesianBelief ReasoningModelError BeliefWrite := do
  let belief ← get
  match SortedList.searchByKey BayesianEvidence.key observation.key belief.evidence with
  | .ok index =>
    if belief.evidence[index]? = some observation then return .unchanged
    else replaceEvidence (belief.evidence.set index observation) .replaced
  | .error index => replaceEvidence (belief.evidence.insertIdx index observation) .inserted

/-! ### The serialized form -/

/-- A value of a self-describing format. -/
inductive Data where
  | null
  | bool (value : Bool)
  | integer (value : Int)
  | text (value : String)
  | seq (items : List Data)
  | map (entries : List (String × Data))

/-- The errors of a deserializer. -/
inductive DecodeError where
  | invalidType
  | invalidValue
  | missingField (name : String)
  | duplicateField (name : String)
  | custom (message : String)
  deriving DecidableEq

def Probability.serialize (p : Probability) : Data := .integer p.partsPerMillion

def Probability.deserialize : Data → Except DecodeError Probability
  | .integer value =>
    if 0 ≤ value ∧ value ≤ u32Max then
      (Probability.fromPartsPerMillion value.toNat).mapError fun e => .custom e.message
    else .error .invalidValue
  | _ => .error .invalidType

/-- `String::deserialize` and `non_empty` with the name of the field. -/
def deserializeNonEmpty (field : String) : Data → Except DecodeError { s // isBlank s = false }
  | .text value =>
    if h : isBlank value = false then .ok ⟨value, h⟩
    else .error (.custom (ReasoningModelError.emptyValue field).message)
  | _ => .error .invalidType

theorem notBlank_val (value : { s // isBlank s = false }) : isBlank value.1 = false := value.2

def deserializeEvidenceId (data : Data) : Except DecodeError EvidenceId := do
  let value ← deserializeNonEmpty "evidence id" data
  return ⟨value.1, notBlank_val value⟩

/-- A field of a struct takes its one value. -/
def fillField {α : Type} (name : String) (slot : Option α) (value : Except DecodeError α) :
    Except DecodeError (Option α) :=
  if slot.isSome then .error (.duplicateField name) else some <$> value

/-- The fields of an observation met so far. -/
structure EvidenceFields where
  evidenceId : Option EvidenceId := none
  likelihoodIfTrue : Option Probability := none
  likelihoodIfFalse : Option Probability := none
  rationale : Option { s // isBlank s = false } := none

def EvidenceFields.visit (fields : EvidenceFields) (entry : String × Data) :
    Except DecodeError EvidenceFields :=
  match entry.1 with
  | "evidence_id" => do
    let evidenceId ← fillField "evidence_id" fields.evidenceId (deserializeEvidenceId entry.2)
    return { fields with evidenceId }
  | "likelihood_if_true" => do
    let likelihoodIfTrue ← fillField "likelihood_if_true" fields.likelihoodIfTrue
      (Probability.deserialize entry.2)
    return { fields with likelihoodIfTrue }
  | "likelihood_if_false" => do
    let likelihoodIfFalse ← fillField "likelihood_if_false" fields.likelihoodIfFalse
      (Probability.deserialize entry.2)
    return { fields with likelihoodIfFalse }
  | "rationale" => do
    let rationale ← fillField "rationale" fields.rationale (deserializeNonEmpty "value" entry.2)
    return { fields with rationale }
  | _ => return fields

def BayesianEvidence.serialize (observation : BayesianEvidence) : Data :=
  .map [("evidence_id", .text observation.evidenceId.value),
    ("likelihood_if_true", observation.likelihoodIfTrue.serialize),
    ("likelihood_if_false", observation.likelihoodIfFalse.serialize),
    ("rationale", .text observation.rationale)]

def BayesianEvidence.deserialize : Data → Except DecodeError BayesianEvidence
  | .map entries => do
    let fields ← entries.foldlM EvidenceFields.visit {}
    let evidenceId ← okOr fields.evidenceId (.missingField "evidence_id")
    let likelihoodIfTrue ← okOr fields.likelihoodIfTrue (.missingField "likelihood_if_true")
    let likelihoodIfFalse ← okOr fields.likelihoodIfFalse (.missingField "likelihood_if_false")
    let rationale ← okOr fields.rationale (.missingField "rationale")
    return { evidenceId, likelihoodIfTrue, likelihoodIfFalse
             rationale := rationale.1, rationaleNotBlank := notBlank_val rationale }
  | _ => .error .invalidType

/-- The fields of a belief met so far. -/
structure BeliefFields where
  prior : Option Probability := none
  posterior : Option Probability := none
  evidence : Option (List BayesianEvidence) := none

def deserializeEvidence : Data → Except DecodeError (List BayesianEvidence)
  | .seq items => items.mapM BayesianEvidence.deserialize
  | _ => .error .invalidType

def BeliefFields.visit (fields : BeliefFields) (entry : String × Data) :
    Except DecodeError BeliefFields :=
  match entry.1 with
  | "prior" => do
    let prior ← fillField "prior" fields.prior (Probability.deserialize entry.2)
    return { fields with prior }
  | "posterior" => do
    let posterior ← fillField "posterior" fields.posterior (Probability.deserialize entry.2)
    return { fields with posterior }
  | "evidence" => do
    let evidence ← fillField "evidence" fields.evidence (deserializeEvidence entry.2)
    return { fields with evidence }
  | _ => return fields

/-- What a serialized belief holds. -/
structure WireBelief where
  (prior posterior : Probability)
  evidence : List BayesianEvidence

def WireBelief.deserialize : Data → Except DecodeError WireBelief
  | .map entries => do
    let fields ← entries.foldlM BeliefFields.visit {}
    let prior ← okOr fields.prior (.missingField "prior")
    let posterior ← okOr fields.posterior (.missingField "posterior")
    let evidence ← okOr fields.evidence (.missingField "evidence")
    return { prior, posterior, evidence }
  | _ => .error .invalidType

/-- The audit trail is not serialized. -/
def BayesianBelief.serialize (belief : BayesianBelief) : Data :=
  .map [("prior", belief.prior.serialize), ("posterior", belief.posterior.serialize),
    ("evidence", .seq (belief.evidence.map BayesianEvidence.serialize))]

/-- The observations of the wire, each observed once. -/
def observeEach : List BayesianEvidence → BTreeSet EvidenceId → Command BayesianBelief DecodeError Unit
  | [], _ => return ()
  | observation :: rest, evidenceIds => do
    if evidenceIds.contains observation.evidenceId then
      throw (.custom s!"duplicate Bayesian evidence id {observation.evidenceId.value}")
    let _ ← Command.mapErr (fun e => .custom e.message) (observe observation)
    observeEach rest (evidenceIds.insert observation.evidenceId)

def BayesianBelief.deserialize (data : Data) : Command Unit DecodeError BayesianBelief := do
  let wire ← WireBelief.deserialize data
  let (_, belief) ← Command.locally (BayesianBelief.new wire.prior) (observeEach wire.evidence ∅)
  if belief.posterior ≠ wire.posterior then
    throw (.custom (s!"serialized posterior {wire.posterior.partsPerMillion} does not match " ++
      s!"computed posterior {belief.posterior.partsPerMillion}"))
  return belief

end Termivar
