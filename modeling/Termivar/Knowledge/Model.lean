/-
# The knowledge base

`termivar-scanner/src/knowledge/`: the state behind the lock, with its
secondary indexes and its revisions, and the operations that write it. The
hash maps of the sources are ordered maps here; where the sources iterate over
one (the records of a batch), the order is a parameter of the call
(`HashOrder`), as are the readings of the clock.
-/
import Termivar.CycleSearch
import Termivar.SecondaryIndex
import Termivar.Knowledge.Records
import Termivar.Ontology.Model

namespace Termivar

open SecondaryIndex Command

/-! ### State and errors -/

/-- Result of an idempotent write to the knowledge base. -/
inductive KnowledgeWrite where
  | inserted
  | updated
  | unchanged
  deriving DecidableEq

inductive KnowledgeRecordKind where
  | evidence
  | fact
  | hypothesis
  | entity
  | relation
  deriving DecidableEq

/-- Errors raised when a knowledge record violates storage or identity
invariants. -/
inductive KnowledgeBaseError where
  | snapshotAuthorityMismatch (subject : EntityId)
  | identityConflict (kind : KnowledgeRecordKind) (id : String)
  | relationEvidenceMismatch (relationId evidenceId : String)
  | relationSubjectMismatch (relationId evidenceSubject relationFrom : String)
  | relationLimitExceeded (field : String) (actual maximum : Nat)
  | staleSnapshot (subject : EntityId) (expectedSubjectRevision actualSubjectRevision
      expectedOntologyRevision actualOntologyRevision : Nat)
  | reasoningSubjectMismatch (hypothesisId : String) (expected actual : EntityId)
  | missingDerivationParent (child parent : String)
  | selfDerivation (evidenceId : String)
  | derivationSubjectMismatch (child parent : String)
  | derivationCycle (evidenceId : String)
  deriving DecidableEq

structure KnowledgeState where
  ontology : Ontology
  ontologyRevision : Nat
  subjectRevisions : BTreeMap EntityId Nat
  evidence : BTreeMap EvidenceId Evidence
  facts : BTreeMap String Fact
  hypotheses : BTreeMap String Hypothesis
  entities : BTreeMap EntityId KnowledgeEntity
  relations : BTreeMap RelationId KnowledgeRelation
  evidenceBySubject : BTreeMap EntityId (BTreeSet EvidenceId)
  evidenceByPredicate : BTreeMap KnowledgePredicate (BTreeSet EvidenceId)
  derivationChildren : BTreeMap EvidenceId (BTreeSet EvidenceId)
  factsBySubject : BTreeMap EntityId (BTreeSet String)
  factsByPredicate : BTreeMap KnowledgePredicate (BTreeSet String)
  hypothesesBySubject : BTreeMap EntityId (BTreeSet String)
  hypothesesByPredicate : BTreeMap KnowledgePredicate (BTreeSet String)
  (relationsFrom relationsTo : BTreeMap EntityId (BTreeSet RelationId))

/-- An empty knowledge base with the standard ontology relation types. -/
def KnowledgeState.new : KnowledgeState where
  ontology := .new
  ontologyRevision := 0
  subjectRevisions := ∅
  evidence := ∅
  facts := ∅
  hypotheses := ∅
  entities := ∅
  relations := ∅
  evidenceBySubject := ∅
  evidenceByPredicate := ∅
  derivationChildren := ∅
  factsBySubject := ∅
  factsByPredicate := ∅
  hypothesesBySubject := ∅
  hypothesesByPredicate := ∅
  relationsFrom := ∅
  relationsTo := ∅

/-- The opaque identity of one knowledge base, shared with its snapshots. -/
structure KnowledgeAuthority where
  token : Nat
  deriving DecidableEq

/-- Consistent, immutable knowledge for one subject at one point in time. -/
structure KnowledgeSnapshot where
  authority : KnowledgeAuthority
  subject : EntityId
  (subjectRevision ontologyRevision : Nat)
  ontology : Ontology
  evidence : List Evidence
  facts : List Fact
  hypotheses : List Hypothesis

/-! ### Reads -/

namespace KnowledgeState

variable (state : KnowledgeState)

variable (subject : EntityId)

def subjectRevision : Nat := state.subjectRevisions[subject]?.getD 0

def evidenceForSubject : List Evidence :=
  collectIndexed state.evidenceBySubject[subject]? state.evidence

def factsForSubject : List Fact :=
  collectIndexed state.factsBySubject[subject]? state.facts

def hypothesesForSubject : List Hypothesis :=
  collectIndexed state.hypothesesBySubject[subject]? state.hypotheses

/-- All rule-visible knowledge for a subject. -/
def snapshotForSubject (authority : KnowledgeAuthority) (subject : EntityId) : KnowledgeSnapshot where
  authority := authority
  subject := subject
  subjectRevision := state.subjectRevision subject
  ontologyRevision := state.ontologyRevision
  ontology := state.ontology
  evidence := state.evidenceForSubject subject
  facts := state.factsForSubject subject
  hypotheses := state.hypothesesForSubject subject

def validateRevisions (expectedSubjectRevision expectedOntologyRevision : Nat) :
    Except KnowledgeBaseError Unit :=
  if state.subjectRevision subject ≠ expectedSubjectRevision ∨
      state.ontologyRevision ≠ expectedOntologyRevision then
    .error (.staleSnapshot subject expectedSubjectRevision (state.subjectRevision subject)
      expectedOntologyRevision state.ontologyRevision)
  else .ok ()

end KnowledgeState

abbrev KnowledgeCommand (ε α : Type) : Type := Command KnowledgeState ε α

section Writes

variable {ε : Type}

/-! ### Revisions -/

def bumpSubjectRevision (subject : EntityId) : KnowledgeCommand ε Unit := do
  let state ← get
  match checkedAdd u64Max (state.subjectRevision subject) 1 with
  | some revision =>
    set { state with subjectRevisions := state.subjectRevisions.insert subject revision }
  | none => unwind

def bumpOntologyRevision : KnowledgeCommand ε Unit := do
  let state ← get
  match checkedAdd u64Max state.ontologyRevision 1 with
  | some ontologyRevision => set { state with ontologyRevision }
  | none => unwind

/-! ### Ontology -/

/-- A write on the ontology; an insertion is a new ontology revision. -/
def registerWith (write : OntologyCommand OntologyWrite) :
    KnowledgeCommand OntologyError OntologyWrite := do
  let written ← zoom KnowledgeState.ontology (fun state ontology => { state with ontology })
    write
  if written = .inserted then bumpOntologyRevision
  return written

def registerConcept (concept : OntologyConcept) : KnowledgeCommand OntologyError OntologyWrite :=
  registerWith (addConcept concept)

def registerRelationType (relationType : OntologyRelationType) :
    KnowledgeCommand OntologyError OntologyWrite :=
  registerWith (addRelationType relationType)

def registerAxiom (ax : OntologyAxiom) : KnowledgeCommand OntologyError OntologyWrite :=
  registerWith (addAxiom ax)

/-- The number of insertions among the writes. -/
def countInserted {α : Type} (write : α → OntologyCommand OntologyWrite) :
    List α → OntologyCommand Nat
  | [] => return 0
  | x :: xs => do
    let written ← write x
    let rest ← countInserted write xs
    return (if written = .inserted then 1 else 0) + rest

def installOntologyDefinitions (concepts : List OntologyConcept) (axioms : List OntologyAxiom) :
    KnowledgeCommand OntologyError (Nat × Nat) := do
  let state ← get
  let ((conceptsInserted, axiomsInserted), prospective) ← locally state.ontology do
    let conceptsInserted ← countInserted addConcept concepts
    let axiomsInserted ← countInserted addAxiom axioms
    return (conceptsInserted, axiomsInserted)
  set { state with ontology := prospective }
  if conceptsInserted ≠ 0 ∨ axiomsInserted ≠ 0 then bumpOntologyRevision
  return (conceptsInserted, axiomsInserted)

/-! ### Lineage -/

/-- An order in which a hash map may be iterated. -/
structure HashOrder where
  entries : BTreeMap EvidenceId Evidence → List (EvidenceId × Evidence)
  perm : ∀ records, (entries records).Perm records.toList

variable (state : KnowledgeState)

/-- One parent reference of a record: it is another record, of the batch or
of the store, with the same subject. -/
def checkParent (pending : BTreeMap EvidenceId Evidence)
    (childId : EvidenceId) (child : Evidence) (parent : EvidenceId) :
    Except KnowledgeBaseError Unit :=
  if parent = childId then .error (.selfDerivation childId.value)
  else
    match (pending[parent]?.map Evidence.subject).or (state.evidence[parent]?.map Evidence.subject) with
    | none => .error (.missingDerivationParent childId.value parent.value)
    | some parentSubject =>
      if parentSubject ≠ child.subject then
        .error (.derivationSubjectMismatch childId.value parent.value)
      else .ok ()

/-- The parents that are records of the batch. -/
def batchAdjacency (pending : BTreeMap EvidenceId Evidence) : BTreeMap EvidenceId (List EvidenceId) :=
  pending.map fun _ evidence => evidence.parents.filter fun parent => pending.contains parent

def detectBatchDerivationCycles (order : HashOrder) (pending : BTreeMap EvidenceId Evidence) :
    KnowledgeCommand KnowledgeBaseError Unit :=
  CycleSearch.detect (batchAdjacency pending) (fun next => .derivationCycle next.value)
    ((order.entries pending).map Prod.fst)

/-- The lineage of a batch, before any record of it is written. -/
def validateBatchDerivations (order : HashOrder) (pending : BTreeMap EvidenceId Evidence) :
    KnowledgeCommand KnowledgeBaseError Unit := do
  let state ← get
  Checked.each (fun entry => Checked.each (checkParent state pending entry.1 entry.2) entry.2.parents)
    (order.entries pending)
  detectBatchDerivationCycles order pending

variable (authority : KnowledgeAuthority) (evidence : Evidence) (relation : KnowledgeRelation)

/-- The reverse derivation edges of a new record. -/
def indexDerivation : KnowledgeCommand ε Unit :=
  modify fun state => { state with
    derivationChildren := evidence.parents.foldl
      (fun children parent => index children parent evidence.id) state.derivationChildren }

/-! ### Evidence -/

/-- The record, its subject's revision and its index entries. -/
def recordEvidence : KnowledgeCommand ε Unit := do
  modify fun state => { state with evidence := state.evidence.insert evidence.id evidence }
  bumpSubjectRevision evidence.subject
  modify fun state => { state with
    evidenceBySubject := index state.evidenceBySubject evidence.subject evidence.id
    evidenceByPredicate := index state.evidenceByPredicate evidence.predicate evidence.id }

def insertEvidence (order : HashOrder) (evidence : Evidence) :
    KnowledgeCommand KnowledgeBaseError KnowledgeWrite := do
  let state ← get
  match state.evidence[evidence.id]? with
  | some existing =>
    if existing = evidence then return .unchanged
    else throw (.identityConflict .evidence evidence.id.value)
  | none => do
    if evidence.origin.derivation.isSome then
      validateBatchDerivations order ((∅ : BTreeMap EvidenceId Evidence).insert evidence.id evidence)
    indexDerivation evidence
    recordEvidence evidence
    return .inserted

/-- One record joins the batch, unless its identifier has another meaning. -/
def collectEvidence (pending : BTreeMap EvidenceId Evidence)
    (observation : Evidence) : Except KnowledgeBaseError (BTreeMap EvidenceId Evidence) :=
  if state.evidence[observation.id]?.any (· ≠ observation) ||
      pending[observation.id]?.any (· ≠ observation) then
    .error (.identityConflict .evidence observation.id.value)
  else .ok (if pending.contains observation.id then pending
    else pending.insert observation.id observation)

/-- The distinct records of a batch. -/
def pendingEvidence (evidence : List Evidence) :
    Except KnowledgeBaseError (BTreeMap EvidenceId Evidence) :=
  evidence.foldlM (collectEvidence state) ∅

/-- The records of the batch that are not stored yet. -/
def recordEvidenceBatch : List Evidence → KnowledgeCommand ε (List KnowledgeWrite)
  | [] => return []
  | observation :: rest => do
    let state ← get
    let write ←
      if state.evidence.contains observation.id then pure KnowledgeWrite.unchanged
      else do
        indexDerivation observation
        recordEvidence observation
        pure KnowledgeWrite.inserted
    let writes ← recordEvidenceBatch rest
    return write :: writes

def insertEvidenceBatch (order : HashOrder) (evidence : List Evidence) :
    KnowledgeCommand KnowledgeBaseError (List KnowledgeWrite) := do
  let state ← get
  let pending ← pendingEvidence state evidence
  validateBatchDerivations order pending
  recordEvidenceBatch evidence

/-! ### Facts -/

def upsertFact (fact : Fact) : KnowledgeCommand KnowledgeBaseError KnowledgeWrite := do
  let state ← get
  match state.facts[fact.id]? with
  | some existing =>
    if existing = fact then return .unchanged
    else if existing.subject ≠ fact.subject ∨ existing.predicate ≠ fact.predicate ∨
        existing.value ≠ fact.value then
      throw (.identityConflict .fact fact.id)
    else do
      set { state with facts := state.facts.insert fact.id fact }
      bumpSubjectRevision fact.subject
      return .updated
  | none => do
    set { state with facts := state.facts.insert fact.id fact }
    bumpSubjectRevision fact.subject
    modify fun state => { state with
      factsBySubject := index state.factsBySubject fact.subject fact.id
      factsByPredicate := index state.factsByPredicate fact.predicate fact.id }
    return .inserted

/-! ### Hypotheses -/

def sameHypothesisClaim (left right : Hypothesis) : Bool :=
  left.subject = right.subject && left.predicate = right.predicate && left.value = right.value

def isTerminalHypothesisState : HypothesisState → Bool
  | .confirmed => true
  | .rejected => true
  | _ => false

/-- One hypothesis joins the batch, unless its identifier has another claim in
the store or another evaluation in the batch. -/
def collectHypothesis (pending : BTreeMap String Hypothesis)
    (hypothesis : Hypothesis) : Except KnowledgeBaseError (BTreeMap String Hypothesis) :=
  if state.hypotheses[hypothesis.id]?.any (fun existing => !sameHypothesisClaim existing hypothesis) ||
      pending[hypothesis.id]?.any (fun existing => !existing.sameEvaluationAs hypothesis) then
    .error (.identityConflict .hypothesis hypothesis.id)
  else .ok (if pending.contains hypothesis.id then pending
    else pending.insert hypothesis.id hypothesis)

/-- The distinct hypotheses of a batch. -/
def pendingHypotheses (hypotheses : List Hypothesis) :
    Except KnowledgeBaseError (BTreeMap String Hypothesis) :=
  hypotheses.foldlM (collectHypothesis state) ∅

/-- A stored terminal state is kept by the rule-produced hypothesis. -/
def preserveTerminalState (hypothesis : Hypothesis) (now : Nat) :
    Hypothesis :=
  match state.hypotheses[hypothesis.id]? with
  | some existing =>
    if isTerminalHypothesisState existing.state then hypothesis.setState existing.state now
    else hypothesis
  | none => hypothesis

/-- Write one hypothesis of a batch. -/
def recordHypothesis (hypothesis : Hypothesis) : KnowledgeCommand ε KnowledgeWrite := do
  let state ← get
  match state.hypotheses[hypothesis.id]? with
  | some existing =>
    if existing.sameEvaluationAs hypothesis then return .unchanged
    else do
      set { state with hypotheses := state.hypotheses.insert hypothesis.id hypothesis }
      bumpSubjectRevision hypothesis.subject
      return .updated
  | none => do
    set { state with hypotheses := state.hypotheses.insert hypothesis.id hypothesis }
    bumpSubjectRevision hypothesis.subject
    modify fun state => { state with
      hypothesesBySubject := index state.hypothesesBySubject hypothesis.subject hypothesis.id
      hypothesesByPredicate := index state.hypothesesByPredicate hypothesis.predicate hypothesis.id }
    return .inserted

/-- The hypotheses of a batch in order, each with a reading of the clock. -/
def recordHypothesisBatch (preserve : Bool) (clock : Nat → Nat) :
    List Hypothesis → Nat → KnowledgeCommand ε (List KnowledgeWrite)
  | [], _ => return []
  | hypothesis :: rest, turn => do
    let state ← get
    let write ← recordHypothesis
      (if preserve then preserveTerminalState state hypothesis (clock turn) else hypothesis)
    let writes ← recordHypothesisBatch preserve clock rest (turn + 1)
    return write :: writes

def validateSnapshotAuthority (snapshot : KnowledgeSnapshot) :
    Except KnowledgeBaseError Unit :=
  if authority = snapshot.authority then .ok ()
  else .error (.snapshotAuthorityMismatch snapshot.subject)

def upsertHypothesisBatchWithPolicy (hypotheses : List Hypothesis)
    (preserveTerminalState : Bool) (expectedSnapshot : Option KnowledgeSnapshot) (clock : Nat → Nat) :
    KnowledgeCommand KnowledgeBaseError (List KnowledgeWrite) := do
  if let some snapshot := expectedSnapshot then validateSnapshotAuthority authority snapshot
  let state ← get
  if let some snapshot := expectedSnapshot then
    state.validateRevisions snapshot.subject snapshot.subjectRevision snapshot.ontologyRevision
  let _ ← pendingHypotheses state hypotheses
  recordHypothesisBatch preserveTerminalState clock hypotheses 0

def upsertHypothesisBatch (hypotheses : List Hypothesis) :
    KnowledgeCommand KnowledgeBaseError (List KnowledgeWrite) :=
  upsertHypothesisBatchWithPolicy authority hypotheses false none fun _ => 0

/-- `writes[0]` of a batch of one. -/
def upsertHypothesis (hypothesis : Hypothesis) :
    KnowledgeCommand KnowledgeBaseError KnowledgeWrite := do
  let writes ← upsertHypothesisBatch authority [hypothesis]
  match writes with
  | write :: _ => return write
  | [] => unwind

def upsertReasoningHypothesisBatch (snapshot : KnowledgeSnapshot)
    (hypotheses : List Hypothesis) (clock : Nat → Nat) :
    KnowledgeCommand KnowledgeBaseError (List KnowledgeWrite) := do
  if let some hypothesis := hypotheses.find? fun h => h.subject ≠ snapshot.subject then
    throw (.reasoningSubjectMismatch hypothesis.id snapshot.subject hypothesis.subject)
  upsertHypothesisBatchWithPolicy authority hypotheses true (some snapshot) clock

inductive HypothesisStateTransition where
  | missing
  | subjectMismatch (actual : EntityId)
  | staleSnapshot (failure : KnowledgeBaseError)
  | terminalConflict (current attempted : HypothesisState)
  | written (write : KnowledgeWrite)
  deriving DecidableEq

/-- The check of the expected revisions, if the caller gave any. -/
def staleRevisions (subject : EntityId) :
    Option (Nat × Nat) → Option KnowledgeBaseError
  | none => none
  | some (expectedSubject, expectedOntology) =>
    match state.validateRevisions subject expectedSubject expectedOntology with
    | .ok _ => none
    | .error e => some e

def transitionHypothesisState (hypothesisId : String) (expectedSubject : EntityId)
    (newState : HypothesisState) (expectedRevisions : Option (Nat × Nat)) (now : Nat) :
    KnowledgeCommand ε HypothesisStateTransition := do
  let state ← get
  match state.hypotheses[hypothesisId]? with
  | none => return .missing
  | some hypothesis =>
    if hypothesis.subject ≠ expectedSubject then return .subjectMismatch hypothesis.subject
    else if hypothesis.state = newState then return .written .unchanged
    else if isTerminalHypothesisState hypothesis.state && isTerminalHypothesisState newState then
      return .terminalConflict hypothesis.state newState
    else
      match staleRevisions state expectedSubject expectedRevisions with
      | some failure => return .staleSnapshot failure
      | none => do
        set { state with
          hypotheses := state.hypotheses.insert hypothesisId (hypothesis.setState newState now) }
        bumpSubjectRevision expectedSubject
        return .written .updated

/-! ### Entities and relations -/

def insertEntity (entity : KnowledgeEntity) : KnowledgeCommand KnowledgeBaseError KnowledgeWrite := do
  let state ← get
  match state.entities[entity.id]? with
  | some existing =>
    if existing = entity then return .unchanged
    else throw (.identityConflict .entity entity.id.value)
  | none => do
    set { state with entities := state.entities.insert entity.id entity }
    return .inserted

def maxKnowledgeRelationIdBytes : Nat := 512
def maxKnowledgeRelationEntityIdBytes : Nat := 2048
def maxKnowledgeRelationKindBytes : Nat := 256
def maxKnowledgeRelationEvidenceIds : Nat := 32
def maxKnowledgeRelationEvidenceIdBytes : Nat := 512

def validateRelationLimit (field : String) (actual maximum : Nat) : Except KnowledgeBaseError Unit :=
  if actual > maximum then .error (.relationLimitExceeded field actual maximum) else .ok ()

/-- The bytes of a custom relation kind. -/
def RelationKind.customBytes : RelationKind → Nat
  | .custom name => name.utf8ByteSize
  | _ => 0

def validateRelationBounds : Except KnowledgeBaseError Unit := do
  validateRelationLimit "id" relation.id.value.utf8ByteSize maxKnowledgeRelationIdBytes
  validateRelationLimit "from" relation.source.value.utf8ByteSize maxKnowledgeRelationEntityIdBytes
  validateRelationLimit "to" relation.target.value.utf8ByteSize maxKnowledgeRelationEntityIdBytes
  validateRelationLimit "kind" relation.kind.customBytes maxKnowledgeRelationKindBytes
  validateRelationLimit "evidence_ids" relation.evidenceIds.size maxKnowledgeRelationEvidenceIds
  Checked.each (fun evidenceId : EvidenceId => validateRelationLimit "evidence_id"
    evidenceId.value.utf8ByteSize maxKnowledgeRelationEvidenceIdBytes) relation.evidenceIds.toList

/-- What writing the relation would do. -/
def relationWrite (relation : KnowledgeRelation) :
    Except KnowledgeBaseError KnowledgeWrite :=
  match state.relations[relation.id]? with
  | some existing =>
    if existing = relation then .ok .unchanged
    else if existing.source = relation.source ∧ existing.target = relation.target ∧
        existing.kind = relation.kind then .ok .updated
    else .error (.identityConflict .relation relation.id.value)
  | none => .ok .inserted

/-- Write the relation, and index it if it is new. -/
def recordRelation (write : KnowledgeWrite) :
    KnowledgeCommand ε Unit := do
  if write ≠ .unchanged then
    modify fun state => { state with relations := state.relations.insert relation.id relation }
    if write = .inserted then
      modify fun state => { state with
        relationsFrom := index state.relationsFrom relation.source relation.id
        relationsTo := index state.relationsTo relation.target relation.id }

def upsertRelation :
    KnowledgeCommand KnowledgeBaseError KnowledgeWrite := do
  validateRelationBounds relation
  let state ← get
  let write ← relationWrite state relation
  recordRelation relation write
  return write

/-- The relation of a bundle cites its evidence only and starts at its subject. -/
def checkBundle :
    Except KnowledgeBaseError Unit := do
  validateRelationBounds relation
  if relation.evidenceIds.size ≠ 1 ∨ relation.evidenceIds.contains evidence.id = false then
    throw (.relationEvidenceMismatch relation.id.value evidence.id.value)
  if relation.source ≠ evidence.subject then
    throw (.relationSubjectMismatch relation.id.value evidence.subject.value relation.source.value)

/-- What writing the evidence of a bundle would do. -/
def bundledWrite (evidence : Evidence) :
    Except KnowledgeBaseError KnowledgeWrite :=
  match state.evidence[evidence.id]? with
  | some existing =>
    if existing = evidence then .ok .unchanged
    else .error (.identityConflict .evidence evidence.id.value)
  | none => .ok .inserted

def insertEvidenceWithRelation :
    KnowledgeCommand KnowledgeBaseError (KnowledgeWrite × KnowledgeWrite) := do
  checkBundle evidence relation
  let state ← get
  let evidenceWrite ← bundledWrite state evidence
  let relationWrite ← relationWrite state relation
  if evidenceWrite = .inserted then recordEvidence evidence
  recordRelation relation relationWrite
  return (evidenceWrite, relationWrite)

/-! ### Snapshots -/

/-- Runs an external commit only while a snapshot is current. -/
def commitIfSnapshotCurrent {α : Type} (snapshot : KnowledgeSnapshot)
    (commit : Unit → α) : KnowledgeCommand KnowledgeBaseError α := do
  validateSnapshotAuthority authority snapshot
  let state ← get
  state.validateRevisions snapshot.subject snapshot.subjectRevision snapshot.ontologyRevision
  return commit ()

end Writes

/-! ### Runs -/

/-- A call of a writing operation, with the iteration order and the clock
readings it meets. -/
inductive KnowledgeOp where
  | registerConcept (concept : OntologyConcept)
  | registerRelationType (relationType : OntologyRelationType)
  | registerAxiom (ax : OntologyAxiom)
  | installOntologyDefinitions (concepts : List OntologyConcept) (axioms : List OntologyAxiom)
  | insertEvidence (order : HashOrder) (evidence : Evidence)
  | insertEvidenceBatch (order : HashOrder) (evidence : List Evidence)
  | insertEvidenceWithRelation (evidence : Evidence) (relation : KnowledgeRelation)
  | insertEntity (entity : KnowledgeEntity)
  | upsertRelation (relation : KnowledgeRelation)
  | upsertFact (fact : Fact)
  | upsertHypothesis (hypothesis : Hypothesis)
  | upsertHypothesisBatch (hypotheses : List Hypothesis)
  | upsertReasoningHypothesisBatch (snapshot : KnowledgeSnapshot) (hypotheses : List Hypothesis)
      (clock : Nat → Nat)
  | transitionHypothesisState (hypothesisId : String) (expectedSubject : EntityId)
      (newState : HypothesisState) (expectedRevisions : Option (Nat × Nat)) (now : Nat)
  | commitIfSnapshotCurrent (snapshot : KnowledgeSnapshot)

/-- What a call returns. -/
inductive KnowledgeReply where
  | write (write : KnowledgeWrite)
  | writes (writes : List KnowledgeWrite)
  | bundle (evidence relation : KnowledgeWrite)
  | ontology (write : OntologyWrite)
  | installed (concepts axioms : Nat)
  | transition (transition : HypothesisStateTransition)
  | committed
  deriving DecidableEq

/-- The errors of the knowledge base and of its ontology. -/
inductive KnowledgeFailure where
  | base (failure : KnowledgeBaseError)
  | ontology (failure : OntologyError)

def KnowledgeOp.exec (authority : KnowledgeAuthority) :
    KnowledgeOp → KnowledgeCommand KnowledgeFailure KnowledgeReply
  | .registerConcept concept =>
    .ontology <$> mapErr .ontology (Termivar.registerConcept concept)
  | .registerRelationType relationType =>
    .ontology <$> mapErr .ontology (Termivar.registerRelationType relationType)
  | .registerAxiom ax => .ontology <$> mapErr .ontology (Termivar.registerAxiom ax)
  | .installOntologyDefinitions concepts axioms =>
    (fun counts => .installed counts.1 counts.2) <$>
      mapErr .ontology (Termivar.installOntologyDefinitions concepts axioms)
  | .insertEvidence order evidence =>
    .write <$> mapErr .base (Termivar.insertEvidence order evidence)
  | .insertEvidenceBatch order evidence =>
    .writes <$> mapErr .base (Termivar.insertEvidenceBatch order evidence)
  | .insertEvidenceWithRelation evidence relation =>
    (fun writes => .bundle writes.1 writes.2) <$>
      mapErr .base (Termivar.insertEvidenceWithRelation evidence relation)
  | .insertEntity entity => .write <$> mapErr .base (Termivar.insertEntity entity)
  | .upsertRelation relation => .write <$> mapErr .base (Termivar.upsertRelation relation)
  | .upsertFact fact => .write <$> mapErr .base (Termivar.upsertFact fact)
  | .upsertHypothesis hypothesis =>
    .write <$> mapErr .base (Termivar.upsertHypothesis authority hypothesis)
  | .upsertHypothesisBatch hypotheses =>
    .writes <$> mapErr .base (Termivar.upsertHypothesisBatch authority hypotheses)
  | .upsertReasoningHypothesisBatch snapshot hypotheses clock =>
    .writes <$> mapErr .base
      (Termivar.upsertReasoningHypothesisBatch authority snapshot hypotheses clock)
  | .transitionHypothesisState hypothesisId expectedSubject newState expectedRevisions now =>
    .transition <$> Termivar.transitionHypothesisState hypothesisId expectedSubject newState
      expectedRevisions now
  | .commitIfSnapshotCurrent snapshot =>
    mapErr .base (Termivar.commitIfSnapshotCurrent authority snapshot fun _ => .committed)

end Termivar
