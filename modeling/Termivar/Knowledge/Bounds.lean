/-
# Stored relations are bounded

The bounds of a relation are checked before it is written, and no other call
touches the relations, so in every state reached each stored relation is
within its bounds.
-/
import Termivar.Knowledge.Indexing

namespace Termivar

open SecondaryIndex Relation Command

/-- Every stored relation passes its checks. -/
def Bounded (s : KnowledgeState) : Prop :=
  ∀ (id : RelationId) (relation : KnowledgeRelation), s.relations[id]? = some relation →
    validateRelationBounds relation = .ok ()

/-- The command leaves the relations bounded, whether it returns or fails. -/
def Keeps {ε α : Type} (x : KnowledgeCommand ε α) : Prop :=
  ∀ s, Bounded s → wp x (fun _ t => Bounded t) (fun _ t => Bounded t) True s

section Keeps

variable {ε ε' α β : Type} {s t : KnowledgeState}

theorem bounded_new : Bounded .new := by
  intro id relation hget
  simp [KnowledgeState.new] at hget

theorem Keeps.reply {x : KnowledgeCommand ε α} (h : Keeps x) (f : α → β) (g : ε → ε') :
    Keeps (f <$> mapErr g x) := by
  intro s hs
  rw [wp_map, wp_mapErr]
  exact h s hs

/-! ### Calls that write no relation -/

theorem registerWith_keeps (write : OntologyCommand OntologyWrite) : Keeps (registerWith write) := by
  intro s hs
  unfold registerWith
  rw [wp_bind, wp_zoom]
  refine wp_of_forall (fun written ontology => ?_) (fun _ _ => hs) trivial
  simp only [wp_rules, wp_bumpOntologyRevision]
  exact ⟨fun _ => ⟨fun _ => hs, fun _ => trivial⟩, fun _ => hs⟩

theorem installOntologyDefinitions_keeps (concepts : List OntologyConcept)
    (axioms : List OntologyAxiom) : Keeps (installOntologyDefinitions concepts axioms) := by
  intro s hs
  unfold installOntologyDefinitions
  rw [wp_bind, wp_get, wp_bind, wp_locally]
  refine wp_of_forall (fun inserted ontology => ?_) (fun _ _ => hs) trivial
  simp only [wp_rules, wp_bumpOntologyRevision]
  exact ⟨fun _ => ⟨fun _ => hs, fun _ => trivial⟩, fun _ => hs⟩

theorem insertEvidence_keeps (order : HashOrder) (evidence : Evidence) :
    Keeps (insertEvidence order evidence) := by
  intro s hs
  unfold insertEvidence
  rw [wp_bind, wp_get]
  cases s.evidence[evidence.id]? with
  | some existing => simpa using hs
  | none =>
    simp only [wp_rules, wp_indexDerivation, wp_recordEvidence]
    refine ⟨fun _ => ?_, fun _ => ⟨fun _ => hs, fun _ => trivial⟩⟩
    refine wp_mono (validateBatchDerivations_spec order _) (fun _ t ht => ?_) (fun _ t ht => ?_)
      (fun _ => trivial)
    · rw [ht.1]
      exact ⟨fun _ => hs, fun _ => trivial⟩
    · rw [ht]
      exact hs

theorem recordEvidenceBatch_keeps : ∀ evidence : List Evidence,
    Keeps (recordEvidenceBatch evidence : KnowledgeCommand ε (List KnowledgeWrite))
  | [], _, hs => hs
  | observation :: rest, s, hs => by
    unfold recordEvidenceBatch
    simp only [wp_rules, wp_indexDerivation, wp_recordEvidence]
    exact ⟨fun _ => recordEvidenceBatch_keeps rest s hs, fun _ =>
      ⟨fun _ => recordEvidenceBatch_keeps rest _ hs, fun _ => trivial⟩⟩

theorem insertEvidenceBatch_keeps (order : HashOrder) (evidence : List Evidence) :
    Keeps (insertEvidenceBatch order evidence) := by
  intro s hs
  unfold insertEvidenceBatch
  rw [wp_bind, wp_get, wp_bind, wp_lift]
  refine Checked.wp_of_forall (fun pending => ?_) (fun _ => hs)
  rw [wp_bind]
  refine wp_mono (validateBatchDerivations_spec order pending) (fun _ t ht => ?_) (fun _ t ht => ?_)
    (fun _ => trivial)
  · rw [ht.1]
    exact recordEvidenceBatch_keeps evidence s hs
  · rw [ht]
    exact hs

theorem upsertFact_keeps (fact : Fact) : Keeps (upsertFact fact) := by
  intro s hs
  unfold upsertFact
  rw [wp_bind, wp_get]
  cases s.facts[fact.id]? with
  | none =>
    simp only [wp_rules, wp_bumpSubjectRevision]
    exact ⟨fun _ => hs, fun _ => trivial⟩
  | some existing =>
    simp only [wp_rules, wp_bumpSubjectRevision]
    exact ⟨fun _ => hs, fun _ => ⟨fun _ => hs, fun _ => ⟨fun _ => hs, fun _ => trivial⟩⟩⟩

theorem recordHypothesis_keeps (hypothesis : Hypothesis) :
    Keeps (recordHypothesis hypothesis : KnowledgeCommand ε KnowledgeWrite) := by
  intro s hs
  unfold recordHypothesis
  rw [wp_bind, wp_get]
  cases s.hypotheses[hypothesis.id]? with
  | none =>
    simp only [wp_rules, wp_bumpSubjectRevision]
    exact ⟨fun _ => hs, fun _ => trivial⟩
  | some existing =>
    simp only [wp_rules, wp_bumpSubjectRevision]
    exact ⟨fun _ => hs, fun _ => ⟨fun _ => hs, fun _ => trivial⟩⟩

theorem recordHypothesisBatch_keeps (preserve : Bool) (clock : Nat → Nat) :
    ∀ (hypotheses : List Hypothesis) (turn : Nat), Keeps (recordHypothesisBatch preserve clock
      hypotheses turn : KnowledgeCommand ε (List KnowledgeWrite))
  | [], _, _, hs => hs
  | hypothesis :: rest, turn, s, hs => by
    unfold recordHypothesisBatch
    simp only [wp_rules]
    exact wp_mono (recordHypothesis_keeps _ s hs)
      (fun _ t ht => recordHypothesisBatch_keeps preserve clock rest (turn + 1) t ht)
      (fun _ _ h => h) id

variable (authority : KnowledgeAuthority)

theorem upsertHypothesisBatchWithPolicy_keeps (hypotheses : List Hypothesis) (preserve : Bool)
    (expectedSnapshot : Option KnowledgeSnapshot)
    (clock : Nat → Nat) : Keeps
      (upsertHypothesisBatchWithPolicy authority hypotheses preserve expectedSnapshot clock) := by
  intro s hs
  have hwr : wp (do
      let _ ← pendingHypotheses s hypotheses
      recordHypothesisBatch preserve clock hypotheses 0 :
        KnowledgeCommand KnowledgeBaseError (List KnowledgeWrite))
      (fun _ t => Bounded t) (fun _ t => Bounded t) True s := by
    rw [wp_bind, wp_lift]
    exact Checked.wp_of_forall
      (fun _ => recordHypothesisBatch_keeps preserve clock hypotheses 0 s hs) (fun _ => hs)
  unfold upsertHypothesisBatchWithPolicy
  cases expectedSnapshot with
  | none => exact hwr
  | some snapshot =>
    simp only [wp_rules]
    refine Checked.wp_of_forall (fun _ => ?_) (fun _ => hs)
    refine Checked.wp_of_forall (fun _ => ?_) (fun _ => hs)
    simpa using hwr

theorem upsertHypothesis_keeps (hypothesis : Hypothesis) :
    Keeps (upsertHypothesis authority hypothesis) := by
  intro s hs
  unfold upsertHypothesis upsertHypothesisBatch
  rw [wp_bind]
  refine wp_mono (upsertHypothesisBatchWithPolicy_keeps authority [hypothesis] false none _ s hs)
    (fun writes t ht => ?_) (fun _ _ ht => ht) id
  cases writes with
  | nil => trivial
  | cons write rest => exact ht

theorem upsertReasoningHypothesisBatch_keeps (snapshot : KnowledgeSnapshot)
    (hypotheses : List Hypothesis) (clock : Nat → Nat) :
    Keeps (upsertReasoningHypothesisBatch authority snapshot hypotheses clock) := by
  intro s hs
  unfold upsertReasoningHypothesisBatch
  cases hypotheses.find? fun h => h.subject ≠ snapshot.subject with
  | some hypothesis => exact hs
  | none =>
    exact upsertHypothesisBatchWithPolicy_keeps authority hypotheses true (some snapshot) clock s hs

theorem transitionHypothesisState_keeps (hypothesisId : String) (expectedSubject : EntityId)
    (newState : HypothesisState) (expectedRevisions : Option (Nat × Nat)) (now : Nat) :
    Keeps (transitionHypothesisState hypothesisId expectedSubject newState expectedRevisions now :
      KnowledgeCommand ε HypothesisStateTransition) := by
  intro s hs
  unfold transitionHypothesisState
  rw [wp_bind, wp_get]
  cases s.hypotheses[hypothesisId]? with
  | none => exact hs
  | some hypothesis =>
    simp only [wp_rules]
    refine ⟨fun _ => hs, fun _ => ⟨fun _ => hs, fun _ => ⟨fun _ => hs, fun _ => ?_⟩⟩⟩
    cases staleRevisions s expectedSubject expectedRevisions with
    | some failure => exact hs
    | none =>
      simp only [wp_rules, wp_bumpSubjectRevision]
      exact ⟨fun _ => hs, fun _ => trivial⟩

theorem insertEntity_keeps (entity : KnowledgeEntity) : Keeps (insertEntity entity) := by
  intro s hs
  unfold insertEntity
  rw [wp_bind, wp_get]
  cases s.entities[entity.id]? with
  | none => exact hs
  | some existing => simpa using hs

theorem commitIfSnapshotCurrent_keeps (snapshot : KnowledgeSnapshot)
    (commit : Unit → α) : Keeps (commitIfSnapshotCurrent authority snapshot commit) := by
  intro s hs
  unfold commitIfSnapshotCurrent
  simp only [wp_rules]
  refine Checked.wp_of_forall (fun _ => ?_) (fun _ => hs)
  exact Checked.wp_of_forall (fun _ => hs) (fun _ => hs)

/-! ### Relations -/

theorem recordRelation_keeps {relation : KnowledgeRelation}
    (h : validateRelationBounds relation = .ok ()) (write : KnowledgeWrite) :
    Keeps (recordRelation relation write : KnowledgeCommand ε Unit) := by
  classical
  intro s hs
  have hinsert : ∀ (id : RelationId) (stored : KnowledgeRelation),
      (s.relations.insert relation.id relation)[id]? = some stored →
        validateRelationBounds stored = .ok () := by
    intro id stored hget
    rw [get_insert] at hget
    split_ifs at hget
    · cases hget
      exact h
    · exact hs id stored hget
  unfold recordRelation
  simp only [wp_rules]
  exact ⟨fun _ => ⟨fun _ => hinsert, fun _ => hinsert⟩, fun _ => hs⟩

theorem upsertRelation_keeps (relation : KnowledgeRelation) : Keeps (upsertRelation relation) := by
  intro s hs
  unfold upsertRelation
  simp only [wp_rules]
  cases h : validateRelationBounds relation with
  | error failure => exact hs
  | ok checked =>
    rw [Checked.wp_ok]
    exact Checked.wp_of_forall (fun write => recordRelation_keeps h write s hs) (fun _ => hs)

theorem insertEvidenceWithRelation_keeps (evidence : Evidence) (relation : KnowledgeRelation) :
    Keeps (insertEvidenceWithRelation evidence relation) := by
  intro s hs
  unfold insertEvidenceWithRelation
  simp only [wp_rules, wp_recordEvidence]
  cases hchk : checkBundle evidence relation with
  | error failure => exact hs
  | ok checked =>
    obtain ⟨⟨⟩, h, -⟩ := bind_ok hchk
    rw [Checked.wp_ok]
    refine Checked.wp_of_forall (fun evidenceWrite => ?_) (fun _ => hs)
    refine Checked.wp_of_forall (fun write => ?_) (fun _ => hs)
    exact ⟨fun _ => ⟨fun _ => recordRelation_keeps h write _ hs, fun _ => trivial⟩,
      fun _ => recordRelation_keeps h write s hs⟩

/-- Every call leaves the relations bounded. -/
theorem exec_keeps (op : KnowledgeOp) :
    Keeps (op.exec authority) := by
  cases op with
  | registerConcept concept => exact (registerWith_keeps _).reply _ _
  | registerRelationType type => exact (registerWith_keeps _).reply _ _
  | registerAxiom ax => exact (registerWith_keeps _).reply _ _
  | installOntologyDefinitions concepts axioms =>
    exact (installOntologyDefinitions_keeps concepts axioms).reply _ _
  | insertEvidence order evidence => exact (insertEvidence_keeps order evidence).reply _ _
  | insertEvidenceBatch order evidence => exact (insertEvidenceBatch_keeps order evidence).reply _ _
  | insertEvidenceWithRelation evidence relation =>
    exact (insertEvidenceWithRelation_keeps evidence relation).reply _ _
  | insertEntity entity => exact (insertEntity_keeps entity).reply _ _
  | upsertRelation relation => exact (upsertRelation_keeps relation).reply _ _
  | upsertFact fact => exact (upsertFact_keeps fact).reply _ _
  | upsertHypothesis hypothesis => exact (upsertHypothesis_keeps authority hypothesis).reply _ _
  | upsertHypothesisBatch hypotheses =>
    exact (upsertHypothesisBatchWithPolicy_keeps authority hypotheses false none _).reply _ _
  | upsertReasoningHypothesisBatch snapshot hypotheses clock =>
    exact (upsertReasoningHypothesisBatch_keeps authority snapshot hypotheses clock).reply _ _
  | transitionHypothesisState id subject state revisions now =>
    exact fun s hs => (wp_map _ _).mpr
      (transitionHypothesisState_keeps id subject state revisions now s hs)
  | commitIfSnapshotCurrent snapshot =>
    exact fun s hs => (wp_mapErr _ _).mpr (commitIfSnapshotCurrent_keeps authority snapshot _ s hs)

/-- **Every stored relation is within its bounds**, in every state reached. -/
theorem bounded_of_run {authority : KnowledgeAuthority} {ops : List KnowledgeOp}
    {trace : List (KnowledgeOp × Except KnowledgeFailure KnowledgeReply)}
    (hrun : run (KnowledgeOp.exec authority) .new ops = some (trace, s)) : Bounded s := by
  have hstep : ∀ {s t : KnowledgeState} {op : KnowledgeOp}
      {r : Except KnowledgeFailure KnowledgeReply}, Bounded s →
      reply (op.exec authority) s = some (r, t) → Bounded t := by
    intro s t op r hs hr
    obtain ⟨hok, herr, -⟩ := wp_iff_reply.mp (exec_keeps authority op s hs)
    cases r with
    | ok value => exact hok value t hr
    | error e => exact herr e t hr
  exact run_preserves (I := Bounded) hstep bounded_new hrun

end Keeps

end Termivar
