/-
# What a call may write

A call of the knowledge base is a sequence of writes of single records, or it
fails and writes nothing. Each write is a whole: the record, the revision of
its subject and, if the record is new, its index entries; a record that was
there keeps its claim. What holds over every write then holds over every call
and every run.
-/
import Termivar.Knowledge.Model
import Termivar.Ontology.Acyclicity

namespace Termivar

open SecondaryIndex Relation Command ReflTransGen List

/-! ### Claims -/

/-- What a fact says; its confidence and provenance may change. -/
def Fact.claim (fact : Fact) : EntityId × KnowledgePredicate × EvidenceValue :=
  (fact.subject, fact.predicate, fact.value)

/-- What a hypothesis says; its evaluation may change. -/
def Hypothesis.claim (hypothesis : Hypothesis) : EntityId × KnowledgePredicate × EvidenceValue :=
  (hypothesis.subject, hypothesis.predicate, hypothesis.value)

/-- The edge of a relation; its confidence and provenance may change. -/
def KnowledgeRelation.edge (relation : KnowledgeRelation) : EntityId × EntityId × RelationKind :=
  (relation.source, relation.target, relation.kind)

theorem Fact.claim_eq_iff {left right : Fact} : left.claim = right.claim ↔
    left.subject = right.subject ∧ left.predicate = right.predicate ∧ left.value = right.value := by
  simp [Fact.claim]

theorem Hypothesis.claim_eq_iff {left right : Hypothesis} : left.claim = right.claim ↔
    left.subject = right.subject ∧ left.predicate = right.predicate ∧ left.value = right.value := by
  simp [Hypothesis.claim]

theorem KnowledgeRelation.edge_eq_iff {left right : KnowledgeRelation} : left.edge = right.edge ↔
    left.source = right.source ∧ left.target = right.target ∧ left.kind = right.kind := by
  simp [KnowledgeRelation.edge]

/-- The next revision of a subject. -/
def KnowledgeState.bumped (state : KnowledgeState) (subject : EntityId) : KnowledgeState :=
  { state with
    subjectRevisions := state.subjectRevisions.insert subject (state.subjectRevision subject + 1) }

/-- A new observation with its index entries and the given derivation edges. -/
def KnowledgeState.withEvidence (state : KnowledgeState) (evidence : Evidence)
    (derivationChildren : BTreeMap EvidenceId (BTreeSet EvidenceId)) : KnowledgeState :=
  { state.bumped evidence.subject with
    evidence := state.evidence.insert evidence.id evidence
    evidenceBySubject := index state.evidenceBySubject evidence.subject evidence.id
    evidenceByPredicate := index state.evidenceByPredicate evidence.predicate evidence.id
    derivationChildren }

/-! ### Single writes -/

/-- One write that is not of evidence. -/
inductive RecordWrite (s : KnowledgeState) : KnowledgeState → Prop where
  | ontology (ontology : Ontology) :
    RecordWrite s { s with ontology, ontologyRevision := s.ontologyRevision + 1 }
  | newFact (fact : Fact) (hnew : s.facts[fact.id]? = none) :
    RecordWrite s { s.bumped fact.subject with
      facts := s.facts.insert fact.id fact
      factsBySubject := index s.factsBySubject fact.subject fact.id
      factsByPredicate := index s.factsByPredicate fact.predicate fact.id }
  | updateFact {existing : Fact} (fact : Fact) (hold : s.facts[fact.id]? = some existing)
      (hclaim : fact.claim = existing.claim) :
    RecordWrite s { s.bumped fact.subject with facts := s.facts.insert fact.id fact }
  | newHypothesis (hypothesis : Hypothesis) (hnew : s.hypotheses[hypothesis.id]? = none) :
    RecordWrite s { s.bumped hypothesis.subject with
      hypotheses := s.hypotheses.insert hypothesis.id hypothesis
      hypothesesBySubject := index s.hypothesesBySubject hypothesis.subject hypothesis.id
      hypothesesByPredicate := index s.hypothesesByPredicate hypothesis.predicate hypothesis.id }
  | updateHypothesis {existing : Hypothesis} (id : String) (hypothesis : Hypothesis)
      (hold : s.hypotheses[id]? = some existing) (hid : existing.id = id → hypothesis.id = id)
      (hclaim : hypothesis.claim = existing.claim) :
    RecordWrite s { s.bumped hypothesis.subject with
      hypotheses := s.hypotheses.insert id hypothesis }
  | newEntity (entity : KnowledgeEntity) (hnew : s.entities[entity.id]? = none) :
    RecordWrite s { s with entities := s.entities.insert entity.id entity }
  | newRelation (relation : KnowledgeRelation) (hnew : s.relations[relation.id]? = none) :
    RecordWrite s { s with
      relations := s.relations.insert relation.id relation
      relationsFrom := index s.relationsFrom relation.source relation.id
      relationsTo := index s.relationsTo relation.target relation.id }
  | updateRelation {existing : KnowledgeRelation} (relation : KnowledgeRelation)
      (hold : s.relations[relation.id]? = some existing) (hedge : relation.edge = existing.edge) :
    RecordWrite s { s with relations := s.relations.insert relation.id relation }

/-- One write: of a new observation, with or without its derivation edges, or
of another record. -/
inductive KnowledgeStep (s : KnowledgeState) : KnowledgeState → Prop where
  | evidence (evidence : Evidence) (derivationChildren : BTreeMap EvidenceId (BTreeSet EvidenceId))
      (hnew : s.evidence[evidence.id]? = none) :
    KnowledgeStep s (s.withEvidence evidence derivationChildren)
  | record {t : KnowledgeState} (h : RecordWrite s t) : KnowledgeStep s t

/-- A call returns after writes of the given kind, and a failure writes nothing. -/
def Writes {ε α : Type} (step : KnowledgeState → KnowledgeState → Prop) (x : KnowledgeCommand ε α) :
    Prop :=
  ∀ s, wp x (fun _ t => ReflTransGen step s t) (fun _ t => t = s) True s

section Writes

variable {ε α β : Type} {s : KnowledgeState}

theorem Writes.any {x : KnowledgeCommand ε α} (h : Writes RecordWrite x) : Writes KnowledgeStep x :=
  fun s => wp_mono (h s) (fun _ _ hw => mono (fun _ _ => KnowledgeStep.record) _ _ hw)
    (fun _ _ ht => ht) id

/-! ### Revisions -/

variable (authority : KnowledgeAuthority) (evidence : Evidence) (relation : KnowledgeRelation)
  {ok : Unit → KnowledgeState → Prop} {err : ε → KnowledgeState → Prop} {pan : Prop}

@[simp] theorem wp_bumpSubjectRevision (subject : EntityId) :
    wp (bumpSubjectRevision subject) ok err pan s ↔
      (s.subjectRevision subject < u64Max → ok () (s.bumped subject)) ∧
        (u64Max ≤ s.subjectRevision subject → pan) := by
  unfold bumpSubjectRevision
  rw [wp_bind, wp_get]
  by_cases h : s.subjectRevision subject < u64Max
  · rw [checkedAdd_eq_some.mpr ⟨h, rfl⟩]
    simp [h, KnowledgeState.bumped]
  · have hfull : u64Max ≤ s.subjectRevision subject := Nat.le_of_not_lt h
    rw [checkedAdd_eq_none.mpr (Nat.lt_succ_of_le hfull)]
    simp [h, hfull]

@[simp] theorem wp_bumpOntologyRevision :
    wp bumpOntologyRevision ok err pan s ↔
      (s.ontologyRevision < u64Max → ok () { s with ontologyRevision := s.ontologyRevision + 1 }) ∧
        (u64Max ≤ s.ontologyRevision → pan) := by
  unfold bumpOntologyRevision
  rw [wp_bind, wp_get]
  by_cases h : s.ontologyRevision < u64Max
  · rw [checkedAdd_eq_some.mpr ⟨h, rfl⟩]
    simp [h]
  · have hfull : u64Max ≤ s.ontologyRevision := Nat.le_of_not_lt h
    rw [checkedAdd_eq_none.mpr (Nat.lt_succ_of_le hfull)]
    simp [h, hfull]

/-! ### Ontology -/

/-- A write that reports no insertion, or fails, left the ontology alone. -/
def Reports (write : OntologyCommand OntologyWrite) : Prop :=
  ∀ o, wp write (fun w u => w = .unchanged → u = o) (fun _ u => u = o) False o

theorem reports_addConcept (concept : OntologyConcept) : Reports (addConcept concept) := by
  intro o
  unfold addConcept
  rw [wp_bind, wp_get]
  cases o.concepts[concept.id]? with
  | none => simp
  | some existing => simp

theorem reports_addRelationType (relationType : OntologyRelationType) :
    Reports (addRelationType relationType) := by
  intro o
  unfold addRelationType
  rw [wp_bind, wp_get]
  cases o.relationTypes[relationType.id]? with
  | none => simp
  | some existing => simp

theorem reports_addAxiom (ax : OntologyAxiom) : Reports (addAxiom ax) := by
  intro o
  have hsame : o.axioms.contains ax = true → o.axioms.insert ax = o.axioms := by
    intro hmem
    refine Std.ExtTreeSet.ext_mem fun a => ?_
    rw [mem_insert_iff]
    constructor
    · rintro (rfl | ha)
      · exact hmem
      · exact ha
    · exact Or.inr
  unfold addAxiom
  simp only [wp_rules]
  refine Checked.wp_of_forall (fun _ => ?_) (fun _ => trivial)
  refine Checked.wp_of_forall (fun _ => ?_) (fun _ => trivial)
  refine Checked.wp_of_forall (fun relationType => ?_) (fun _ => trivial)
  refine Checked.wp_of_forall (fun closes => ⟨fun _ => trivial, fun _ => ?_⟩) (fun _ => trivial)
  refine Checked.wp_of_forall (fun related => ⟨fun _ _ => trivial, fun _ hunch => ?_⟩)
    (fun _ => trivial)
  rw [hsame]
  by_contra hnew
  rw [if_neg hnew] at hunch
  cases hunch

theorem registerWith_writes {write : OntologyCommand OntologyWrite} (h : Reports write) :
    Writes RecordWrite (registerWith write) := by
  intro s
  unfold registerWith
  rw [wp_bind, wp_zoom]
  refine wp_mono (h s.ontology) (fun written o hsame => ?_) (fun e o ho => ?_) (fun hpanic => hpanic.elim)
  · cases written with
    | inserted => simpa using fun _ => single (.ontology o)
    | unchanged =>
      rw [hsame rfl]
      simpa using refl
  · rw [ho]

theorem countInserted_spec {write : β → OntologyCommand OntologyWrite} (h : ∀ x, Reports (write x)) :
    ∀ (xs : List β) (o : Ontology),
      wp (countInserted write xs) (fun n u => n = 0 → u = o) (fun _ _ => True) False o
  | [], o => by simp [countInserted]
  | x :: xs, o => by
    unfold countInserted
    rw [wp_bind]
    refine wp_mono (h x o) (fun written u hsame => ?_) (fun _ _ _ => trivial) id
    rw [wp_bind]
    refine wp_mono (countInserted_spec h xs u) (fun n v hrest => ?_) (fun _ _ _ => trivial) id
    rw [wp_pure]
    intro hzero
    cases written with
    | inserted => simp at hzero
    | unchanged =>
      rw [hrest (by simpa using hzero)]
      exact hsame rfl

theorem installOntologyDefinitions_writes (concepts : List OntologyConcept)
    (axioms : List OntologyAxiom) :
    Writes RecordWrite (installOntologyDefinitions concepts axioms) := by
  intro s
  unfold installOntologyDefinitions
  rw [wp_bind, wp_get, wp_bind, wp_locally, wp_bind]
  refine wp_mono (countInserted_spec reports_addConcept concepts s.ontology) (fun n o hconc => ?_)
    (fun _ _ _ => rfl) (fun hpanic => hpanic.elim)
  rw [wp_bind]
  refine wp_mono (countInserted_spec reports_addAxiom axioms o) (fun m o' haxioms => ?_)
    (fun _ _ _ => rfl) (fun hpanic => hpanic.elim)
  simp only [wp_rules, wp_bumpOntologyRevision]
  refine ⟨fun _ => ⟨fun _ => single (.ontology o'), fun _ => trivial⟩, fun hzero => ?_⟩
  have hsame : o' = s.ontology := by
    rw [haxioms (by omega), hconc (by omega)]
  rw [hsame]

/-! ### Evidence -/

@[simp] theorem wp_recordEvidence :
    wp (recordEvidence evidence) ok err pan s ↔ (s.subjectRevision evidence.subject < u64Max →
        ok () (s.withEvidence evidence s.derivationChildren)) ∧
        (u64Max ≤ s.subjectRevision evidence.subject → pan) := by
  simp only [recordEvidence, wp_rules, wp_bumpSubjectRevision]
  exact Iff.rfl

/-- The derivation edges with those of a new record. -/
def derivationEdges (children : BTreeMap EvidenceId (BTreeSet EvidenceId)) (evidence : Evidence) :
    BTreeMap EvidenceId (BTreeSet EvidenceId) :=
  evidence.parents.foldl (fun children parent => index children parent evidence.id) children

@[simp] theorem wp_indexDerivation :
    wp (indexDerivation evidence) ok err pan s ↔
      ok () { s with derivationChildren := derivationEdges s.derivationChildren evidence } := Iff.rfl

/-- The lineage of a batch is in order: parents are records of the batch or
of the store, with the subject of the child, and no cycle runs in the batch. -/
structure LineageInOrder (s : KnowledgeState) (pending : BTreeMap EvidenceId Evidence) : Prop where
  parents : ∀ (id : EvidenceId) (evidence : Evidence), pending[id]? = some evidence →
    ∀ parent ∈ evidence.parents, ∃ record : Evidence,
      (pending[parent]? = some record ∨ s.evidence[parent]? = some record) ∧
        record.subject = evidence.subject
  acyclic : GraphSearch.Acyclic (CycleSearch.Neighbor (batchAdjacency pending))

theorem checkParent_spec (pending : BTreeMap EvidenceId Evidence) (childId parent : EvidenceId)
    (child : Evidence) : Checked.wp (checkParent s pending childId child parent)
      (fun _ => ∃ record : Evidence,
        (pending[parent]? = some record ∨ s.evidence[parent]? = some record) ∧
          record.subject = child.subject) (fun _ => True) := by
  unfold checkParent
  rw [Checked.wp_ite]
  refine ⟨fun _ => trivial, fun _ => ?_⟩
  cases hpend : pending[parent]? with
  | some record => simpa using Or.inl
  | none =>
    cases hstor : s.evidence[parent]? with
    | some record => simp
    | none => simp

theorem neighbor_batchAdjacency {pending : BTreeMap EvidenceId Evidence} {a b : EvidenceId} :
    CycleSearch.Neighbor (batchAdjacency pending) a b ↔
      ∃ evidence : Evidence, pending[a]? = some evidence ∧ b ∈ evidence.parents ∧
        pending.contains b = true := by
  unfold CycleSearch.Neighbor batchAdjacency
  simp [Std.ExtTreeMap.getElem?_map]

theorem mem_entries (order : HashOrder) {pending : BTreeMap EvidenceId Evidence} {id : EvidenceId}
    {evidence : Evidence} :
    (id, evidence) ∈ order.entries pending ↔ pending[id]? = some evidence := by
  rw [(order.perm pending).mem_iff, mem_toList]

theorem validateBatchDerivations_spec (order : HashOrder) (pending : BTreeMap EvidenceId Evidence) :
    wp (validateBatchDerivations order pending) (fun _ t => t = s ∧ LineageInOrder s pending)
      (fun _ t => t = s) False s := by
  have hpar : Checked.wp (Checked.each (fun entry =>
      Checked.each (checkParent s pending entry.1 entry.2) entry.2.parents) (order.entries pending))
      (fun _ => ∀ entry ∈ order.entries pending, ∀ parent ∈ entry.2.parents, ∃ record : Evidence,
        (pending[parent]? = some record ∨ s.evidence[parent]? = some record) ∧
          record.subject = entry.2.subject) (fun _ => True) :=
    Checked.wp_each fun entry _ => Checked.wp_each fun parent _ => checkParent_spec _ _ _ _
  have hnod : ∀ node : EvidenceId, node ∈ (order.entries pending).map Prod.fst ↔
      (batchAdjacency pending)[node]?.isSome := by
    intro node
    simp only [mem_map, Prod.exists, mem_entries, exists_and_right, exists_eq_right]
    rw [← Option.isSome_iff_exists]
    simp [batchAdjacency, Std.ExtTreeMap.getElem?_map]
  have hclosed : ∀ a b : EvidenceId, CycleSearch.Neighbor (batchAdjacency pending) a b →
      (batchAdjacency pending)[b]?.isSome := by
    intro a b hedge
    obtain ⟨-, -, -, hb⟩ := neighbor_batchAdjacency.mp hedge
    rw [contains_eq_isSome] at hb
    simpa [batchAdjacency, Std.ExtTreeMap.getElem?_map] using hb
  unfold validateBatchDerivations detectBatchDerivationCycles
  rw [wp_bind, wp_get, wp_bind, wp_lift]
  refine Checked.wp_mono hpar (fun _ hpar => ?_) (fun _ _ => rfl)
  refine wp_mono (CycleSearch.detect_spec hnod hclosed) (fun _ t h => ⟨h.1, ?_⟩) (fun _ _ ht => ht) id
  exact ⟨fun id evidence hget => hpar (id, evidence) ((mem_entries order).mpr hget),
    CycleSearch.acyclic_of_ends h.2⟩

theorem insertEvidence_writes (order : HashOrder) (evidence : Evidence) :
    Writes KnowledgeStep (insertEvidence order evidence) := by
  intro s
  unfold insertEvidence
  rw [wp_bind, wp_get]
  cases hstor : s.evidence[evidence.id]? with
  | some existing => simpa using fun _ => refl
  | none =>
    have hstep := single (KnowledgeStep.evidence evidence
      (derivationEdges s.derivationChildren evidence) hstor)
    simp only [wp_rules, wp_indexDerivation, wp_recordEvidence]
    refine ⟨fun _ => ?_, fun _ => ⟨fun _ => hstep, fun _ => trivial⟩⟩
    refine wp_mono (validateBatchDerivations_spec order _) (fun _ t ht => ?_) (fun _ _ ht => ht)
      (fun _ => trivial)
    rw [ht.1]
    exact ⟨fun _ => hstep, fun _ => trivial⟩

theorem recordEvidenceBatch_writes : ∀ (evidence : List Evidence) (s : KnowledgeState),
    wp (recordEvidenceBatch evidence : KnowledgeCommand ε (List KnowledgeWrite))
      (fun _ t => ReflTransGen KnowledgeStep s t) (fun _ _ => False) True s
  | [], s => refl
  | observation :: rest, s => by
    unfold recordEvidenceBatch
    simp only [wp_rules, wp_indexDerivation, wp_recordEvidence]
    refine ⟨fun _ => recordEvidenceBatch_writes rest s, fun hnew => ⟨fun _ => ?_, fun _ => trivial⟩⟩
    refine wp_mono (recordEvidenceBatch_writes rest _) (fun _ u h => ?_) (fun _ _ h => h) id
    exact head (.evidence observation (derivationEdges s.derivationChildren observation)
      (get_of_not_contains hnew)) h

theorem insertEvidenceBatch_writes (order : HashOrder) (evidence : List Evidence) :
    Writes KnowledgeStep (insertEvidenceBatch order evidence) := by
  intro s
  unfold insertEvidenceBatch
  rw [wp_bind, wp_get, wp_bind, wp_lift]
  refine Checked.wp_of_forall (fun pending => ?_) (fun _ => rfl)
  rw [wp_bind]
  refine wp_mono (validateBatchDerivations_spec order pending) (fun _ t ht => ?_) (fun _ _ ht => ht)
    (fun _ => trivial)
  rw [ht.1]
  exact wp_mono (recordEvidenceBatch_writes evidence s) (fun _ _ h => h) (fun _ _ h => h.elim) id

/-! ### Facts -/

theorem upsertFact_writes (fact : Fact) : Writes RecordWrite (upsertFact fact) := by
  intro s
  unfold upsertFact
  rw [wp_bind, wp_get]
  cases hstor : s.facts[fact.id]? with
  | none =>
    simp only [wp_rules, wp_bumpSubjectRevision]
    exact ⟨fun _ => single (.newFact fact hstor), fun _ => trivial⟩
  | some existing =>
    simp only [wp_rules, wp_bumpSubjectRevision]
    refine ⟨fun _ => refl, fun _ => ⟨fun _ => trivial, fun hsame => ?_⟩⟩
    have hclaim : fact.claim = existing.claim := by
      rw [Fact.claim_eq_iff]
      grind
    exact ⟨fun _ => single (.updateFact fact hstor hclaim), fun _ => trivial⟩

/-! ### Hypotheses -/

theorem preserveTerminalState_id (hypothesis : Hypothesis) (now : Nat) :
    (preserveTerminalState s hypothesis now).id = hypothesis.id := by
  unfold preserveTerminalState
  split
  · split_ifs <;> rfl
  · rfl

theorem preserveTerminalState_claim (hypothesis : Hypothesis) (now : Nat) :
    (preserveTerminalState s hypothesis now).claim = hypothesis.claim := by
  unfold preserveTerminalState
  split
  · split_ifs <;> rfl
  · rfl

theorem recordHypothesis_spec (hypothesis : Hypothesis)
    (hclaim : ∀ existing : Hypothesis, s.hypotheses[hypothesis.id]? = some existing →
      hypothesis.claim = existing.claim) :
    wp (recordHypothesis hypothesis : KnowledgeCommand ε KnowledgeWrite)
      (fun _ t => ReflTransGen RecordWrite s t ∧ ∀ (id : String) (stored : Hypothesis),
        t.hypotheses[id]? = some stored →
          s.hypotheses[id]? = some stored ∨ (id = hypothesis.id ∧ stored.claim = hypothesis.claim))
      (fun _ _ => False) True s := by
  have hinsert : ∀ (id : String) (stored : Hypothesis),
      (s.hypotheses.insert hypothesis.id hypothesis)[id]? = some stored →
        s.hypotheses[id]? = some stored ∨ (id = hypothesis.id ∧ stored.claim = hypothesis.claim) := by
    intro id stored hget
    rw [get_insert] at hget
    split_ifs at hget with hid
    · cases hget
      exact Or.inr ⟨hid.symm, rfl⟩
    · exact Or.inl hget
  unfold recordHypothesis
  rw [wp_bind, wp_get]
  cases hstor : s.hypotheses[hypothesis.id]? with
  | none =>
    simp only [wp_rules, wp_bumpSubjectRevision]
    refine ⟨fun _ => ⟨single (.newHypothesis hypothesis hstor), hinsert⟩, fun _ => trivial⟩
  | some existing =>
    simp only [wp_rules, wp_bumpSubjectRevision]
    refine ⟨fun _ => ⟨refl, fun _ _ h => Or.inl h⟩, fun _ => ⟨fun _ => ?_, fun _ => trivial⟩⟩
    exact ⟨single (.updateHypothesis hypothesis.id hypothesis hstor (fun _ => rfl)
      (hclaim existing hstor)), hinsert⟩

/-- No hypothesis of the batch has another claim than the store or another
hypothesis of the batch under its identifier. -/
structure ClaimsAgree (s : KnowledgeState) (hypotheses : List Hypothesis) : Prop where
  stored : ∀ h ∈ hypotheses, ∀ existing : Hypothesis, s.hypotheses[h.id]? = some existing →
    h.claim = existing.claim
  batch : ∀ h ∈ hypotheses, ∀ h' ∈ hypotheses, h.id = h'.id → h.claim = h'.claim

theorem claim_of_sameHypothesisClaim {left right : Hypothesis}
    (h : sameHypothesisClaim left right = true) : right.claim = left.claim := by
  unfold sameHypothesisClaim at h
  rw [Hypothesis.claim_eq_iff]
  grind

theorem claim_of_sameEvaluationAs {left right : Hypothesis}
    (h : left.sameEvaluationAs right = true) : right.claim = left.claim := by
  unfold Hypothesis.sameEvaluationAs at h
  rw [Hypothesis.claim_eq_iff]
  grind

theorem collectHypothesis_spec (pending : BTreeMap String Hypothesis) (hypothesis : Hypothesis) :
    Checked.wp (collectHypothesis s pending hypothesis)
      (fun after => (∀ existing : Hypothesis, s.hypotheses[hypothesis.id]? = some existing →
          hypothesis.claim = existing.claim) ∧
        (∃ first : Hypothesis, after[hypothesis.id]? = some first ∧ hypothesis.claim = first.claim) ∧
        ∀ (id : String) (first : Hypothesis), pending[id]? = some first → after[id]? = some first)
      (fun _ => True) := by
  unfold collectHypothesis
  rw [Checked.wp_ite]
  refine ⟨fun _ => trivial, fun hno => ?_⟩
  rw [Bool.or_eq_true, not_or, Bool.not_eq_true, Bool.not_eq_true] at hno
  obtain ⟨hstor, hpend⟩ := hno
  refine ⟨fun existing hget => ?_, ?_⟩
  · rw [hget] at hstor
    exact claim_of_sameHypothesisClaim (by simpa using hstor)
  · rw [contains_eq_isSome]
    cases hget : pending[hypothesis.id]? with
    | some first =>
      rw [hget] at hpend
      exact ⟨⟨first, by simpa using hget, claim_of_sameEvaluationAs (by simpa using hpend)⟩,
        fun _ _ h => h⟩
    | none =>
      refine ⟨⟨hypothesis, by simp, rfl⟩, fun id first hfirst => ?_⟩
      have hne : hypothesis.id ≠ id := by
        rintro rfl
        rw [hget] at hfirst
        cases hfirst
      simpa [get_insert_ne _ hne] using hfirst

theorem pendingHypotheses_spec (hypotheses : List Hypothesis) :
    Checked.wp (pendingHypotheses s hypotheses) (fun _ => ClaimsAgree s hypotheses)
      (fun _ => True) := by
  -- what was collected agrees with the store and with the first of its identifier
  refine Checked.wp_imp (Checked.wp_foldlM (b := ∅)
    (I := fun rest pending => ∃ collected, hypotheses = collected ++ rest ∧
      ∀ h ∈ collected, (∀ existing : Hypothesis, s.hypotheses[h.id]? = some existing →
        h.claim = existing.claim) ∧
        ∃ first : Hypothesis, pending[h.id]? = some first ∧ h.claim = first.claim)
    ⟨[], rfl, by simp⟩ ?_) (fun pending hcoll => ?_)
  · rintro hypothesis rest pending ⟨collected, hspl, hall⟩
    refine Checked.wp_imp (collectHypothesis_spec pending hypothesis) fun after haft => ?_
    obtain ⟨hstor, hfirst, hkept⟩ := haft
    refine ⟨collected ++ [hypothesis], by simp [hspl], fun h hmem => ?_⟩
    rcases mem_append.mp hmem with hmem | hmem
    · obtain ⟨hstor', first, hget, hclaim⟩ := hall h hmem
      exact ⟨hstor', first, hkept _ _ hget, hclaim⟩
    · rw [mem_singleton.mp hmem]
      exact ⟨hstor, hfirst⟩
  · obtain ⟨collected, hspl, hall⟩ := hcoll
    rw [append_nil] at hspl
    subst hspl
    refine ⟨fun h hmem => (hall h hmem).1, fun h hmem h' hmem' hid => ?_⟩
    obtain ⟨-, first, hget, hclaim⟩ := hall h hmem
    obtain ⟨-, first', hget', hclaim'⟩ := hall h' hmem'
    rw [← hid, hget] at hget'
    cases hget'
    rw [hclaim, hclaim']

theorem recordHypothesisBatch_writes (preserve : Bool) (clock : Nat → Nat) :
    ∀ (hypotheses : List Hypothesis) (turn : Nat) (s : KnowledgeState), ClaimsAgree s hypotheses →
      wp (recordHypothesisBatch preserve clock hypotheses turn :
          KnowledgeCommand ε (List KnowledgeWrite))
        (fun _ t => ReflTransGen RecordWrite s t) (fun _ _ => False) True s
  | [], _, s, _ => refl
  | hypothesis :: rest, turn, s, hagr => by
    obtain ⟨written, hwr⟩ : ∃ written, written =
        if preserve then preserveTerminalState s hypothesis (clock turn) else hypothesis := ⟨_, rfl⟩
    have hid : written.id = hypothesis.id := by
      rw [hwr]
      split_ifs
      · exact preserveTerminalState_id hypothesis _
      · rfl
    have hclaim : written.claim = hypothesis.claim := by
      rw [hwr]
      split_ifs
      · exact preserveTerminalState_claim hypothesis _
      · rfl
    unfold recordHypothesisBatch
    simp only [wp_rules, ← hwr]
    refine wp_mono (recordHypothesis_spec written fun existing hget => ?_) (fun _ t ht => ?_)
      (fun _ _ h => h) id
    · rw [hclaim]
      exact hagr.stored hypothesis mem_cons_self existing (by rw [← hid]; exact hget)
    · obtain ⟨hst, honly⟩ := ht
      have hrest : ClaimsAgree t rest := by
        refine ⟨fun h hmem existing hget => ?_, fun h hmem h' hmem' =>
          hagr.batch h (mem_cons_of_mem _ hmem) h' (mem_cons_of_mem _ hmem')⟩
        rcases honly h.id existing hget with hold | ⟨hsame, heq⟩
        · exact hagr.stored h (mem_cons_of_mem _ hmem) existing hold
        · rw [heq, hclaim]
          exact hagr.batch h (mem_cons_of_mem _ hmem) hypothesis mem_cons_self (hsame.trans hid)
      exact wp_mono (recordHypothesisBatch_writes preserve clock rest (turn + 1) t hrest)
        (fun _ u hu => hst.trans hu) (fun _ _ h => h) id

theorem validated_writes (hypotheses : List Hypothesis) (preserve : Bool) (clock : Nat → Nat) :
    wp (do
      let _ ← pendingHypotheses s hypotheses
      recordHypothesisBatch preserve clock hypotheses 0 :
        KnowledgeCommand KnowledgeBaseError (List KnowledgeWrite))
      (fun _ t => ReflTransGen RecordWrite s t) (fun _ t => t = s) True s := by
  rw [wp_bind, wp_lift]
  refine Checked.wp_mono (pendingHypotheses_spec hypotheses) (fun _ hagr => ?_) (fun _ _ => rfl)
  exact wp_mono (recordHypothesisBatch_writes preserve clock hypotheses 0 s hagr)
    (fun _ _ h => h) (fun _ _ h => h.elim) id

theorem upsertHypothesisBatchWithPolicy_writes (hypotheses : List Hypothesis) (preserve : Bool)
    (expectedSnapshot : Option KnowledgeSnapshot)
    (clock : Nat → Nat) : Writes RecordWrite
      (upsertHypothesisBatchWithPolicy authority hypotheses preserve expectedSnapshot clock) := by
  intro s
  unfold upsertHypothesisBatchWithPolicy
  cases expectedSnapshot with
  | none => exact validated_writes hypotheses preserve clock
  | some snapshot =>
    simp only [wp_rules]
    refine Checked.wp_of_forall (fun _ => ?_) (fun _ => trivial)
    refine Checked.wp_of_forall (fun _ => ?_) (fun _ => trivial)
    simpa using validated_writes hypotheses preserve clock

theorem upsertHypothesis_writes (hypothesis : Hypothesis) :
    Writes RecordWrite (upsertHypothesis authority hypothesis) := by
  intro s
  unfold upsertHypothesis upsertHypothesisBatch
  rw [wp_bind]
  refine wp_mono (upsertHypothesisBatchWithPolicy_writes authority [hypothesis] false none _ s)
    (fun writes t ht => ?_) (fun _ _ ht => ht) id
  cases writes with
  | nil => trivial
  | cons write rest => exact ht

theorem upsertReasoningHypothesisBatch_writes (snapshot : KnowledgeSnapshot)
    (hypotheses : List Hypothesis) (clock : Nat → Nat) :
    Writes RecordWrite (upsertReasoningHypothesisBatch authority snapshot hypotheses clock) := by
  intro s
  unfold upsertReasoningHypothesisBatch
  cases hypotheses.find? fun h => h.subject ≠ snapshot.subject with
  | some hypothesis => exact rfl
  | none =>
    exact upsertHypothesisBatchWithPolicy_writes authority hypotheses true (some snapshot) clock s

theorem transitionHypothesisState_writes (hypothesisId : String) (expectedSubject : EntityId)
    (newState : HypothesisState) (expectedRevisions : Option (Nat × Nat)) (now : Nat) :
    Writes RecordWrite (transitionHypothesisState hypothesisId expectedSubject newState
      expectedRevisions now : KnowledgeCommand ε HypothesisStateTransition) := by
  intro s
  unfold transitionHypothesisState
  rw [wp_bind, wp_get]
  cases hstor : s.hypotheses[hypothesisId]? with
  | none => exact refl
  | some hypothesis =>
    simp only [wp_rules]
    refine ⟨fun _ => refl, fun hsubj => ⟨fun _ => refl, fun _ =>
      ⟨fun _ => refl, fun _ => ?_⟩⟩⟩
    cases staleRevisions s expectedSubject expectedRevisions with
    | some failure => exact refl
    | none =>
      simp only [wp_rules, wp_bumpSubjectRevision]
      refine ⟨fun _ => single ?_, fun _ => trivial⟩
      rw [← not_ne_iff.mp hsubj]
      exact .updateHypothesis hypothesisId (hypothesis.setState newState now) hstor (fun h => h) rfl

/-! ### Entities and relations -/

theorem insertEntity_writes (entity : KnowledgeEntity) : Writes RecordWrite (insertEntity entity) := by
  intro s
  unfold insertEntity
  rw [wp_bind, wp_get]
  cases hstor : s.entities[entity.id]? with
  | none => exact single (.newEntity entity hstor)
  | some existing => simpa using fun _ => refl

/-- A relation is written as it was found to be, new or an update. -/
theorem recordRelation_writes {t : KnowledgeState} (ht : t.relations = s.relations) :
    Checked.wp (relationWrite s relation)
      (fun write => wp (recordRelation relation write : KnowledgeCommand KnowledgeBaseError Unit)
        (fun _ u => ReflTransGen RecordWrite t u) (fun _ _ => False) True t) (fun _ => True) := by
  unfold relationWrite recordRelation
  cases hstor : s.relations[relation.id]? with
  | none =>
    simp only [Checked.wp_ok]
    exact single (.newRelation relation (by rw [ht]; exact hstor))
  | some existing =>
    simp only [Checked.wp_rules, implies_true, and_true]
    refine ⟨fun _ => refl, fun _ hsame => ?_⟩
    have hedge : relation.edge = existing.edge := by
      rw [KnowledgeRelation.edge_eq_iff]
      grind
    exact single (.updateRelation relation (by rw [ht]; exact hstor) hedge)

theorem upsertRelation_writes :
    Writes RecordWrite (upsertRelation relation) := by
  intro s
  unfold upsertRelation
  simp only [wp_rules]
  refine Checked.wp_of_forall (fun _ => ?_) (fun _ => trivial)
  refine Checked.wp_imp (recordRelation_writes relation rfl) fun write hwrite => ?_
  exact wp_mono hwrite (fun _ _ h => h) (fun _ _ h => h.elim) id

theorem insertEvidenceWithRelation_writes :
    Writes KnowledgeStep (insertEvidenceWithRelation evidence relation) := by
  intro s
  -- the relation is written to `t`, which `s` has become by then
  have hrel : ∀ t, ReflTransGen KnowledgeStep s t → t.relations = s.relations →
      Checked.wp (relationWrite s relation)
        (fun write => wp (recordRelation relation write : KnowledgeCommand KnowledgeBaseError Unit)
          (fun _ u => ReflTransGen KnowledgeStep s u) (fun _ u => u = s) True t) (fun _ => True) := by
    intro t hst ht
    refine Checked.wp_mono (recordRelation_writes relation ht) (fun write hwrite => ?_) (fun _ h => h)
    refine wp_mono hwrite (fun _ u hu => hst.trans ?_) (fun _ _ h => h.elim) id
    exact mono (fun _ _ => KnowledgeStep.record) _ _ hu
  unfold insertEvidenceWithRelation bundledWrite
  simp only [wp_rules]
  refine Checked.wp_of_forall (fun _ => ?_) (fun _ => trivial)
  cases hstor : s.evidence[evidence.id]? with
  | some existing =>
    simp only [Checked.wp_rules, implies_true, and_true]
    intro _
    refine Checked.wp_imp (hrel s refl rfl) fun write hwrite => ?_
    simpa using hwrite
  | none =>
    have hstep := single (KnowledgeStep.evidence evidence s.derivationChildren hstor)
    rw [Checked.wp_ok]
    refine Checked.wp_imp (hrel _ hstep rfl) fun write hwrite => ?_
    simpa using fun _ => hwrite

/-! ### Calls -/

theorem commitIfSnapshotCurrent_writes (snapshot : KnowledgeSnapshot)
    (commit : Unit → α) : Writes RecordWrite (commitIfSnapshotCurrent authority snapshot commit) := by
  intro s
  unfold commitIfSnapshotCurrent
  simp only [wp_rules]
  refine Checked.wp_of_forall (fun _ => ?_) (fun _ => trivial)
  exact Checked.wp_of_forall (fun _ => refl) (fun _ => trivial)

theorem Writes.reply {ε' : Type} {step : KnowledgeState → KnowledgeState → Prop}
    {x : KnowledgeCommand ε α} (h : Writes step x) (f : α → β) (g : ε → ε') :
    Writes step (f <$> mapErr g x) := by
  intro s
  rw [wp_map, wp_mapErr]
  exact h s

/-- The calls that may store evidence. -/
def KnowledgeOp.observes : KnowledgeOp → Bool
  | .insertEvidence .. => true
  | .insertEvidenceBatch .. => true
  | .insertEvidenceWithRelation .. => true
  | _ => false

theorem exec_records {op : KnowledgeOp} (h : op.observes = false) :
    Writes RecordWrite (op.exec authority) := by
  cases op with
  | registerConcept concept => exact (registerWith_writes (reports_addConcept concept)).reply _ _
  | registerRelationType type =>
    exact (registerWith_writes (reports_addRelationType type)).reply _ _
  | registerAxiom ax => exact (registerWith_writes (reports_addAxiom ax)).reply _ _
  | installOntologyDefinitions concepts axioms =>
    exact (installOntologyDefinitions_writes concepts axioms).reply _ _
  | insertEvidence order evidence => cases h
  | insertEvidenceBatch order evidence => cases h
  | insertEvidenceWithRelation evidence relation => cases h
  | insertEntity entity => exact (insertEntity_writes entity).reply _ _
  | upsertRelation relation => exact (upsertRelation_writes relation).reply _ _
  | upsertFact fact => exact (upsertFact_writes fact).reply _ _
  | upsertHypothesis hypothesis => exact (upsertHypothesis_writes authority hypothesis).reply _ _
  | upsertHypothesisBatch hypotheses =>
    exact (upsertHypothesisBatchWithPolicy_writes authority hypotheses false none _).reply _ _
  | upsertReasoningHypothesisBatch snapshot hypotheses clock =>
    exact (upsertReasoningHypothesisBatch_writes authority snapshot hypotheses clock).reply _ _
  | transitionHypothesisState id subject state revisions now =>
    exact fun s => (wp_map _ _).mpr (transitionHypothesisState_writes id subject state revisions now s)
  | commitIfSnapshotCurrent snapshot =>
    exact fun s => (wp_mapErr _ _).mpr (commitIfSnapshotCurrent_writes authority snapshot _ s)

/-- **A call writes record by record or not at all.** -/
theorem exec_writes (op : KnowledgeOp) :
    Writes KnowledgeStep (op.exec authority) := by
  by_cases h : op.observes = false
  · exact (exec_records authority h).any
  · cases op with
    | insertEvidence order evidence => exact (insertEvidence_writes order evidence).reply _ _
    | insertEvidenceBatch order evidence => exact (insertEvidenceBatch_writes order evidence).reply _ _
    | insertEvidenceWithRelation evidence relation =>
      exact (insertEvidenceWithRelation_writes evidence relation).reply _ _
    | _ => exact absurd rfl h

end Writes

end Termivar
