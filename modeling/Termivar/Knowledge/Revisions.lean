/-
# Revisions tell knowledge apart

Every write of a record bumps the revision of its subject, every insertion
into the ontology the revision of the ontology, and revisions only grow. So a
snapshot whose revisions are still current is a snapshot of the present
knowledge, and a call that is checked against a snapshot takes effect only on
the knowledge the snapshot shows.
-/
import Termivar.Knowledge.Indexing

namespace Termivar

open SecondaryIndex Relation Command KnowledgeOp

/-! ### What a revision stands for -/

/-- The records of a subject are the same. -/
structure SameVisible (subject : EntityId) (s t : KnowledgeState) : Prop where
  evidence : SameUnder Evidence.subject subject s.evidence t.evidence
  facts : SameUnder Fact.subject subject s.facts t.facts
  hypotheses : SameUnder Hypothesis.subject subject s.hypotheses t.hypotheses

/-- Revisions grow, and what has the same revision is the same. -/
structure Tracked (s t : KnowledgeState) : Prop where
  grows : ∀ subject, s.subjectRevision subject ≤ t.subjectRevision subject
  visible : ∀ subject, t.subjectRevision subject = s.subjectRevision subject → SameVisible subject s t
  ontologyGrows : s.ontologyRevision ≤ t.ontologyRevision
  ontology : t.ontologyRevision = s.ontologyRevision → t.ontology = s.ontology

section Steps

variable {s t u : KnowledgeState}

theorem SameVisible.refl (subject : EntityId) (s : KnowledgeState) : SameVisible subject s s :=
  ⟨.refl _, .refl _, .refl _⟩

theorem SameVisible.trans {subject : EntityId} (h : SameVisible subject s t)
    (h' : SameVisible subject t u) : SameVisible subject s u :=
  ⟨h.evidence.trans h'.evidence, h.facts.trans h'.facts, h.hypotheses.trans h'.hypotheses⟩

theorem Tracked.refl (s : KnowledgeState) : Tracked s s where
  grows _ := le_rfl
  visible subject _ := .refl subject s
  ontologyGrows := le_rfl
  ontology _ := rfl

theorem Tracked.trans (h : Tracked s t) (h' : Tracked t u) : Tracked s u := by
  refine
    { grows := fun subject => (h.grows subject).trans (h'.grows subject)
      visible := fun subject hsame => ?_
      ontologyGrows := h.ontologyGrows.trans h'.ontologyGrows
      ontology := fun hsame => ?_ }
  -- a revision that ends where it began did not move in between
  · have h1 := h.grows subject
    have h2 := h'.grows subject
    exact (h.visible subject (by omega)).trans (h'.visible subject (by omega))
  · have h1 := h.ontologyGrows
    have h2 := h'.ontologyGrows
    rw [h'.ontology (by omega), h.ontology (by omega)]

theorem subjectRevision_bumped (subject other : EntityId) :
    (s.bumped subject).subjectRevision other =
      if subject = other then s.subjectRevision subject + 1 else s.subjectRevision other := by
  unfold KnowledgeState.bumped KnowledgeState.subjectRevision
  rw [get_insert]
  split_ifs <;> rfl

/-- A write of a record of the subject, which leaves the others alone. -/
theorem Tracked.bump {subject : EntityId}
    (hrev : t.subjectRevisions = (s.bumped subject).subjectRevisions)
    (hont : t.ontology = s.ontology) (hrevis : t.ontologyRevision = s.ontologyRevision)
    (hoths : ∀ other, subject ≠ other → SameVisible other s t) : Tracked s t := by
  have hsubj : ∀ other, t.subjectRevision other =
      if subject = other then s.subjectRevision subject + 1 else s.subjectRevision other := by
    intro other
    rw [← subjectRevision_bumped]
    unfold KnowledgeState.subjectRevision
    rw [hrev]
  refine
    { grows := fun other => ?_
      visible := fun other hsame => ?_
      ontologyGrows := hrevis.ge
      ontology := fun _ => hont }
  · rw [hsubj]
    split_ifs with heq
    · subst heq
      omega
    · exact le_rfl
  · apply hoths
    rintro rfl
    rw [hsubj, if_pos rfl] at hsame
    omega

/-- A write that touches no revision touches nothing a snapshot shows. -/
theorem Tracked.aside (hrev : t.subjectRevisions = s.subjectRevisions)
    (hev : t.evidence = s.evidence) (hfacts : t.facts = s.facts)
    (hhyp : t.hypotheses = s.hypotheses) (hgrows : s.ontologyRevision ≤ t.ontologyRevision)
    (hont : t.ontologyRevision = s.ontologyRevision → t.ontology = s.ontology) : Tracked s t where
  grows subject := by
    unfold KnowledgeState.subjectRevision
    rw [hrev]
  visible subject _ := by
    constructor
    · rw [hev]
      exact .refl _
    · rw [hfacts]
      exact .refl _
    · rw [hhyp]
      exact .refl _
  ontologyGrows := hgrows
  ontology := hont

theorem Tracked.record (hwr : RecordWrite s t) : Tracked s t := by
  cases hwr with
  | ontology ontology =>
    refine .aside rfl rfl rfl rfl (Nat.le_succ _) fun hsame => ?_
    exact absurd hsame (Nat.succ_ne_self _)
  | newFact fact hnew =>
    refine .bump rfl rfl rfl fun other hne => { SameVisible.refl other s with facts := ?_ }
    refine .insert hne fun w hw => ?_
    rw [hnew] at hw
    cases hw
  | updateFact fact hold hclaim =>
    refine .bump rfl rfl rfl fun other hne => { SameVisible.refl other s with facts := ?_ }
    refine .insert hne fun w hw => ?_
    rw [hold] at hw
    cases hw
    rw [← (Fact.claim_eq_iff.mp hclaim).1]
    exact hne
  | newHypothesis hypothesis hnew =>
    refine .bump rfl rfl rfl fun other hne => { SameVisible.refl other s with hypotheses := ?_ }
    refine .insert hne fun w hw => ?_
    rw [hnew] at hw
    cases hw
  | updateHypothesis id hypothesis hold hid hclaim =>
    refine .bump rfl rfl rfl fun other hne => { SameVisible.refl other s with hypotheses := ?_ }
    refine .insert hne fun w hw => ?_
    rw [hold] at hw
    cases hw
    rw [← (Hypothesis.claim_eq_iff.mp hclaim).1]
    exact hne
  | newEntity entity hnew => exact .aside rfl rfl rfl rfl le_rfl fun _ => rfl
  | newRelation relation hnew => exact .aside rfl rfl rfl rfl le_rfl fun _ => rfl
  | updateRelation relation hold hedge => exact .aside rfl rfl rfl rfl le_rfl fun _ => rfl

theorem Tracked.step (hstep : KnowledgeStep s t) : Tracked s t := by
  cases hstep with
  | record hwr => exact .record hwr
  | evidence evidence children hnew =>
    refine .bump rfl rfl rfl fun other hne => { SameVisible.refl other s with evidence := ?_ }
    refine .insert hne fun w hw => ?_
    rw [hnew] at hw
    cases hw

theorem Tracked.steps (hst : ReflTransGen KnowledgeStep s t) : Tracked s t := by
  induction hst with
  | refl => exact .refl s
  | tail _ hstep ih => exact ih.trans (.step hstep)

/-! ### Snapshots -/

/-- **A snapshot with current revisions shows the present knowledge.** -/
theorem snapshot_current (hs : Indexed s) (ht : Indexed t) (htrac : Tracked s t)
    (authority : KnowledgeAuthority) (subject : EntityId)
    (hsubj : t.subjectRevision subject = s.subjectRevision subject)
    (hont : t.ontologyRevision = s.ontologyRevision) :
    t.snapshotForSubject authority subject = s.snapshotForSubject authority subject := by
  have hsame := htrac.visible subject hsubj
  have hev : t.evidenceForSubject subject = s.evidenceForSubject subject :=
    (collectIndexed_congr hs.evidenceBySubject ht.evidenceBySubject hsame.evidence).symm
  have hfacts : t.factsForSubject subject = s.factsForSubject subject :=
    (collectIndexed_congr hs.factsBySubject ht.factsBySubject hsame.facts).symm
  have hhyp : t.hypothesesForSubject subject = s.hypothesesForSubject subject :=
    (collectIndexed_congr hs.hypothesesBySubject ht.hypothesesBySubject hsame.hypotheses).symm
  unfold KnowledgeState.snapshotForSubject
  rw [hsubj, hont, htrac.ontology hont, hev, hfacts, hhyp]

end Steps

/-! ### Calls checked against a snapshot -/

/-- The subject and the revisions a call is checked against. -/
def KnowledgeOp.guard : KnowledgeOp → Option (EntityId × Nat × Nat)
  | .upsertReasoningHypothesisBatch snapshot _ _ =>
    some (snapshot.subject, snapshot.subjectRevision, snapshot.ontologyRevision)
  | .transitionHypothesisState _ expectedSubject _ expectedRevisions _ =>
    expectedRevisions.map fun revisions => (expectedSubject, revisions)
  | .commitIfSnapshotCurrent snapshot =>
    some (snapshot.subject, snapshot.subjectRevision, snapshot.ontologyRevision)
  | _ => none

/-- The call did what it was asked to. -/
def KnowledgeReply.effective : KnowledgeReply → Bool
  | .transition outcome => outcome = .written .updated
  | _ => true

section Guards

variable {t : KnowledgeState}

theorem validateRevisions_spec (subject : EntityId) (subjectRevision ontologyRevision : Nat) :
    Checked.wp (t.validateRevisions subject subjectRevision ontologyRevision)
      (fun _ => t.subjectRevision subject = subjectRevision ∧ t.ontologyRevision = ontologyRevision)
      (fun _ => True) := by
  unfold KnowledgeState.validateRevisions
  rw [Checked.wp_ite]
  refine ⟨fun _ => trivial, fun hcurr => ?_⟩
  rw [not_or, not_ne_iff, not_ne_iff] at hcurr
  exact hcurr

theorem reasoning_guarded (authority : KnowledgeAuthority) (snapshot : KnowledgeSnapshot)
    (hypotheses : List Hypothesis) (clock : Nat → Nat) :
    wp (upsertReasoningHypothesisBatch authority snapshot hypotheses clock)
      (fun _ _ => t.subjectRevision snapshot.subject = snapshot.subjectRevision ∧
        t.ontologyRevision = snapshot.ontologyRevision)
      (fun _ u => u = t) True t := by
  unfold upsertReasoningHypothesisBatch
  cases hypotheses.find? fun h => h.subject ≠ snapshot.subject with
  | some hypothesis => exact rfl
  | none =>
    simp only [upsertHypothesisBatchWithPolicy, wp_rules]
    refine Checked.wp_of_forall (fun _ => ?_) (fun _ => trivial)
    refine Checked.wp_imp (validateRevisions_spec _ _ _) fun _ hcurr => ?_
    have hwrs := validated_writes (s := t) hypotheses true clock
    rw [wp_bind, wp_lift] at hwrs
    refine Checked.wp_mono hwrs (fun _ hrec => ?_) (fun _ he => trivial)
    exact wp_imp hrec (fun _ _ _ => hcurr)

theorem current_of_not_stale {subject : EntityId} {subjectRevision ontologyRevision : Nat}
    (h : staleRevisions t subject (some (subjectRevision, ontologyRevision)) = none) :
    t.subjectRevision subject = subjectRevision ∧ t.ontologyRevision = ontologyRevision := by
  have hcurr := validateRevisions_spec (t := t) subject subjectRevision ontologyRevision
  unfold staleRevisions at h
  cases hchk : t.validateRevisions subject subjectRevision ontologyRevision with
  | ok _ =>
    rw [hchk] at hcurr
    exact hcurr
  | error e =>
    simp only [hchk] at h
    cases h

theorem transition_guarded (hypothesisId : String) (expectedSubject : EntityId)
    (newState : HypothesisState) (subjectRevision ontologyRevision now : Nat) :
    wp (transitionHypothesisState hypothesisId expectedSubject newState
        (some (subjectRevision, ontologyRevision)) now :
          KnowledgeCommand KnowledgeFailure HypothesisStateTransition)
      (fun r _ => r = .written .updated →
        t.subjectRevision expectedSubject = subjectRevision ∧ t.ontologyRevision = ontologyRevision)
      (fun _ u => u = t) True t := by
  unfold transitionHypothesisState
  rw [wp_bind, wp_get]
  cases t.hypotheses[hypothesisId]? with
  | none => exact nofun
  | some hypothesis =>
    simp only [wp_rules, reduceCtorEq, false_implies, implies_true, true_and,
      HypothesisStateTransition.written.injEq]
    intro _ _ _
    cases hstl : staleRevisions t expectedSubject (some (subjectRevision, ontologyRevision)) with
    | some failure => exact nofun
    | none => simpa using fun _ => current_of_not_stale hstl

theorem commit_guarded {α : Type} (authority : KnowledgeAuthority) (snapshot : KnowledgeSnapshot)
    (commit : Unit → α) :
    wp (commitIfSnapshotCurrent authority snapshot commit)
      (fun value _ => value = commit () ∧ t.subjectRevision snapshot.subject = snapshot.subjectRevision ∧
        t.ontologyRevision = snapshot.ontologyRevision)
      (fun _ u => u = t) True t := by
  simp only [commitIfSnapshotCurrent, wp_rules]
  refine Checked.wp_of_forall (fun _ => ?_) (fun _ => trivial)
  exact Checked.wp_imp (validateRevisions_spec _ _ _) (fun _ hcurr => ⟨trivial, hcurr⟩)

/-- A guarded call takes effect only while its revisions are current, and
without effect it leaves the state alone. -/
theorem guarded_current (authority : KnowledgeAuthority) {op : KnowledgeOp} {subject : EntityId}
    {subjectRevision ontologyRevision : Nat}
    (hgd : op.guard = some (subject, subjectRevision, ontologyRevision)) :
    wp (op.exec authority) (fun value u => (value.effective = true →
          t.subjectRevision subject = subjectRevision ∧ t.ontologyRevision = ontologyRevision) ∧
        (value.effective = false → u = t))
      (fun _ u => u = t) True t := by
  cases op with
  | upsertReasoningHypothesisBatch snapshot hypotheses clock =>
    obtain ⟨rfl, rfl, rfl⟩ := by simpa [KnowledgeOp.guard] using hgd
    unfold exec
    rw [wp_map, wp_mapErr]
    exact wp_mono (reasoning_guarded authority snapshot hypotheses clock)
      (fun _ _ hcurr => ⟨fun _ => hcurr, nofun⟩) (fun _ _ hu => hu) id
  | transitionHypothesisState id expectedSubject newState revisions now =>
    obtain ⟨revisions, rfl, heq⟩ := Option.map_eq_some_iff.mp hgd
    cases heq
    have hqt := transition_refused (s := t) authority id subject newState
      (some (subjectRevision, ontologyRevision)) now
    unfold exec at hqt ⊢
    rw [wp_map] at hqt ⊢
    refine wp_mono (wp_and hqt (transition_guarded id subject newState subjectRevision
      ontologyRevision now)) (fun outcome u h => ⟨fun heff => ?_, fun hidle => ?_⟩)
      (fun _ _ hu => hu.1) (fun _ => trivial)
    · exact h.2 (by simpa [KnowledgeReply.effective] using heff)
    · exact h.1 (by simpa [KnowledgeReply.effective] using hidle)
  | commitIfSnapshotCurrent snapshot =>
    obtain ⟨rfl, rfl, rfl⟩ := by simpa [KnowledgeOp.guard] using hgd
    unfold exec
    rw [wp_mapErr]
    refine wp_mono (commit_guarded authority snapshot _) (fun value u h => ?_) (fun _ _ hu => hu) id
    obtain ⟨rfl, hcurr⟩ := h
    exact ⟨fun _ => hcurr, nofun⟩
  | _ => cases hgd

end Guards

/-! ### Runs -/

section Runs

variable {authority : KnowledgeAuthority} {s t : KnowledgeState} {ops more : List KnowledgeOp}
  {trace trace' : List (KnowledgeOp × Except KnowledgeFailure KnowledgeReply)}

/-- **Revisions tell knowledge apart.** A snapshot taken in a run shows the
evidence, the facts, the hypotheses and the ontology of every later state with
its revisions. So a call checked against the snapshot (a reasoning batch, a
transition with revisions, a commit) takes effect only on the knowledge the
snapshot shows, and otherwise leaves the state as it was. -/
theorem snapshots_tell_knowledge
    (hrun : run (KnowledgeOp.exec authority) .new ops = some (trace, s))
    (hmore : run (KnowledgeOp.exec authority) s more = some (trace', t)) (subject : EntityId) :
    (t.subjectRevision subject = (s.snapshotForSubject authority subject).subjectRevision →
      t.ontologyRevision = (s.snapshotForSubject authority subject).ontologyRevision →
      t.snapshotForSubject authority subject = s.snapshotForSubject authority subject) ∧
    ∀ (op : KnowledgeOp) (r : Except KnowledgeFailure KnowledgeReply) (u : KnowledgeState),
      op.guard = some (subject, (s.snapshotForSubject authority subject).subjectRevision,
        (s.snapshotForSubject authority subject).ontologyRevision) →
      reply (op.exec authority) t = some (r, u) →
      ((∃ value, r = .ok value ∧ value.effective = true) →
        t.snapshotForSubject authority subject = s.snapshotForSubject authority subject) ∧
      (¬ (∃ value, r = .ok value ∧ value.effective = true) → u = t) := by
  have hind := indexed_of_run hrun
  have hst := steps_of_run hmore
  have hcurr := snapshot_current hind (hind.steps hst) (.steps hst) authority subject
  refine ⟨hcurr, fun op r u hgd hr => ?_⟩
  obtain ⟨hok, herr, -⟩ := wp_iff_reply.mp (guarded_current (t := t) authority hgd)
  cases r with
  | error e => exact ⟨nofun, fun _ => herr e u hr⟩
  | ok value =>
    obtain ⟨heff, hidle⟩ := hok value u hr
    constructor
    · rintro ⟨_, ⟨⟩, h⟩
      exact hcurr (heff h).1 (heff h).2
    · intro hnone
      exact hidle (Bool.eq_false_iff.mpr fun h => hnone ⟨value, rfl, h⟩)

/-- An observation of another host. -/
def otherObserved : Evidence :=
  { portObserved true with id := ⟨"port-81", by decide⟩, subject := ⟨"other", by decide⟩ }

theorem snapshots_tell_knowledge_port : ∃ trace s trace' t,
    run (KnowledgeOp.exec ⟨0⟩) .new portRun = some (trace, s) ∧
    run (KnowledgeOp.exec ⟨0⟩) s [.insertEvidence .sorted otherObserved] = some (trace', t) ∧
    s.subjectRevision webHost = 1 ∧ t.subjectRevision webHost = 1 ∧ t.evidence.size = 2 ∧
    t.snapshotForSubject ⟨0⟩ webHost = s.snapshotForSubject ⟨0⟩ webHost := by
  have hvalue : ((run (KnowledgeOp.exec ⟨0⟩) .new portRun).bind fun q =>
      (run (KnowledgeOp.exec ⟨0⟩) q.2 [.insertEvidence .sorted otherObserved]).map fun q' =>
        ((q.2.subjectRevision webHost, q.2.ontologyRevision),
          (q'.2.subjectRevision webHost, q'.2.ontologyRevision), q'.2.evidence.size)) =
      some ((1, 0), (1, 0), 2) := by decide +kernel
  obtain ⟨⟨trace, s⟩, hrun, hnext⟩ := Option.bind_eq_some_iff.mp hvalue
  obtain ⟨⟨trace', t⟩, hmore, hnums⟩ := Option.map_eq_some_iff.mp hnext
  simp only [Prod.mk.injEq] at hnums
  obtain ⟨⟨hs, hont⟩, ⟨ht, hont'⟩, hsize⟩ := hnums
  have hcurr := (snapshots_tell_knowledge hrun hmore webHost).1 (ht.trans hs.symm)
    (hont'.trans hont.symm)
  exact ⟨trace, s, trace', t, hrun, hmore, hs, ht, hsize, hcurr⟩

end Runs

end Termivar
