/-
# Reasoning batches settle

A batch of hypotheses that was committed once is settled: every hypothesis of
it is stored with its evaluation, or with a terminal state that was kept. What
is settled is written again without any change, whatever the clock says. No
commit of a reasoning batch, and no transition of a verifier, changes a terminal
state.
-/
import Termivar.Knowledge.Writes

namespace Termivar

open Command SecondaryIndex List

variable {ε : Type} {s t u : KnowledgeState} {h h' : Hypothesis}

/-! ### Evaluations -/

/-- What `same_evaluation_as` compares: everything but the time. -/
def Hypothesis.evaluated (h : Hypothesis) :
    String × (EntityId × KnowledgePredicate × EvidenceValue) × BayesianBelief × HypothesisStrength ×
      HypothesisState :=
  (h.id, h.claim, h.belief, h.strength, h.state)

theorem sameEvaluationAs_iff : h.sameEvaluationAs h' = true ↔ h.evaluated = h'.evaluated := by
  simp [Hypothesis.sameEvaluationAs, Hypothesis.evaluated, Hypothesis.claim, and_assoc]

theorem sameHypothesisClaim_iff : sameHypothesisClaim h h' = true ↔ h.claim = h'.claim := by
  simp [sameHypothesisClaim, Hypothesis.claim, and_assoc]

/-- The state with which a hypothesis is written over a stored one. -/
def keptState (stored : HypothesisState) (state : HypothesisState) : HypothesisState :=
  if isTerminalHypothesisState stored then stored else state

theorem evaluated_preserve {stored : Hypothesis} (now : Nat)
    (hget : s.hypotheses[h.id]? = some stored) :
    (preserveTerminalState s h now).evaluated =
      (h.id, h.claim, h.belief, h.strength, keptState stored.state h.state) := by
  simp only [preserveTerminalState, hget, keptState]
  split_ifs <;> rfl

theorem preserve_of_none (now : Nat) (hget : s.hypotheses[h.id]? = none) :
    preserveTerminalState s h now = h := by
  simp only [preserveTerminalState, hget]

theorem preserve_congr (now now' : Nat) (heq : h.evaluated = h'.evaluated) :
    (preserveTerminalState s h now).evaluated = (preserveTerminalState s h' now').evaluated := by
  have hid : h.id = h'.id := congrArg (fun e => e.1) heq
  cases hget : s.hypotheses[h.id]? with
  | none => rw [preserve_of_none _ hget, preserve_of_none _ (hid ▸ hget), heq]
  | some stored =>
    rw [evaluated_preserve now hget, evaluated_preserve now' (hid ▸ hget)]
    simp only [Hypothesis.evaluated, Prod.mk.injEq] at heq ⊢
    obtain ⟨-, hclaim, hbelief, hstr, hstate⟩ := heq
    exact ⟨hid, hclaim, hbelief, hstr, by rw [hstate]⟩

/-! ### Settled hypotheses -/

/-- The hypothesis is stored as a commit would write it. -/
def Settled (s : KnowledgeState) (h : Hypothesis) : Prop :=
  ∃ stored, s.hypotheses[h.id]? = some stored ∧
    stored.evaluated = (preserveTerminalState s h 0).evaluated

/-- Every stored terminal state is still there. -/
def TerminalKept (s t : KnowledgeState) : Prop :=
  ∀ (id : String) (stored : Hypothesis), s.hypotheses[id]? = some stored →
    isTerminalHypothesisState stored.state = true →
    ∃ stored' : Hypothesis, t.hypotheses[id]? = some stored' ∧ stored'.state = stored.state

theorem TerminalKept.refl (s : KnowledgeState) : TerminalKept s s :=
  fun _ stored hget _ => ⟨stored, hget, rfl⟩

theorem TerminalKept.trans (hst : TerminalKept s t) (htu : TerminalKept t u) : TerminalKept s u := by
  intro id stored hget hterm
  obtain ⟨stored', hget', hstate⟩ := hst id stored hget hterm
  obtain ⟨stored'', hget'', hstate'⟩ := htu id stored' hget' (hstate ▸ hterm)
  exact ⟨stored'', hget'', hstate'.trans hstate⟩

/-- What the rules read of a subject besides its hypotheses is unchanged. -/
structure SameInputs (s t : KnowledgeState) : Prop where
  ontology : t.ontology = s.ontology
  evidence : ∀ subject, t.evidenceForSubject subject = s.evidenceForSubject subject
  facts : ∀ subject, t.factsForSubject subject = s.factsForSubject subject

theorem SameInputs.refl (s : KnowledgeState) : SameInputs s s := ⟨rfl, fun _ => rfl, fun _ => rfl⟩

theorem SameInputs.trans (hst : SameInputs s t) (htu : SameInputs t u) : SameInputs s u where
  ontology := htu.ontology.trans hst.ontology
  evidence subject := (htu.evidence subject).trans (hst.evidence subject)
  facts subject := (htu.facts subject).trans (hst.facts subject)

/-- Evaluations under one identifier are the same. -/
def Agreeing (hypotheses : List Hypothesis) : Prop :=
  ∀ h ∈ hypotheses, ∀ h' ∈ hypotheses, h.id = h'.id → h.evaluated = h'.evaluated

/-! ### The preflight of a batch -/

/-- What a hypothesis must agree with to join a batch. -/
theorem collectHypothesis_eq_ok_iff {pending after : BTreeMap String Hypothesis} :
    collectHypothesis s pending h = .ok after ↔
      ((∀ stored : Hypothesis, s.hypotheses[h.id]? = some stored → stored.claim = h.claim) ∧
        ∀ first : Hypothesis, pending[h.id]? = some first → first.evaluated = h.evaluated) ∧
      after = if pending.contains h.id then pending else pending.insert h.id h := by
  have hstor : (s.hypotheses[h.id]?.any fun existing => !sameHypothesisClaim existing h) = false ↔
      ∀ stored : Hypothesis, s.hypotheses[h.id]? = some stored → stored.claim = h.claim := by
    cases s.hypotheses[h.id]? <;> simp [sameHypothesisClaim_iff]
  have hpend : (pending[h.id]?.any fun existing => !existing.sameEvaluationAs h) = false ↔
      ∀ first : Hypothesis, pending[h.id]? = some first → first.evaluated = h.evaluated := by
    cases pending[h.id]? <;> simp [sameEvaluationAs_iff]
  rw [← hstor, ← hpend, ← Bool.or_eq_false_iff]
  unfold collectHypothesis
  cases (s.hypotheses[h.id]?.any (fun existing => !sameHypothesisClaim existing h) ||
      pending[h.id]?.any fun existing => !existing.sameEvaluationAs h) with
  | true => simp
  | false => simp [eq_comm (a := after)]

/-- A preflight that goes on from some collected hypotheses. -/
theorem collectHypotheses_ok_iff (hypotheses : List Hypothesis) :
    ∀ pending : BTreeMap String Hypothesis,
      (∃ after, hypotheses.foldlM (collectHypothesis s) pending = .ok after) ↔
        (∀ h ∈ hypotheses, (∀ stored : Hypothesis, s.hypotheses[h.id]? = some stored →
            stored.claim = h.claim) ∧
          ∀ first : Hypothesis, pending[h.id]? = some first → first.evaluated = h.evaluated) ∧
        Agreeing hypotheses := by
  induction hypotheses with
  | nil => intro pending; simp [Agreeing, pure, Except.pure]
  | cons h rest ih =>
    intro pending
    simp only [foldlM_cons, Checked.bind_eq_ok, collectHypothesis_eq_ok_iff]
    constructor
    · rintro ⟨after, next, ⟨hh, rfl⟩, hrest⟩
      obtain ⟨hall, hagr⟩ := (ih _).mp ⟨after, hrest⟩
      have hsame : ∀ h' ∈ rest, h'.id = h.id → h.evaluated = h'.evaluated := by
        intro h' hmem hid
        cases hget : pending[h.id]? with
        | none =>
          refine (hall h' hmem).2 h ?_
          rw [contains_eq_isSome, hget, hid]
          simp
        | some first =>
          have hnext := (hall h' hmem).2 first (by
            rw [contains_eq_isSome, hget, hid]
            simpa using hget)
          exact (hh.2 first hget).symm.trans hnext
      refine ⟨forall_mem_cons.mpr ⟨hh, fun h' hmem => ⟨(hall h' hmem).1, fun first hfirst => ?_⟩⟩, ?_⟩
      · refine (hall h' hmem).2 first ?_
        split_ifs with hcont
        · exact hfirst
        · have hne : h.id ≠ h'.id := fun hid => by
            rw [contains_eq_isSome, hid, hfirst] at hcont
            exact hcont rfl
          rw [get_insert_ne _ hne, hfirst]
      · intro h₁ hmem₁ h₂ hmem₂ hid
        obtain heq₁ | hrest₁ := mem_cons.mp hmem₁ <;>
          obtain heq₂ | hrest₂ := mem_cons.mp hmem₂
        · rw [heq₁, heq₂]
        · rw [heq₁]
          exact hsame h₂ hrest₂ (hid.symm.trans (congrArg Hypothesis.id heq₁))
        · rw [heq₂]
          exact (hsame h₁ hrest₁ (hid.trans (congrArg Hypothesis.id heq₂))).symm
        · exact hagr h₁ hrest₁ h₂ hrest₂ hid
    · rintro ⟨hall, hagr⟩
      obtain ⟨hh, hrest⟩ := forall_mem_cons.mp hall
      have hfirst : ∀ h' ∈ rest, ∀ first : Hypothesis,
          (if pending.contains h.id then pending else pending.insert h.id h)[h'.id]? = some first →
            first.evaluated = h'.evaluated := by
        intro h' hmem first hget
        split_ifs at hget with hcont
        · exact (hrest h' hmem).2 first hget
        · rw [get_insert] at hget
          split_ifs at hget with hid
          · cases hget
            exact hagr h mem_cons_self h' (mem_cons_of_mem _ hmem) hid
          · exact (hrest h' hmem).2 first hget
      obtain ⟨after, haft⟩ := (ih _).mpr ⟨fun h' hmem => ⟨(hrest h' hmem).1, hfirst h' hmem⟩,
        fun h₁ hmem₁ h₂ hmem₂ => hagr h₁ (mem_cons_of_mem _ hmem₁) h₂ (mem_cons_of_mem _ hmem₂)⟩
      exact ⟨after, _, ⟨hh, rfl⟩, haft⟩

/-- The preflight passes if no identifier has another claim in the store or
another evaluation in the batch. -/
theorem pendingHypotheses_ok_iff (hypotheses : List Hypothesis) :
    (∃ pending, pendingHypotheses s hypotheses = .ok pending) ↔
      (∀ h ∈ hypotheses, ∀ stored : Hypothesis, s.hypotheses[h.id]? = some stored →
        stored.claim = h.claim) ∧ Agreeing hypotheses := by
  unfold pendingHypotheses
  rw [collectHypotheses_ok_iff]
  simp

/-! ### Recording -/

/-- What is settled is written again without any change. -/
theorem recordHypothesis_settled (now : Nat) (hsett : Settled s h) :
    recordHypothesis (preserveTerminalState s h now) s =
      (.ok .unchanged s : Outcome ε KnowledgeState KnowledgeWrite) := by
  obtain ⟨stored, hget, heval⟩ := hsett
  have hsame : stored.sameEvaluationAs (preserveTerminalState s h now) = true :=
    sameEvaluationAs_iff.mpr (heval.trans (preserve_congr 0 now rfl))
  rw [eq_ok_iff_wp]
  unfold recordHypothesis
  simp only [wp_rules, preserveTerminalState_id, hget, hsame, if_true, and_self]

/-- A stored hypothesis with the evaluation that a commit writes settles it. -/
theorem settled_of_stored {stored : Hypothesis} (hget : s.hypotheses[h.id]? = some stored)
    (heval : stored.evaluated = (h.id, h.claim, h.belief, h.strength, stored.state))
    (hstate : stored.state = h.state ∨ isTerminalHypothesisState stored.state = true) :
    Settled s h := by
  refine ⟨stored, hget, ?_⟩
  rw [evaluated_preserve 0 hget, heval]
  have hkept : keptState stored.state h.state = stored.state := by
    unfold keptState
    rcases hstate with hstate | hterm
    · rw [hstate, ite_self]
    · rw [if_pos hterm]
  rw [hkept]

/-- What a commit stores has the evaluation of the hypothesis, but for a
terminal state that was kept. -/
theorem preserve_state (now : Nat) :
    (preserveTerminalState s h now).state = h.state ∨
      isTerminalHypothesisState (preserveTerminalState s h now).state = true := by
  unfold preserveTerminalState
  split
  · split_ifs with hterm
    · exact Or.inr hterm
    · exact Or.inl rfl
  · exact Or.inl rfl

theorem preserve_evaluated (now : Nat) :
    (preserveTerminalState s h now).evaluated =
      (h.id, h.claim, h.belief, h.strength, (preserveTerminalState s h now).state) := by
  unfold preserveTerminalState
  split
  · split_ifs <;> rfl
  · rfl

/-- The stored hypotheses are those of before, with one written as a commit
writes it; the rest of what the rules read is unchanged. -/
theorem settled_of_written {now : Nat} (hinps : SameInputs s t) (hwr : t.hypotheses =
      s.hypotheses.insert h.id (preserveTerminalState s h now)) :
    SameInputs s t ∧ TerminalKept s t ∧
      (∀ h' : Hypothesis, (h'.id = h.id → h'.evaluated = h.evaluated) → Settled s h' → Settled t h') ∧
      Settled t h := by
  have hself : t.hypotheses[h.id]? = some (preserveTerminalState s h now) := by
    rw [hwr, get_insert_self]
  have hoth : ∀ id : String, h.id ≠ id → t.hypotheses[id]? = s.hypotheses[id]? := fun id hne => by
    rw [hwr, get_insert_ne _ hne]
  have hsett : Settled t h := settled_of_stored hself (preserve_evaluated now) (preserve_state now)
  refine ⟨hinps, fun id stored hget hterm => ?_, fun h' hsame hsett' => ?_, hsett⟩
  · by_cases hid : h.id = id
    · subst hid
      refine ⟨_, hself, ?_⟩
      have heval := evaluated_preserve now hget
      rw [preserve_evaluated] at heval
      simp only [Prod.mk.injEq, true_and, keptState, if_pos hterm] at heval
      exact heval
    · exact ⟨stored, (hoth id hid).trans hget, rfl⟩
  · by_cases hid : h'.id = h.id
    · obtain ⟨stored, hget, heval⟩ := hsett
      exact ⟨stored, hid ▸ hget, heval.trans (preserve_congr 0 0 (hsame hid).symm)⟩
    · obtain ⟨stored, hget, heval⟩ := hsett'
      have hget' : t.hypotheses[h'.id]? = some stored := (hoth _ (Ne.symm hid)).trans hget
      refine ⟨stored, hget', ?_⟩
      rw [heval, evaluated_preserve 0 hget, evaluated_preserve 0 hget']

/-- One hypothesis of a reasoning batch. -/
theorem recordHypothesis_settles (h : Hypothesis) (now : Nat) :
    wp (recordHypothesis (preserveTerminalState s h now) : KnowledgeCommand ε KnowledgeWrite)
      (fun _ t => SameInputs s t ∧ TerminalKept s t ∧
        (∀ h' : Hypothesis, (h'.id = h.id → h'.evaluated = h.evaluated) → Settled s h' →
          Settled t h') ∧ Settled t h)
      (fun _ _ => False) True s := by
  unfold recordHypothesis
  rw [wp_bind, wp_get, preserveTerminalState_id]
  cases hstor : s.hypotheses[h.id]? with
  | none =>
    simp only [wp_rules, wp_bumpSubjectRevision]
    exact ⟨fun _ => settled_of_written ⟨rfl, fun _ => rfl, fun _ => rfl⟩ rfl, fun _ => trivial⟩
  | some stored =>
    simp only [wp_rules, wp_bumpSubjectRevision]
    refine ⟨fun hsame => ?_, fun _ => ⟨fun _ => ?_, fun _ => trivial⟩⟩
    · refine ⟨.refl s, .refl s, fun _ _ hsett => hsett, stored, hstor, ?_⟩
      exact (sameEvaluationAs_iff.mp hsame).trans (preserve_congr now 0 rfl)
    · exact settled_of_written ⟨rfl, fun _ => rfl, fun _ => rfl⟩ rfl

/-- A batch whose evaluations agree settles. -/
theorem recordHypothesisBatch_settles (clock : Nat → Nat) : ∀ (hypotheses : List Hypothesis)
    (turn : Nat) (s : KnowledgeState), Agreeing hypotheses →
    wp (recordHypothesisBatch true clock hypotheses turn : KnowledgeCommand ε (List KnowledgeWrite))
      (fun writes t => (SameInputs s t ∧ TerminalKept s t ∧
        (∀ h' : Hypothesis, (∀ h ∈ hypotheses, h'.id = h.id → h'.evaluated = h.evaluated) →
          Settled s h' → Settled t h') ∧ ∀ h ∈ hypotheses, Settled t h) ∧
        writes.length = hypotheses.length)
      (fun _ _ => False) True s
  | [], turn, s, _ => by
    simp only [recordHypothesisBatch, wp_pure]
    exact ⟨⟨.refl s, .refl s, fun _ _ hsett => hsett, by simp⟩, rfl⟩
  | h :: rest, turn, s, hagr => by
    have hrest : Agreeing rest := fun h₁ hmem₁ h₂ hmem₂ =>
      hagr h₁ (mem_cons_of_mem _ hmem₁) h₂ (mem_cons_of_mem _ hmem₂)
    unfold recordHypothesisBatch
    simp only [wp_rules, if_true]
    refine wp_mono (recordHypothesis_settles h (clock turn)) (fun _ t ht => ?_) (fun _ _ hf => hf) id
    obtain ⟨hinps, hkept, hoth, hself⟩ := ht
    refine wp_mono (recordHypothesisBatch_settles clock rest (turn + 1) t hrest)
      (fun writes u hu => ?_) (fun _ _ hf => hf) id
    obtain ⟨⟨hinps', hkept', hoth', hall⟩, hlength⟩ := hu
    refine ⟨⟨hinps.trans hinps', hkept.trans hkept', fun h' hsame hsett => ?_, ?_⟩, by simp [hlength]⟩
    · obtain ⟨hhead, htail⟩ := forall_mem_cons.mp hsame
      exact hoth' h' htail (hoth h' hhead hsett)
    · refine forall_mem_cons.mpr ⟨hoth' h (fun h' hmem => ?_) hself, hall⟩
      exact hagr h mem_cons_self h' (mem_cons_of_mem _ hmem)

/-- A settled batch is written again without any change. -/
theorem recordHypothesisBatch_settled (clock : Nat → Nat) : ∀ (hypotheses : List Hypothesis)
    (turn : Nat), (∀ h ∈ hypotheses, Settled s h) →
    recordHypothesisBatch true clock hypotheses turn s =
      (.ok (replicate hypotheses.length .unchanged) s :
        Outcome ε KnowledgeState (List KnowledgeWrite))
  | [], turn, _ => rfl
  | h :: rest, turn, hsett => by
    obtain ⟨hhead, htail⟩ := forall_mem_cons.mp hsett
    have hrest := recordHypothesisBatch_settled clock rest (turn + 1) htail
    rw [eq_ok_iff_wp] at hrest ⊢
    unfold recordHypothesisBatch
    simp only [wp_rules, if_true]
    rw [wp_of_eq_ok (recordHypothesis_settled (clock turn) hhead)]
    refine wp_mono hrest (fun writes t ht => ?_) (fun _ _ hf => hf) id
    rw [ht.1, length_cons, replicate_succ]
    exact ⟨rfl, ht.2⟩

/-! ### Commits -/

/-- The commit of a batch from a snapshot of the state it is written to: the
preflight, and then the batch. -/
theorem upsert_current (authority : KnowledgeAuthority) (subject : EntityId)
    (hypotheses : List Hypothesis) (clock : Nat → Nat)
    (hsubj : ∀ h ∈ hypotheses, h.subject = subject) :
    upsertReasoningHypothesisBatch authority (s.snapshotForSubject authority subject) hypotheses clock s =
      match pendingHypotheses s hypotheses with
      | .ok _ => recordHypothesisBatch true clock hypotheses 0 s
      | .error failure => .error failure s := by
  have hrev : s.validateRevisions subject (s.subjectRevision subject) s.ontologyRevision =
      .ok () := by
    simp [KnowledgeState.validateRevisions]
  unfold upsertReasoningHypothesisBatch
  cases hfind : hypotheses.find? fun h =>
      h.subject ≠ (s.snapshotForSubject authority subject).subject with
  | some mismatched =>
    have hne := find?_some hfind
    rw [decide_eq_true_iff] at hne
    exact absurd (hsubj mismatched (mem_of_find?_eq_some hfind)) hne
  | none =>
    unfold upsertHypothesisBatchWithPolicy validateSnapshotAuthority
    simp only [KnowledgeState.snapshotForSubject, if_true]
    show (liftM (s.validateRevisions _ _ _) >>= fun _ => liftM (pendingHypotheses s hypotheses) >>=
      fun _ => recordHypothesisBatch true clock hypotheses 0 :
        KnowledgeCommand KnowledgeBaseError (List KnowledgeWrite)) s = _
    rw [hrev]
    cases pendingHypotheses s hypotheses <;> rfl

/-- A preflight only fails with a conflict of identities. -/
theorem pendingHypotheses_error {failure : KnowledgeBaseError} {hypotheses : List Hypothesis}
    (hfail : pendingHypotheses s hypotheses = .error failure) :
    ∃ id, failure = .identityConflict .hypothesis id := by
  have hwp : Checked.wp (pendingHypotheses s hypotheses) (fun _ => True)
      fun failure => ∃ id, failure = .identityConflict .hypothesis id := by
    refine Checked.wp_foldlM (I := fun _ _ => True) trivial fun h rest pending _ => ?_
    unfold collectHypothesis
    rw [Checked.wp_ite]
    exact ⟨fun _ => ⟨h.id, rfl⟩, fun _ => trivial⟩
  rw [hfail] at hwp
  exact hwp

/-- No commit of a reasoning batch changes a terminal state. -/
theorem upsertReasoningHypothesisBatch_terminal (authority : KnowledgeAuthority)
    (snapshot : KnowledgeSnapshot) (hypotheses : List Hypothesis) (clock : Nat → Nat) :
    wp (upsertReasoningHypothesisBatch authority snapshot hypotheses clock)
      (fun _ t => TerminalKept s t) (fun _ t => t = s) True s := by
  unfold upsertReasoningHypothesisBatch
  cases hypotheses.find? fun h => h.subject ≠ snapshot.subject with
  | some mismatched => exact rfl
  | none =>
    unfold upsertHypothesisBatchWithPolicy
    simp only [wp_rules]
    refine Checked.wp_of_forall (fun _ => ?_) (fun _ => trivial)
    refine Checked.wp_of_forall (fun _ => ?_) (fun _ => trivial)
    cases hpend : pendingHypotheses s hypotheses with
    | error failure => trivial
    | ok pending =>
      have hagr := ((pendingHypotheses_ok_iff hypotheses).mp ⟨pending, hpend⟩).2
      exact wp_mono (recordHypothesisBatch_settles clock hypotheses 0 s hagr)
        (fun _ _ ht => ht.1.2.1) (fun _ _ hf => hf.elim) id

/-- No transition to a terminal state changes another terminal state. -/
theorem transitionHypothesisState_terminal (hypothesisId : String) (expectedSubject : EntityId)
    {newState : HypothesisState} (hnew : isTerminalHypothesisState newState = true)
    (expectedRevisions : Option (Nat × Nat)) (now : Nat) :
    wp (transitionHypothesisState hypothesisId expectedSubject newState expectedRevisions now :
        KnowledgeCommand ε HypothesisStateTransition)
      (fun _ t => TerminalKept s t) (fun _ _ => False) True s := by
  unfold transitionHypothesisState
  rw [wp_bind, wp_get]
  cases hstor : s.hypotheses[hypothesisId]? with
  | none => exact .refl s
  | some stored =>
    simp only [wp_rules]
    refine ⟨fun _ => .refl s, fun _ => ⟨fun _ => .refl s, fun _ => ⟨fun _ => .refl s, fun hopen => ?_⟩⟩⟩
    cases staleRevisions s expectedSubject expectedRevisions with
    | some failure => exact .refl s
    | none =>
      simp only [wp_rules, wp_bumpSubjectRevision]
      refine ⟨fun _ id stored' hget hterm => ?_, fun _ => trivial⟩
      by_cases hid : hypothesisId = id
      · -- The stored state was not terminal, or the transition would have been refused.
        subst hid
        rw [hstor, Option.some.injEq] at hget
        subst hget
        simp [hterm, hnew] at hopen
      · refine ⟨stored', ?_, rfl⟩
        simp only [KnowledgeState.bumped]
        rw [get_insert_ne _ hid, hget]

end Termivar
