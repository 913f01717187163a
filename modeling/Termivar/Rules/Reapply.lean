/-
# Applying the rules again

The rules that read no hypotheses see the same inputs after a commit as before
it: an `apply` that follows one that succeeded evaluates to the same hypotheses
but for the time, finds all of them settled and changes nothing. A failing
`apply` changes nothing either, and in any run of `apply` and of verifier
transitions, also of transitions that come between the snapshot of an attempt
and its commit, no terminal state changes.
-/
import Termivar.Rules.Engine
import Termivar.Rules.Provenance
import Termivar.Rules.Settling

namespace Termivar

open Command RuleEvaluation List Option

/-! ### Evaluation on the same inputs -/

section Evaluation

variable {snapshot snapshot' : KnowledgeSnapshot}

/-- The snapshots differ in their hypotheses and revisions only. -/
structure SameReadings (snapshot snapshot' : KnowledgeSnapshot) : Prop where
  subject : snapshot'.subject = snapshot.subject
  ontology : snapshot'.ontology = snapshot.ontology
  evidence : snapshot'.evidence = snapshot.evidence
  facts : snapshot'.facts = snapshot.facts

theorem SameReadings.records (h : SameReadings snapshot snapshot') {layer : KnowledgeLayer}
    (hlay : layer ≠ .hypothesis) : snapshot'.records layer = snapshot.records layer := by
  cases layer with
  | evidence => simp [KnowledgeSnapshot.records, h.evidence]
  | fact => simp [KnowledgeSnapshot.records, h.facts]
  | hypothesis => exact absurd rfl hlay

/-- A condition that reads no hypotheses has the same trace on both. -/
theorem evaluateNode_congr (h : SameReadings snapshot snapshot') {e : Expression}
    (hfree : e.hypothesisFree = true) : evaluateNode snapshot' e = evaluateNode snapshot e := by
  have hgrp : ∀ es : List Expression,
      (∀ e ∈ es, evaluateNode snapshot' e = evaluateNode snapshot e) →
      evaluateChildren snapshot' es = evaluateChildren snapshot es := by
    intro es hes
    induction es with
    | nil => rfl
    | cons e es ih =>
      obtain ⟨hhead, htail⟩ := forall_mem_cons.mp hes
      rw [evaluateChildren, evaluateChildren, hhead, ih htail]
  have hlay : ∀ label layer predicate test, decide (layer ≠ .hypothesis) = true →
      evaluateLayer label layer predicate test snapshot' =
        evaluateLayer label layer predicate test snapshot := by
    intro label layer predicate test hlay
    unfold evaluateLayer
    rw [h.records (of_decide_eq_true hlay)]
  induction e using Expression.inductionOn with
  | all es ih =>
    have hes := (Expression.every_all.mp hfree).2
    rw [evaluateNode, evaluateNode, hgrp es fun e he => ih e he (hes e he)]
  | any es ih =>
    have hes := (Expression.every_any.mp hfree).2
    rw [evaluateNode, evaluateNode, hgrp es fun e he => ih e he (hes e he)]
  | negate e ih => rw [evaluateNode, evaluateNode, ih (Expression.every_negate.mp hfree).2]
  | claim layer predicate value => exact congrArg pure (hlay _ layer predicate _ hfree)
  | textContains layer predicate needle ci =>
    exact congrArg pure (hlay _ layer predicate _ hfree)
  | textListContainsExact layer predicate value =>
    exact congrArg pure (hlay _ layer predicate _ hfree)
  | ontologyRelation subject relation object => rw [evaluateNode, evaluateNode, h.ontology]

theorem materializeBelief_congr (h : SameReadings snapshot snapshot') (rule : ReasoningRule)
    (evidenceIds : BTreeSet EvidenceId) :
    materializeBelief rule evidenceIds snapshot' = materializeBelief rule evidenceIds snapshot := by
  unfold materializeBelief collectObservations contributions
  rw [h.evidence]

/-- Evaluations that differ in the time of their hypotheses only. -/
structure SameEvaluation (before after : RuleEvaluation) : Prop where
  ruleId : after.ruleId = before.ruleId
  condition : after.condition = before.condition
  hypothesis : after.hypothesis.map Hypothesis.evaluated = before.hypothesis.map Hypothesis.evaluated

variable {rule : ReasoningRule} {now : Nat}

theorem materializeHypothesis_eq_ok {condition : ExpressionTrace} {hypothesis : Hypothesis} :
    materializeHypothesis rule snapshot condition now = .ok hypothesis ↔
      ∃ belief, materializeBelief rule condition.evidenceIds snapshot = .ok belief ∧
        hypothesis = { id := hypothesisIdForRule rule.id snapshot.subject
                       subject := snapshot.subject
                       predicate := rule.conclusion.predicate
                       value := rule.conclusion.value
                       belief
                       strength := rule.conclusion.strength
                       state := rule.conclusion.state
                       updatedAtMs := now
                       idNotBlank := hypothesisIdForRule_notBlank rule.id snapshot.subject } := by
  simp only [materializeHypothesis, Checked.bind_eq_ok, pure, Except.pure, Except.ok.injEq,
    eq_comm (a := hypothesis)]

/-- What an evaluation that passes is: a hypothesis of the subject if the
condition matched, and none otherwise. -/
theorem evaluateRule_eq_ok {evaluation : RuleEvaluation} :
    evaluateRule rule snapshot now = .ok evaluation ↔
      evaluation.ruleId = rule.id ∧ evaluateNode snapshot rule.condition = .ok evaluation.condition ∧
      ((evaluation.condition.matched = false ∧ evaluation.hypothesis = none) ∨
        (evaluation.condition.matched = true ∧ ∃ hypothesis, evaluation.hypothesis = some hypothesis ∧
          materializeHypothesis rule snapshot evaluation.condition now = .ok hypothesis)) := by
  obtain ⟨ruleId, condition, hypothesis⟩ := evaluation
  rw [evaluateRule, Checked.bind_eq_ok]
  constructor
  · rintro ⟨trace, htr, hrest⟩
    cases hmatc : trace.matched with
    | false =>
      rw [hmatc] at hrest
      cases hrest
      exact ⟨rfl, htr, Or.inl ⟨hmatc, rfl⟩⟩
    | true =>
      rw [hmatc, if_pos rfl, Checked.bind_eq_ok] at hrest
      obtain ⟨result, hres, hok⟩ := hrest
      cases hok
      cases hmat : materializeHypothesis rule snapshot condition now with
      | error failure =>
        rw [hmat] at hres
        cases hres
      | ok value =>
        rw [hmat] at hres
        cases hres
        exact ⟨rfl, htr, Or.inr ⟨hmatc, value, rfl, rfl⟩⟩
  · rintro ⟨rfl, htr, ⟨hmatc, rfl⟩ | ⟨hmatc, value, rfl, hmat⟩⟩
    · refine ⟨condition, htr, ?_⟩
      simp only at hmatc
      rw [hmatc]
      rfl
    · refine ⟨condition, htr, ?_⟩
      simp only at hmatc hmat
      rw [hmatc, if_pos rfl, hmat]
      rfl

theorem evaluateRule_again (h : SameReadings snapshot snapshot')
    (hfree : rule.condition.hypothesisFree = true) (now' : Nat)
    {evaluation : RuleEvaluation} (heval : evaluateRule rule snapshot now = .ok evaluation) :
    ∃ again, evaluateRule rule snapshot' now' = .ok again ∧ SameEvaluation evaluation again := by
  obtain ⟨hid, hcond, hcases⟩ := evaluateRule_eq_ok.mp heval
  rw [← evaluateNode_congr h hfree] at hcond
  rcases hcases with ⟨hmatc, hnone⟩ | ⟨hmatc, hypothesis, hsome, hmat⟩
  · refine ⟨⟨evaluation.ruleId, evaluation.condition, none⟩,
      evaluateRule_eq_ok.mpr ⟨hid, hcond, Or.inl ⟨hmatc, rfl⟩⟩, rfl, rfl, ?_⟩
    rw [hnone]
  · obtain ⟨belief, hbelief, rfl⟩ := materializeHypothesis_eq_ok.mp hmat
    rw [← materializeBelief_congr h] at hbelief
    refine ⟨⟨evaluation.ruleId, evaluation.condition, some _⟩, evaluateRule_eq_ok.mpr ⟨hid, hcond,
      Or.inr ⟨hmatc, _, rfl, materializeHypothesis_eq_ok.mpr ⟨belief, hbelief, rfl⟩⟩⟩, rfl, rfl, ?_⟩
    rw [hsome]
    simp only [map_some, Hypothesis.evaluated, Hypothesis.claim, h.subject]

/-- The rules evaluate again to the same hypotheses, but for the time. -/
theorem evaluateSnapshot_again {engine : RuleEngine} (h : SameReadings snapshot snapshot')
    (hfree : ∀ (id : String) (rule : ReasoningRule), engine.rules[id]? = some rule →
      rule.condition.hypothesisFree = true)
    {now : String → Nat} (now' : String → Nat) {evaluations : List RuleEvaluation}
    (heval : engine.evaluateSnapshot now snapshot = .ok evaluations) :
    ∃ again, engine.evaluateSnapshot now' snapshot' = .ok again ∧
      List.Forall₂ SameEvaluation evaluations again := by
  have hmem : ∀ entry ∈ engine.rules.toList, entry.2.condition.hypothesisFree = true :=
    fun entry hent => hfree entry.1 entry.2 (mem_toList.mp hent)
  unfold RuleEngine.evaluateSnapshot at heval ⊢
  simp only [Checked.mapM_eq_ok_iff] at heval ⊢
  generalize engine.rules.toList = entries at heval hmem ⊢
  induction heval with
  | nil => exact ⟨[], .nil, .nil⟩
  | cons hhead _ ih =>
    obtain ⟨hent, hrest⟩ := forall_mem_cons.mp hmem
    obtain ⟨again, hagain, hsame⟩ := evaluateRule_again h hent (now' _) hhead
    obtain ⟨rest, hrest, hsames⟩ := ih hrest
    exact ⟨again :: rest, .cons hagain hrest, .cons hsame hsames⟩

theorem evaluated_again {evaluations again : List RuleEvaluation}
    (h : List.Forall₂ SameEvaluation evaluations again) :
    (again.filterMap hypothesis).map Hypothesis.evaluated =
      (evaluations.filterMap hypothesis).map Hypothesis.evaluated := by
  induction h with
  | nil => rfl
  | @cons before after rest rest' hsame _ ih =>
    have hhead := hsame.hypothesis
    cases hb : before.hypothesis with
    | none =>
      rw [hb, map_none, map_eq_none_iff] at hhead
      rw [filterMap_cons_none hhead, filterMap_cons_none hb, ih]
    | some hypothesis =>
      rw [hb, map_some, map_eq_some_iff] at hhead
      obtain ⟨hypothesis', ha, heq⟩ := hhead
      rw [filterMap_cons_some ha, filterMap_cons_some hb, map_cons, map_cons, ih, heq]

theorem exists_of_map_eq {α β : Type} {f : α → β} {xs ys : List α} (h : ys.map f = xs.map f) :
    ∀ y ∈ ys, ∃ x ∈ xs, f x = f y := by
  intro y hy
  have hmem : f y ∈ xs.map f := h ▸ mem_map_of_mem hy
  exact mem_map.mp hmem

end Evaluation

/-! ### Writes and their rules -/

/-- One write for each hypothesis is enough for all evaluations. -/
theorem alignWrites_some : ∀ {evaluations : List RuleEvaluation} {writes : List KnowledgeWrite},
    writes.length = (evaluations.filterMap hypothesis).length →
    ∃ applications, alignWrites evaluations writes = some applications ∧
      applications.map RuleApplication.evaluation = evaluations ∧
      ∀ application ∈ applications, (application.evaluation.hypothesis.isSome = true →
        ∃ write ∈ writes, application.write = some write)
  | [], writes, _ => ⟨[], rfl, rfl, by simp⟩
  | evaluation :: rest, writes, hlength => by
    cases hhyp : evaluation.hypothesis with
    | none =>
      rw [filterMap_cons_none hhyp] at hlength
      obtain ⟨applications, halign, hmap, hwr⟩ := alignWrites_some hlength
      refine ⟨⟨evaluation, none⟩ :: applications, ?_, by simp [hmap], ?_⟩
      · simp [alignWrites, hhyp, halign]
      · exact forall_mem_cons.mpr ⟨fun hsome => by simp [hhyp] at hsome, hwr⟩
    | some hypothesis =>
      rw [filterMap_cons_some hhyp] at hlength
      cases writes with
      | nil => cases hlength
      | cons write writes =>
        obtain ⟨applications, halign, hmap, hwr⟩ := alignWrites_some (Nat.succ.inj hlength)
        refine ⟨⟨evaluation, some write⟩ :: applications, ?_, by simp [hmap], ?_⟩
        · simp [alignWrites, hhyp, halign]
        · refine forall_mem_cons.mpr ⟨fun _ => ⟨write, mem_cons_self, rfl⟩, ?_⟩
          intro application hmem hsome
          obtain ⟨w, hw, heq⟩ := hwr application hmem hsome
          exact ⟨w, mem_cons_of_mem _ hw, heq⟩

/-! ### One call -/

section Call

variable {engine : RuleEngine} {authority : KnowledgeAuthority} {subject : EntityId}
  {clock : ApplyClock} {s t : KnowledgeState}

variable {evaluations : List RuleEvaluation} {now : String → Nat}

theorem subject_of_evaluated {snapshot : KnowledgeSnapshot}
    (heval : engine.evaluateSnapshot now snapshot = .ok evaluations) :
    ∀ h ∈ evaluations.filterMap hypothesis, h.subject = snapshot.subject := by
  intro h hmem
  obtain ⟨evaluation, hevaluation, hhyp⟩ := mem_filterMap.mp hmem
  obtain ⟨entry, -, hrule⟩ := forall₂_mem_right (Checked.mapM_eq_ok_iff.mp heval) hevaluation
  obtain ⟨-, -, ⟨-, hnone⟩ | ⟨-, hypothesis, hsome, hmat⟩⟩ := evaluateRule_eq_ok.mp hrule
  · rw [hhyp] at hnone
    cases hnone
  · rw [hhyp] at hsome
    cases hsome
    obtain ⟨belief, -, rfl⟩ := materializeHypothesis_eq_ok.mp hmat
    rfl

theorem evaluateSnapshot_ruleIds {snapshot : KnowledgeSnapshot}
    (heval : engine.evaluateSnapshot now snapshot = .ok evaluations) :
    evaluations.map ruleId = engine.rules.toList.map fun entry => entry.2.id := by
  have hall := Checked.mapM_eq_ok_iff.mp heval
  clear heval
  generalize engine.rules.toList = entries at hall
  induction hall with
  | nil => rfl
  | cons hrule _ ih => rw [map_cons, map_cons, ih, (evaluateRule_eq_ok.mp hrule).1]

/-- A rule whose condition matched has a hypothesis. -/
theorem isSome_of_matched {snapshot : KnowledgeSnapshot}
    (heval : engine.evaluateSnapshot now snapshot = .ok evaluations) {evaluation : RuleEvaluation}
    (hmem : evaluation ∈ evaluations) (hmatc : evaluation.condition.matched = true) :
    evaluation.hypothesis.isSome = true := by
  obtain ⟨entry, -, hrule⟩ := forall₂_mem_right (Checked.mapM_eq_ok_iff.mp heval) hmem
  obtain ⟨-, -, ⟨hunm, -⟩ | ⟨-, hypothesis, hsome, -⟩⟩ := evaluateRule_eq_ok.mp hrule
  · rw [hmatc] at hunm
    cases hunm
  · rw [hsome]
    rfl

/-- The snapshot of the first attempt is current, so that attempt decides. -/
theorem wp_apply {ok : List RuleApplication → KnowledgeState → Prop}
    {err : RuleEngineError → KnowledgeState → Prop} {pan : Prop}
    (heval : ∀ failure, engine.evaluateSnapshot (clock.materialize 1)
      (s.snapshotForSubject authority subject) = .error failure → err failure s)
    (hpend : ∀ evaluations failure, engine.evaluateSnapshot (clock.materialize 1)
        (s.snapshotForSubject authority subject) = .ok evaluations →
      pendingHypotheses s (evaluations.filterMap hypothesis) = .error failure →
      err (.knowledge failure) s)
    (hrec : ∀ evaluations pending, engine.evaluateSnapshot (clock.materialize 1)
        (s.snapshotForSubject authority subject) = .ok evaluations →
      pendingHypotheses s (evaluations.filterMap hypothesis) = .ok pending →
      wp (recordHypothesisBatch true (clock.commit 1) (evaluations.filterMap hypothesis) 0 :
            KnowledgeCommand KnowledgeBaseError (List KnowledgeWrite))
        (fun writes t => ∃ applications, alignWrites evaluations writes = some applications ∧
          ok applications t) (fun _ _ => False) pan s) :
    wp (engine.apply authority subject clock) ok err pan s := by
  unfold RuleEngine.apply RuleEngine.applyWithBeforeCommit maxReasoningApplyAttempts
  rw [RuleEngine.applyAttempts]
  simp only [wp_rules, interleave, wp_attempt]
  cases heval' : engine.evaluateSnapshot (clock.materialize 1)
      (s.snapshotForSubject authority subject) with
  | error failure => exact heval failure heval'
  | ok evaluations =>
    rw [Checked.wp_ok]
    unfold wp
    rw [upsert_current authority subject _ _ (subject_of_evaluated heval')]
    cases hpend' : pendingHypotheses s (evaluations.filterMap hypothesis) with
    | error failure =>
      obtain ⟨id, rfl⟩ := pendingHypotheses_error hpend'
      exact hpend evaluations _ heval' hpend'
    | ok pending =>
      have hwp := hrec evaluations pending heval' hpend'
      unfold wp at hwp
      revert hwp
      cases recordHypothesisBatch true (clock.commit 1) (evaluations.filterMap hypothesis) 0 s with
      | ok writes t =>
        rintro ⟨applications, halign, hok⟩
        simp only [halign]
        exact hok
      | error failure t => exact False.elim
      | panic => exact id

/-- What a call that returns leaves behind: a failure nothing, a success the
hypotheses of its evaluations, all settled. -/
theorem apply_spec (engine : RuleEngine) (authority : KnowledgeAuthority) (subject : EntityId)
    (clock : ApplyClock) (s : KnowledgeState) : wp (engine.apply authority subject clock)
    (fun _ t => SameInputs s t ∧ ∃ evaluations, engine.evaluateSnapshot (clock.materialize 1)
        (s.snapshotForSubject authority subject) = .ok evaluations ∧
      Agreeing (evaluations.filterMap hypothesis) ∧
      ∀ h ∈ evaluations.filterMap hypothesis, Settled t h)
    (fun _ t => t = s) True s := by
  refine wp_apply (fun _ _ => rfl) (fun _ _ _ _ => rfl) fun evaluations pending heval hpend => ?_
  have hagr := ((pendingHypotheses_ok_iff _).mp ⟨pending, hpend⟩).2
  refine wp_mono (recordHypothesisBatch_settles (clock.commit 1) _ 0 s hagr) (fun writes t ht => ?_)
    (fun _ _ hf => hf) id
  obtain ⟨⟨hinps, -, -, hsett⟩, hlength⟩ := ht
  obtain ⟨applications, halign, -⟩ := alignWrites_some hlength
  exact ⟨applications, halign, hinps, evaluations, heval, hagr, hsett⟩

theorem Settled.congr {h h' : Hypothesis} (hsett : Settled s h) (heq : h'.evaluated = h.evaluated) :
    Settled s h' := by
  obtain ⟨stored, hget, hevaluated⟩ := hsett
  have hid : h'.id = h.id := congrArg (fun e => e.1) heq
  exact ⟨stored, hid ▸ hget, hevaluated.trans (preserve_congr 0 0 heq.symm)⟩

theorem Settled.claim {h : Hypothesis} (hsett : Settled s h) {stored : Hypothesis}
    (hget : s.hypotheses[h.id]? = some stored) : stored.claim = h.claim := by
  obtain ⟨stored', hget', hevaluated⟩ := hsett
  cases hget.symm.trans hget'
  rw [preserve_evaluated] at hevaluated
  exact congrArg (fun e => e.2.1) hevaluated

/-- A call that meets settled hypotheses changes nothing. -/
theorem apply_settled (heval : engine.evaluateSnapshot (clock.materialize 1) (s.snapshotForSubject authority subject) =
      .ok evaluations)
    (hagr : Agreeing (evaluations.filterMap hypothesis))
    (hsett : ∀ h ∈ evaluations.filterMap hypothesis, Settled s h) :
    ∃ applications, engine.apply authority subject clock s = .ok applications s ∧
      applications.map RuleApplication.evaluation = evaluations ∧
      ∀ application ∈ applications, application.evaluation.hypothesis.isSome = true →
        application.write = some .unchanged := by
  obtain ⟨pending, hpend⟩ := (pendingHypotheses_ok_iff _).mpr
    ⟨fun h hmem stored hget => (hsett h hmem).claim hget, hagr⟩
  obtain ⟨applications, halign, hmap, hwr⟩ := @alignWrites_some evaluations _
    (length_replicate (a := KnowledgeWrite.unchanged))
  refine ⟨applications, eq_ok_iff_wp.mpr (wp_apply (fun failure hfail => ?_)
    (fun evaluations' failure heval' hfail => ?_) fun evaluations' pending' heval' _ => ?_), hmap,
    fun application hmem hsome => ?_⟩
  · rw [heval] at hfail
    cases hfail
  · cases heval.symm.trans heval'
    rw [hpend] at hfail
    cases hfail
  · cases heval.symm.trans heval'
    rw [wp_of_eq_ok (recordHypothesisBatch_settled _ _ 0 hsett)]
    exact ⟨applications, halign, rfl, rfl⟩
  · obtain ⟨write, hmem, heq⟩ := hwr application hmem hsome
    rw [heq, eq_of_mem_replicate hmem]

end Call

/-! ### Runs -/

/-- A hypothesis-state transition of a verifier; a verifier confirms or rejects. -/
structure VerifierTransition where
  hypothesisId : String
  subject : EntityId
  state : HypothesisState
  expectedRevisions : Option (Nat × Nat)
  now : Nat
  terminal : isTerminalHypothesisState state = true

def VerifierTransition.op (transition : VerifierTransition) : KnowledgeOp :=
  .transitionHypothesisState transition.hypothesisId transition.subject transition.state
    transition.expectedRevisions transition.now

/-- A step of a decision cycle: a call of `apply`, with the transitions that come
between the snapshot of each attempt and its commit, or a transition. -/
inductive ReasoningStep where
  | apply (engine : RuleEngine) (subject : EntityId) (clock : ApplyClock)
      (between : Nat → List VerifierTransition)
  | verify (transition : VerifierTransition)

def ReasoningStep.exec (authority : KnowledgeAuthority) :
    ReasoningStep → KnowledgeCommand RuleEngineError Unit
  | .apply engine subject clock between => do
    let _ ← engine.applyWithBeforeCommit authority subject clock fun attempt =>
      (between attempt).map VerifierTransition.op
  | .verify transition => interleave authority [transition.op]

section Runs

variable {authority : KnowledgeAuthority} {s t : KnowledgeState}

theorem interleave_terminal : ∀ (transitions : List VerifierTransition) (s : KnowledgeState),
    wp (interleave authority (transitions.map VerifierTransition.op))
      (fun _ t => TerminalKept s t) (fun _ _ => False) True s
  | [], s => .refl s
  | transition :: rest, s => by
    have hop : wp (transition.op.exec authority) (fun _ t => TerminalKept s t) (fun _ _ => False) True s := by
      rw [VerifierTransition.op, KnowledgeOp.exec, wp_map]
      exact transitionHypothesisState_terminal _ _ transition.terminal _ _
    simp only [map_cons, interleave, wp_bind, wp_attempt]
    refine wp_mono hop (fun _ t ht => ?_) (fun _ _ hf => hf.elim) id
    exact wp_mono (interleave_terminal rest t) (fun _ _ hu => ht.trans hu) (fun _ _ hf => hf) id

theorem applyAttempts_terminal (engine : RuleEngine) (subject : EntityId) (clock : ApplyClock)
    (between : Nat → List VerifierTransition) : ∀ (remaining attempt : Nat) (s : KnowledgeState),
    wp (engine.applyAttempts authority subject clock
        (fun attempt => (between attempt).map VerifierTransition.op) remaining attempt)
      (fun _ t => TerminalKept s t) (fun _ t => TerminalKept s t) True s
  | 0, _, s => trivial
  | remaining + 1, attempt, s => by
    rw [RuleEngine.applyAttempts]
    simp only [wp_rules, wp_attempt]
    refine Checked.wp_of_forall (fun evaluations => ?_) (fun _ => .refl s)
    refine wp_mono (interleave_terminal (between attempt) s) (fun _ t ht => ?_)
      (fun _ _ hf => hf.elim) id
    refine wp_mono (upsertReasoningHypothesisBatch_terminal authority _ _ _) (fun writes u hu => ?_)
      (fun failure u hu => ?_) id
    · cases alignWrites evaluations writes with
      | none => trivial
      | some applications => exact ht.trans hu
    · subst hu
      cases failure with
      | staleSnapshot =>
        rw [wp_ite]
        refine ⟨fun _ => ?_, fun _ => ht⟩
        exact wp_mono (applyAttempts_terminal engine subject clock between remaining (attempt + 1) u)
          (fun _ _ hv => ht.trans hv) (fun _ _ hv => ht.trans hv) id
      | _ => exact ht

theorem step_terminal (authority : KnowledgeAuthority) (s : KnowledgeState) (step : ReasoningStep) :
    wp (step.exec authority) (fun _ t => TerminalKept s t) (fun _ t => TerminalKept s t) True s := by
  cases step with
  | apply engine subject clock between =>
    simp only [ReasoningStep.exec, wp_rules]
    exact applyAttempts_terminal engine subject clock between _ _ s
  | verify transition =>
    exact wp_mono (interleave_terminal [transition] s) (fun _ _ ht => ht) (fun _ _ hf => hf.elim) id

theorem terminalKept_of_reply {step : ReasoningStep} {r : Except RuleEngineError Unit}
    (hrep : reply (step.exec authority) s = some (r, t)) : TerminalKept s t := by
  obtain ⟨hok, herr, -⟩ := wp_iff_reply.mp (step_terminal authority s step)
  cases r with
  | ok value => exact hok value t hrep
  | error failure => exact herr failure t hrep

/-- **Reasoning is stable.** If no rule reads the hypotheses, an `apply` that
follows one that succeeded succeeds, reports no change for every rule that
matched and leaves the state as it is. In every run of `apply` and of verifier
transitions no `apply` changes a terminal state, whatever transitions come
between its snapshots and its commits. An `apply` that fails leaves the state as
it is. -/
theorem apply_stable (authority : KnowledgeAuthority) (engine : RuleEngine) (subject : EntityId)
    (s : KnowledgeState) :
    ((∀ (id : String) (rule : ReasoningRule), engine.rules[id]? = some rule →
        rule.condition.hypothesisFree = true) →
      ∀ clock clock' applications t, engine.apply authority subject clock s = .ok applications t →
        ∃ again, engine.apply authority subject clock' t = .ok again t ∧
          again.map (fun application => application.evaluation.ruleId) =
            engine.rules.toList.map (fun entry => entry.2.id) ∧
          ∀ application ∈ again, application.evaluation.condition.matched = true →
            application.write = some .unchanged) ∧
    (∀ steps trace t, run (ReasoningStep.exec authority) s steps = some (trace, t) →
      ∀ clock between r u, reply ((ReasoningStep.apply engine subject clock between).exec authority) t =
        some (r, u) → TerminalKept t u) ∧
    ∀ clock failure t, engine.apply authority subject clock s = .error failure t → t = s := by
  refine ⟨fun hfree clock clock' applications t happly => ?_, fun _ _ t _ clock between r u hrep =>
    terminalKept_of_reply hrep, fun clock failure t happly => ?_⟩
  · have hspec := apply_spec engine authority subject clock s
    rw [wp_of_eq_ok happly] at hspec
    obtain ⟨hinps, evaluations, heval, hagr, hsett⟩ := hspec
    have hread : SameReadings (s.snapshotForSubject authority subject)
        (t.snapshotForSubject authority subject) :=
      ⟨rfl, hinps.ontology, hinps.evidence subject, hinps.facts subject⟩
    obtain ⟨evaluations', heval', hsame⟩ :=
      evaluateSnapshot_again hread hfree (clock'.materialize 1) heval
    have hmatch := exists_of_map_eq (evaluated_again hsame)
    have hagr' : Agreeing (evaluations'.filterMap hypothesis) := by
      intro h₁ hmem₁ h₂ hmem₂ hid
      obtain ⟨g₁, hg₁, heq₁⟩ := hmatch h₁ hmem₁
      obtain ⟨g₂, hg₂, heq₂⟩ := hmatch h₂ hmem₂
      have hids : g₁.id = g₂.id :=
        (congrArg (fun e => e.1) heq₁).trans (hid.trans (congrArg (fun e => e.1) heq₂).symm)
      exact heq₁.symm.trans ((hagr g₁ hg₁ g₂ hg₂ hids).trans heq₂)
    obtain ⟨again, hagain, hmap, hwrs⟩ := apply_settled heval' hagr' fun h hmem => by
      obtain ⟨g, hg, heq⟩ := hmatch h hmem
      exact (hsett g hg).congr heq.symm
    refine ⟨again, hagain, ?_, fun application hmem hmatc => hwrs application hmem ?_⟩
    · rw [← evaluateSnapshot_ruleIds heval', ← hmap, List.map_map]
      rfl
    · have hevaluation : application.evaluation ∈ evaluations' :=
        hmap ▸ List.mem_map_of_mem (f := RuleApplication.evaluation) hmem
      exact isSome_of_matched heval' hevaluation hmatc
  · have hspec := apply_spec engine authority subject clock s
    rw [wp, happly] at hspec
    exact hspec

end Runs

end Termivar
