/-
# Which rule decides a verification

A registry is evaluated rule by rule in the order of the identifiers, and each
rule before its action is looked at. If no rule fails, the outcome is that of
the eligible rule that comes first, and only rules in scope are eligible: the
rules of other actions do not count. A rule of another action that fails does
stop the evaluation, and this is exactly where such a rule can be noticed.
-/
import Termivar.Rules.Provenance
import Termivar.Sorting
import Termivar.Verification.Registry

namespace Termivar

open RuleRegistry List

/-! ### Rules -/

/-- The rules of a registry in the order of their identifiers. -/
def RuleRegistry.inOrder (registry : RuleRegistry) : List VerificationRule :=
  registry.rules.toList.map Prod.snd

/-- The registry with the rules in scope of a case. -/
def RuleRegistry.restricted (registry : RuleRegistry) (case : VerificationCase) : RuleRegistry where
  stage := registry.stage
  rules := registry.rules.filter fun _ rule => rule.inScope case
  keyed := by
    intro id rule hget
    rw [Std.ExtTreeMap.getElem?_filter'] at hget
    exact registry.keyed id rule (Option.eq_some_of_filter_eq_some hget)

/-- Why a rule stops the evaluation of a registry, if it does. -/
def ruleFailure (case : VerificationCase) (snapshot : KnowledgeSnapshot) (rule : VerificationRule) :
    Option VerificationError :=
  match evaluateNode (rule.scopedSnapshot case snapshot) rule.condition with
  | .error failure => some (.rule failure)
  | .ok trace =>
    if trace.matched && trace.evidenceIds.isEmpty then some (.missingContributingEvidence rule.id)
    else none

/-- A rule that takes part in the selection, with the trace of its condition. -/
structure Eligible (stage : VerificationStage) (case : VerificationCase) (snapshot : KnowledgeSnapshot)
    (baseline : Option KnowledgeSnapshot) (rule : VerificationRule) (t : ExpressionTrace) : Prop where
  inScope : rule.inScope case = true
  evaluated : evaluateNode (rule.scopedSnapshot case snapshot) rule.condition = .ok t
  matched : t.matched = true
  fresh : stage = .active → ∃ id ∈ t.evidenceIds, ∀ before ∈ baseline,
    ∀ evidence ∈ before.evidence, evidence.id ≠ id

/-- The greater rule: by priority, then by confidence, then by the smaller
identifier. -/
def Precedes (rule other : VerificationRule) : Prop :=
  other.priority < rule.priority ∨ other.priority = rule.priority ∧
    (other.confidence.partsPerMillion < rule.confidence.partsPerMillion ∨
      other.confidence.partsPerMillion = rule.confidence.partsPerMillion ∧ rule.id ≤ other.id)

instance : Std.TransCmp compareCandidates :=
  inferInstanceAs (Std.TransCmp (compareLex
    (fun left right => compareOn VerificationRule.priority right left)
    (compareLex (fun left right => compareOn (fun rule => rule.confidence.partsPerMillion) right left)
      (compareOn VerificationRule.id))))

theorem precedes_iff {rule other : VerificationRule} :
    Precedes rule other ↔ (compareCandidates rule other).isLE = true := by
  simp only [Precedes, compareCandidates, compareLex, compareOn, Ordering.isLE_then_iff_or,
    Nat.compare_eq_lt, Nat.compare_eq_eq, Std.LawfulBCmp.isLE_iff_le]

/-- Of two rules under different identifiers at most one precedes the other. -/
theorem Precedes.id_eq {rule other : VerificationRule} (h : Precedes rule other)
    (h' : Precedes other rule) : rule.id = other.id := by
  unfold Precedes at h h'
  rcases h with h | ⟨hp, h | ⟨hc, h⟩⟩ <;> rcases h' with h' | ⟨hp', h' | ⟨hc', h'⟩⟩
  all_goals first
    | omega
    | exact le_antisymm h h'

section Evaluation

variable {registry : RuleRegistry} {case : VerificationCase} {snapshot : KnowledgeSnapshot}
  {baseline : Option KnowledgeSnapshot} {rule : VerificationRule}

theorem RuleRegistry.mem_inOrder :
    rule ∈ registry.inOrder ↔ registry.rules[rule.id]? = some rule := by
  unfold inOrder
  rw [mem_map]
  constructor
  · rintro ⟨⟨id, stored⟩, hmem, rfl⟩
    have hget := mem_toList.mp hmem
    rw [(registry.keyed id stored hget).1]
    exact hget
  · intro hget
    exact ⟨(rule.id, rule), mem_toList.mpr hget, rfl⟩

theorem RuleRegistry.inOrder_restricted :
    (registry.restricted case).inOrder = registry.inOrder.filter (·.inScope case) := by
  unfold inOrder restricted
  rw [Std.ExtTreeMap.toList_filter, filter_map]
  rfl

/-- The same rule is registered once. -/
theorem eq_of_id_eq {other : VerificationRule} (h : rule ∈ registry.inOrder)
    (h' : other ∈ registry.inOrder) (hid : rule.id = other.id) : rule = other := by
  rw [mem_inOrder] at h h'
  rw [hid, h'] at h
  exact (Option.some.inj h).symm

/-! ### Evaluation of one rule -/

/-- What the evaluation of a rule records. -/
def evaluationOf (stage : VerificationStage) (case : VerificationCase)
    (baselineIds : BTreeSet EvidenceId) (rule : VerificationRule) (t : ExpressionTrace) :
    VerificationRuleEvaluation where
  ruleId := rule.id
  stage := rule.stage
  priority := rule.priority
  condition := t
  freshEvidenceIds := t.evidenceIds.filter fun id => !baselineIds.contains id
  actionMatched := rule.inScope case
  eligible := rule.inScope case && t.matched &&
    (stage = .passive || !(t.evidenceIds.filter fun id => !baselineIds.contains id).isEmpty)
  selected := false

theorem evaluateVerificationRule_cases (case : VerificationCase) (snapshot : KnowledgeSnapshot)
    (stage : VerificationStage) (baselineIds : BTreeSet EvidenceId) (rule : VerificationRule) :
    (∃ failure, ruleFailure case snapshot rule = some failure ∧
      evaluateVerificationRule stage case snapshot baselineIds rule = .error failure) ∨
    (ruleFailure case snapshot rule = none ∧ ∃ t,
      evaluateNode (rule.scopedSnapshot case snapshot) rule.condition = .ok t ∧
      (t.matched = true → t.evidenceIds.isEmpty = false) ∧
      evaluateVerificationRule stage case snapshot baselineIds rule =
        .ok (evaluationOf stage case baselineIds rule t)) := by
  unfold ruleFailure evaluateVerificationRule
  cases evaluateNode (rule.scopedSnapshot case snapshot) rule.condition with
  | error failure => exact Or.inl ⟨_, rfl, rfl⟩
  | ok t =>
    cases hcited : t.matched && t.evidenceIds.isEmpty with
    | true =>
      refine Or.inl ⟨.missingContributingEvidence rule.id, by simp [hcited], ?_⟩
      simp [Except.mapError, bind, Except.bind, hcited, throw, throwThe, MonadExceptOf.throw]
    | false =>
      refine Or.inr ⟨by simp [hcited], t, rfl, fun hmat => by simpa [hmat] using hcited, ?_⟩
      simp [Except.mapError, bind, Except.bind, hcited, evaluationOf, pure, Except.pure]

/-- What one rule of a registry and its evaluation have to do with each other. -/
def Evaluated (stage : VerificationStage) (case : VerificationCase) (snapshot : KnowledgeSnapshot)
    (baselineIds : BTreeSet EvidenceId) (rule : VerificationRule)
    (evaluation : VerificationRuleEvaluation) : Prop :=
  ∃ t, evaluateNode (rule.scopedSnapshot case snapshot) rule.condition = .ok t ∧
    (t.matched = true → t.evidenceIds.isEmpty = false) ∧
    evaluation = evaluationOf stage case baselineIds rule t

/-- The rules are evaluated in order; the first that fails ends the evaluation. -/
theorem evaluateEach_cases (stage : VerificationStage) (baselineIds : BTreeSet EvidenceId) :
    ∀ rules : List VerificationRule,
      (∃ failure, rules.findSome? (ruleFailure case snapshot) = some failure ∧
        rules.mapM (evaluateVerificationRule stage case snapshot baselineIds) = .error failure) ∨
      (rules.findSome? (ruleFailure case snapshot) = none ∧ ∃ evaluations,
        rules.mapM (evaluateVerificationRule stage case snapshot baselineIds) = .ok evaluations ∧
        List.Forall₂ (Evaluated stage case snapshot baselineIds) rules evaluations)
  | [] => Or.inr ⟨rfl, [], rfl, .nil⟩
  | rule :: rest => by
    rw [mapM_cons, findSome?_cons]
    obtain ⟨failure, hfail, heval⟩ | ⟨hnone, t, ht, hcited, heval⟩ :=
      evaluateVerificationRule_cases case snapshot stage baselineIds rule
    · rw [hfail, heval]
      exact Or.inl ⟨failure, rfl, rfl⟩
    · rw [hnone, heval]
      obtain ⟨failure, hfail, hrest⟩ | ⟨hnone', evaluations, hrest, hall⟩ :=
        evaluateEach_cases stage baselineIds rest
      · rw [hrest]
        exact Or.inl ⟨failure, hfail, rfl⟩
      · rw [hrest]
        exact Or.inr ⟨hnone', _, rfl, .cons ⟨t, ht, hcited, rfl⟩ hall⟩

theorem mem_baselineEvidenceIds {id : EvidenceId} :
    id ∈ baselineEvidenceIds baseline ↔
      ∃ before ∈ baseline, ∃ evidence ∈ before.evidence, evidence.id = id := by
  cases baseline <;> simp [baselineEvidenceIds]

theorem isEmpty_eq_false_iff {ids : BTreeSet EvidenceId} : ids.isEmpty = false ↔ ∃ id, id ∈ ids := by
  rw [← Bool.not_eq_true, Std.ExtTreeSet.isEmpty_iff, Std.ExtTreeSet.eq_empty_iff_forall_not_mem]
  simp

variable {t : ExpressionTrace}

theorem eligible_iff {stage : VerificationStage}
    (ht : evaluateNode (rule.scopedSnapshot case snapshot) rule.condition = .ok t) :
    (evaluationOf stage case (baselineEvidenceIds baseline) rule t).eligible = true ↔
      Eligible stage case snapshot baseline rule t := by
  have hfsh : (t.evidenceIds.filter
      fun id => !(baselineEvidenceIds baseline).contains id).isEmpty = false ↔
      ∃ id ∈ t.evidenceIds, ∀ before ∈ baseline, ∀ evidence ∈ before.evidence, evidence.id ≠ id := by
    rw [isEmpty_eq_false_iff]
    refine exists_congr fun id => ?_
    have hbase : (baselineEvidenceIds baseline).contains id = false ↔
        ∀ before ∈ baseline, ∀ evidence ∈ before.evidence, evidence.id ≠ id := by
      rw [← Bool.not_eq_true, Std.ExtTreeSet.contains_iff_mem, mem_baselineEvidenceIds]
      simp
    simp [hbase]
  have hstg : (decide (stage = .passive) || !(t.evidenceIds.filter
      fun id => !(baselineEvidenceIds baseline).contains id).isEmpty) = true ↔
      (stage = .active → ∃ id ∈ t.evidenceIds, ∀ before ∈ baseline,
        ∀ evidence ∈ before.evidence, evidence.id ≠ id) := by
    rw [← hfsh]
    cases stage <;> simp
  simp only [evaluationOf, Bool.and_eq_true, hstg]
  constructor
  · rintro ⟨⟨hsc, hmat⟩, hfsh⟩
    exact ⟨hsc, ht, hmat, hfsh⟩
  · intro h
    exact ⟨⟨h.inScope, h.matched⟩, h.fresh⟩

/-! ### Selection -/

/-- The outcome of a case without an eligible rule. -/
def unknownOutcome (stage : VerificationStage) (case : VerificationCase) : VerificationOutcome where
  caseId := case.id
  subject := case.subject
  actionId := case.actionId
  hypothesisId := case.hypothesisId
  verifierRuleId := none
  stage := stage
  status := .unknown
  confidence := .zero
  rationale := "no eligible " ++ stage.asStr ++ " verification rule matched current evidence"
  evidenceIds := ∅

/-- The outcome of a case decided by a rule. -/
def ruleOutcome (stage : VerificationStage) (case : VerificationCase) (rule : VerificationRule)
    (t : ExpressionTrace) : VerificationOutcome where
  caseId := case.id
  subject := case.subject
  actionId := case.actionId
  hypothesisId := case.hypothesisId
  verifierRuleId := some rule.id
  stage := stage
  status := rule.outcome
  confidence := rule.confidence
  rationale := rule.rationale
  evidenceIds := t.evidenceIds

/-- The outcome a registry stands for: unknown if no rule is eligible, and
otherwise that of the eligible rule that precedes all others. -/
inductive Concluded (registry : RuleRegistry) (case : VerificationCase) (snapshot : KnowledgeSnapshot)
    (baseline : Option KnowledgeSnapshot) : VerificationOutcome → Prop
  | unknown (hnone : ∀ rule ∈ registry.inOrder, ∀ t,
      ¬ Eligible registry.stage case snapshot baseline rule t) :
      Concluded registry case snapshot baseline (unknownOutcome registry.stage case)
  | rule {rule : VerificationRule} {t : ExpressionTrace} (hmem : rule ∈ registry.inOrder)
      (heligible : Eligible registry.stage case snapshot baseline rule t)
      (hcited : t.evidenceIds.isEmpty = false)
      (hfirst : ∀ other ∈ registry.inOrder, ∀ t',
        Eligible registry.stage case snapshot baseline other t' → Precedes rule other) :
      Concluded registry case snapshot baseline (ruleOutcome registry.stage case rule t)

variable {evaluations : List VerificationRuleEvaluation}

theorem mem_candidates (hall : List.Forall₂ (Evaluated registry.stage case snapshot
      (baselineEvidenceIds baseline)) registry.inOrder evaluations) :
    rule ∈ ((evaluations.filter (·.eligible)).filterMap fun evaluation =>
        registry.rules[evaluation.ruleId]?) ↔
      rule ∈ registry.inOrder ∧ ∃ t, Eligible registry.stage case snapshot baseline rule t := by
  simp only [mem_filterMap, mem_filter]
  constructor
  · rintro ⟨evaluation, ⟨hmem, heligible⟩, hget⟩
    obtain ⟨rule', hrule', t, ht, -, rfl⟩ := forall₂_mem_right hall hmem
    rw [show (evaluationOf registry.stage case (baselineEvidenceIds baseline) rule' t).ruleId =
      rule'.id from rfl, mem_inOrder.mp hrule'] at hget
    cases hget
    exact ⟨hrule', t, (eligible_iff ht).mp heligible⟩
  · rintro ⟨hmem, t, heligible⟩
    obtain ⟨evaluation, hevaluation, t', ht', -, rfl⟩ := forall₂_mem_left hall hmem
    cases ht'.symm.trans heligible.evaluated
    exact ⟨_, ⟨hevaluation, (eligible_iff ht').mpr heligible⟩, mem_inOrder.mp hmem⟩

/-- A registered rule cites the evidence of its own condition. -/
theorem citedEvidence_eq (hall : List.Forall₂ (Evaluated registry.stage case snapshot
      (baselineEvidenceIds baseline)) registry.inOrder evaluations) (hmem : rule ∈ registry.inOrder)
    (ht : evaluateNode (rule.scopedSnapshot case snapshot) rule.condition = .ok t) :
    citedEvidence evaluations rule.id = t.evidenceIds := by
  unfold citedEvidence
  cases hfind : evaluations.find? fun evaluation => evaluation.ruleId = rule.id with
  | none =>
    obtain ⟨evaluation, hevaluation, t', -, -, rfl⟩ := forall₂_mem_left hall hmem
    have hne := find?_eq_none.mp hfind _ hevaluation
    simp [evaluationOf] at hne
  | some evaluation =>
    obtain ⟨rule', hrule', t', ht', -, rfl⟩ :=
      forall₂_mem_right hall (mem_of_find?_eq_some hfind)
    have hfnd := find?_some hfind
    have hid : rule'.id = rule.id := of_decide_eq_true hfnd
    have heq := eq_of_id_eq hrule' hmem hid
    subst heq
    cases ht.symm.trans ht'
    rfl

theorem requireText_ok {value field : String} (h : isBlank value = false) :
    VerificationOutcome.requireText value field = .ok value := by
  simp [VerificationOutcome.requireText, h]

theorem unknown_ok (stage : VerificationStage) (case : VerificationCase) :
    VerificationOutcome.unknown case.id case.subject case.actionId case.hypothesisId stage
      ("no eligible " ++ stage.asStr ++ " verification rule matched current evidence") =
      .ok (unknownOutcome stage case) := by
  have hrat : isBlank ("no eligible " ++ stage.asStr ++
      " verification rule matched current evidence") = false := by
    cases stage <;> decide
  unfold VerificationOutcome.unknown
  rw [requireText_ok case.id_notBlank, requireText_ok case.actionId_notBlank,
    requireText_ok case.hypothesisId_notBlank, requireText_ok hrat]
  rfl

/-- What a rule guarantees is what an outcome is checked for. -/
theorem verified_ok (case : VerificationCase) (rule : VerificationRule)
    (hcited : t.evidenceIds.isEmpty = false) :
    VerificationOutcome.verified case.id case.subject case.actionId case.hypothesisId rule.id rule.stage
      rule.outcome rule.confidence rule.rationale t.evidenceIds =
      .ok (ruleOutcome rule.stage case rule t) := by
  have hneg : ¬ (rule.outcome = .confirmedNegative ∧ rule.stage ≠ .active) :=
    fun h => h.2 (rule.negativeActive h.1)
  unfold VerificationOutcome.verified
  rw [requireText_ok case.id_notBlank, requireText_ok case.actionId_notBlank,
    requireText_ok case.hypothesisId_notBlank, requireText_ok rule.idNotBlank,
    requireText_ok rule.rationaleNotBlank, if_neg rule.conclusive, if_neg hneg, hcited,
    if_neg rule.confident]
  rfl

theorem concludeOutcome_concluded (hall : List.Forall₂ (Evaluated registry.stage case snapshot
      (baselineEvidenceIds baseline)) registry.inOrder evaluations) :
    ∃ outcome, concludeOutcome registry case evaluations = .ok outcome ∧
      Concluded registry case snapshot baseline outcome := by
  unfold concludeOutcome selectRule
  obtain ⟨hnil, hhead⟩ | ⟨rule, hmem, hhead, hfirst⟩ := head?_mergeSort_cmp compareCandidates
    ((evaluations.filter (·.eligible)).filterMap fun evaluation => registry.rules[evaluation.ruleId]?)
  · simp only [hhead]
    refine ⟨_, unknown_ok registry.stage case, .unknown fun rule hrule t heligible => ?_⟩
    have hcand := (mem_candidates hall).mpr ⟨hrule, t, heligible⟩
    rw [hnil] at hcand
    cases hcand
  · simp only [hhead]
    obtain ⟨hrule, t, heligible⟩ := (mem_candidates hall).mp hmem
    obtain ⟨evaluation, -, t', ht', hcited, -⟩ := forall₂_mem_left hall hrule
    cases heligible.evaluated.symm.trans ht'
    have hstg := (registry.keyed rule.id rule (mem_inOrder.mp hrule)).2
    rw [citedEvidence_eq hall hrule heligible.evaluated, ← hstg]
    refine ⟨_, verified_ok case rule (hcited heligible.matched), ?_⟩
    rw [hstg]
    refine .rule hrule heligible (hcited heligible.matched) fun other hoth t' heligible' => ?_
    exact precedes_iff.mpr (hfirst other ((mem_candidates hall).mpr ⟨hoth, t', heligible'⟩))

/-! ### The whole registry -/

/-- A registry is refused, or stopped by the first rule that fails, or comes to
its conclusion. -/
theorem evaluateRegistry_cases (registry : RuleRegistry) (case : VerificationCase)
    (snapshot : KnowledgeSnapshot) (baseline : Option KnowledgeSnapshot) :
    (∃ failure, validateSnapshot case snapshot = .error failure ∧
      evaluateRegistry registry case snapshot baseline = .error failure) ∨
    validateSnapshot case snapshot = .ok () ∧
    ((∃ failure, registry.inOrder.findSome? (ruleFailure case snapshot) = some failure ∧
      evaluateRegistry registry case snapshot baseline = .error failure) ∨
    registry.inOrder.findSome? (ruleFailure case snapshot) = none ∧ ∃ report,
      evaluateRegistry registry case snapshot baseline = .ok report ∧
      Concluded registry case snapshot baseline report.outcome) := by
  have heach : (registry.rules.toList.mapM fun entry => evaluateVerificationRule registry.stage case
      snapshot (baselineEvidenceIds baseline) entry.2) = registry.inOrder.mapM
        (evaluateVerificationRule registry.stage case snapshot (baselineEvidenceIds baseline)) := by
    rw [inOrder, mapM_map]
    rfl
  unfold evaluateRegistry
  rw [heach]
  cases hvalid : validateSnapshot case snapshot with
  | error failure => exact Or.inl ⟨failure, rfl, rfl⟩
  | ok _ =>
    refine Or.inr ⟨rfl, ?_⟩
    obtain ⟨failure, hfail, hmap⟩ | ⟨hnone, evaluations, hmap, hall⟩ :=
      evaluateEach_cases registry.stage (baselineEvidenceIds baseline) registry.inOrder
    · rw [hmap]
      exact Or.inl ⟨failure, hfail, rfl⟩
    · obtain ⟨outcome, hcon, hconc⟩ := concludeOutcome_concluded hall
      rw [hmap]
      refine Or.inr ⟨hnone, ?_⟩
      simp only [bind, Except.bind, hcon, Except.mapError]
      exact ⟨_, rfl, hconc⟩

theorem RuleRegistry.mem_restricted : rule ∈ (registry.restricted case).inOrder ↔
    rule ∈ registry.inOrder ∧ rule.inScope case = true := by
  rw [inOrder_restricted, mem_filter]

/-- Rules out of scope have no part in a conclusion. -/
theorem Concluded.restricted_eq {outcome outcome' : VerificationOutcome}
    (h : Concluded registry case snapshot baseline outcome)
    (h' : Concluded (registry.restricted case) case snapshot baseline outcome') : outcome = outcome' := by
  cases h with
  | unknown hnone =>
    cases h' with
    | unknown _ => rfl
    | rule hmem heligible _ _ =>
      exact absurd heligible (hnone _ (mem_restricted.mp hmem).1 _)
  | rule hmem heligible _ hfirst =>
    have hmem' := mem_restricted.mpr ⟨hmem, heligible.inScope⟩
    cases h' with
    | unknown hnone => exact absurd heligible (hnone _ hmem' _)
    | rule hmem₂ heligible₂ _ hfirst₂ =>
      have hmem₂' := (mem_restricted.mp hmem₂).1
      have hid := (hfirst _ hmem₂' _ heligible₂).id_eq (hfirst₂ _ hmem' _ heligible)
      have heq := eq_of_id_eq hmem hmem₂' hid
      subst heq
      cases heligible.evaluated.symm.trans heligible₂.evaluated
      rfl

/-- If the first rule that fails is out of scope, then a rule in scope fails,
and the first of these with the same error. -/
def ForeignHarmless (registry : RuleRegistry) (case : VerificationCase) (snapshot : KnowledgeSnapshot) :
    Prop :=
  ∀ front rule back failure, registry.inOrder = front ++ rule :: back → rule.inScope case = false →
    ruleFailure case snapshot rule = some failure →
    (∀ earlier ∈ front, ruleFailure case snapshot earlier = none) →
    ∃ front' own back', (registry.restricted case).inOrder = front' ++ own :: back' ∧
      ruleFailure case snapshot own = some failure ∧
      ∀ earlier ∈ front', ruleFailure case snapshot earlier = none

theorem foreignHarmless_iff : ForeignHarmless registry case snapshot ↔
    registry.inOrder.findSome? (ruleFailure case snapshot) =
      (registry.restricted case).inOrder.findSome? (ruleFailure case snapshot) := by
  constructor
  · intro hharm
    cases hfirst : registry.inOrder.findSome? (ruleFailure case snapshot) with
    | none =>
      rw [findSome?_eq_none_iff] at hfirst
      refine (findSome?_eq_none_iff.mpr fun rule hmem => ?_).symm
      exact hfirst rule (mem_restricted.mp hmem).1
    | some failure =>
      obtain ⟨front, rule, back, hspl, hfail, hearl⟩ := findSome?_eq_some_iff.mp hfirst
      refine (findSome?_eq_some_iff.mpr ?_).symm
      cases hsc : rule.inScope case with
      | false => exact hharm front rule back failure hspl hsc hfail hearl
      | true =>
        refine ⟨front.filter (·.inScope case), rule, back.filter (·.inScope case), ?_, hfail,
          fun earlier hmem => hearl earlier (mem_filter.mp hmem).1⟩
        rw [inOrder_restricted, hspl]
        simp [hsc]
  · intro heq front rule back failure hspl _ hfail hearl
    have hfirst : registry.inOrder.findSome? (ruleFailure case snapshot) = some failure :=
      findSome?_eq_some_iff.mpr ⟨front, rule, back, hspl, hfail, hearl⟩
    rw [heq] at hfirst
    exact findSome?_eq_some_iff.mp hfirst

/-- The rules out of scope go unnoticed exactly where they do no harm. -/
theorem evaluateRegistry_undisturbed_iff (registry : RuleRegistry) (case : VerificationCase)
    (snapshot : KnowledgeSnapshot) (baseline : Option KnowledgeSnapshot) :
    (evaluateRegistry registry case snapshot baseline).map VerificationReport.outcome =
        (evaluateRegistry (registry.restricted case) case snapshot baseline).map
          VerificationReport.outcome ↔
      (∃ failure, validateSnapshot case snapshot = .error failure) ∨
        ForeignHarmless registry case snapshot := by
  rw [foreignHarmless_iff]
  obtain ⟨failure, hinv, heval⟩ | ⟨hvalid, hcases⟩ :=
    evaluateRegistry_cases registry case snapshot baseline <;>
  obtain ⟨failure', hinv', heval'⟩ | ⟨hvalid', hcases'⟩ :=
    evaluateRegistry_cases (registry.restricted case) case snapshot baseline
  · cases hinv.symm.trans hinv'
    exact ⟨fun _ => Or.inl ⟨failure, hinv⟩, fun _ => by rw [heval, heval']⟩
  · cases hinv.symm.trans hvalid'
  · cases hinv'.symm.trans hvalid
  · have hnot : ¬ ∃ failure, validateSnapshot case snapshot = .error failure := by
      rintro ⟨failure, hfailure⟩
      cases hvalid.symm.trans hfailure
    rw [or_iff_right hnot]
    obtain ⟨failure, hfirst, heval⟩ | ⟨hfirst, report, heval, hconc⟩ := hcases <;>
    obtain ⟨failure', hfirst', heval'⟩ | ⟨hfirst', report', heval', hconc'⟩ := hcases' <;>
    rw [heval, heval', hfirst, hfirst']
    · simp [Except.map]
    · simp [Except.map]
    · simp [Except.map]
    · simp [Except.map, hconc.restricted_eq hconc']

/-! ### Verifiers -/

/-- What an outcome says of the rules of its registry: it is unknown exactly
if no rule is eligible, otherwise it is that of the eligible rule that
precedes all others; an active one cites fresh evidence, and one of a rule on
correlated evidence cites evidence of the case only. -/
structure SelectionSound (registry : RuleRegistry) (case : VerificationCase)
    (snapshot : KnowledgeSnapshot) (baseline : Option KnowledgeSnapshot)
    (outcome : VerificationOutcome) : Prop where
  unknown_iff : outcome.status = .unknown ↔ ∀ rule ∈ registry.inOrder, ∀ t,
    ¬ Eligible registry.stage case snapshot baseline rule t
  decided : outcome.status ≠ .unknown → ∃ rule ∈ registry.inOrder, ∃ t,
    Eligible registry.stage case snapshot baseline rule t ∧
    (∀ other ∈ registry.inOrder, ∀ t',
      Eligible registry.stage case snapshot baseline other t' → Precedes rule other) ∧
    outcome = ruleOutcome registry.stage case rule t
  fresh : registry.stage = .active → outcome.status ≠ .unknown →
    ∃ id ∈ outcome.evidenceIds, ∀ before ∈ baseline, ∀ evidence ∈ before.evidence, evidence.id ≠ id
  correlated : ∀ rule ∈ registry.inOrder, outcome.verifierRuleId = some rule.id →
    rule.caseCorrelatedEvidence = true → ∀ id ∈ outcome.evidenceIds,
      ∃ evidence ∈ snapshot.evidence, evidence.id = id ∧
        evidence.source.correlationId = some case.id

/-- A rule on correlated evidence cites evidence of the case. -/
theorem Eligible.correlated {stage : VerificationStage}
    (h : Eligible stage case snapshot baseline rule t) (hcorr : rule.caseCorrelatedEvidence = true)
    {id : EvidenceId} (hid : id ∈ t.evidenceIds) :
    ∃ evidence ∈ snapshot.evidence, evidence.id = id ∧
      evidence.source.correlationId = some case.id := by
  have heval := h.evaluated
  rw [VerificationRule.scopedSnapshot, if_pos hcorr] at heval
  obtain ⟨evidence, hmem, hev⟩ :=
    exists_evidence_of_mem (rule.correlationOnEvidence hcorr) heval hid
  obtain ⟨hmem', hsource⟩ := mem_filter.mp hmem
  exact ⟨evidence, hmem', hev, of_decide_eq_true hsource⟩

theorem Concluded.selectionSound {outcome : VerificationOutcome}
    (h : Concluded registry case snapshot baseline outcome) :
    SelectionSound registry case snapshot baseline outcome := by
  cases h with
  | unknown hnone =>
    exact
      { unknown_iff := ⟨fun _ => hnone, fun _ => rfl⟩
        decided := fun hne => absurd rfl hne
        fresh := fun _ hne => absurd rfl hne
        correlated := nofun }
  | @rule decider t hmem heligible _ hfirst =>
    exact
      { unknown_iff := ⟨fun hstat => absurd hstat decider.conclusive,
          fun hnone => absurd heligible (hnone decider hmem t)⟩
        decided := fun _ => ⟨decider, hmem, t, heligible, hfirst, rfl⟩
        fresh := fun hstg _ => heligible.fresh hstg
        correlated := by
          intro rule hrule hid hcorr id hcited
          cases eq_of_id_eq hmem hrule (Option.some.inj hid)
          exact heligible.correlated hcorr hcited }

theorem evaluateRegistry_selectionSound {report : VerificationReport}
    (h : evaluateRegistry registry case snapshot baseline = .ok report) :
    SelectionSound registry case snapshot baseline report.outcome := by
  obtain ⟨failure, -, heval⟩ | ⟨-, ⟨failure, -, heval⟩ | ⟨-, report', heval, hconc⟩⟩ :=
    evaluateRegistry_cases registry case snapshot baseline
  · cases h.symm.trans heval
  · cases h.symm.trans heval
  · cases h.symm.trans heval
    exact hconc.selectionSound

end Evaluation

variable (verifier : PassiveVerifier)

variable (case : VerificationCase)

def PassiveVerifier.restricted :
    PassiveVerifier where
  registry := verifier.registry.restricted case
  stage := verifier.stage

def ActiveVerifier.restricted (verifier : ActiveVerifier) (case : VerificationCase) :
    ActiveVerifier where
  registry := verifier.registry.restricted case
  stage := verifier.stage

/-- A passive verifier comes to the outcome it comes to without the rules of
other actions, and the outcome is that of its rules. -/
def PassiveVerifier.Undisturbed (snapshot : KnowledgeSnapshot) : Prop :=
  (verifier.verifySnapshot case snapshot).map VerificationReport.outcome =
      ((verifier.restricted case).verifySnapshot case snapshot).map VerificationReport.outcome ∧
    ∀ report, verifier.verifySnapshot case snapshot = .ok report →
      SelectionSound verifier.registry case snapshot none report.outcome

/-- The same of an active verifier. -/
def ActiveVerifier.Undisturbed (verifier : ActiveVerifier) (case : VerificationCase)
    (baseline afterProbe : KnowledgeSnapshot) : Prop :=
  (verifier.verifySnapshots case baseline afterProbe).map VerificationReport.outcome =
      ((verifier.restricted case).verifySnapshots case baseline afterProbe).map
        VerificationReport.outcome ∧
    ∀ report, verifier.verifySnapshots case baseline afterProbe = .ok report →
      SelectionSound verifier.registry case afterProbe (some baseline) report.outcome

/-- Snapshots that are refused before any rule is evaluated. -/
def Refused (snapshot : KnowledgeSnapshot) : Prop :=
  ∃ failure, validateSnapshot case snapshot = .error failure

theorem PassiveVerifier.undisturbed_iff (snapshot : KnowledgeSnapshot) : verifier.Undisturbed case snapshot ↔
      Refused case snapshot ∨ ForeignHarmless verifier.registry case snapshot :=
  (and_iff_left fun _ => evaluateRegistry_selectionSound).trans
    (evaluateRegistry_undisturbed_iff verifier.registry case snapshot none)

theorem ActiveVerifier.undisturbed_iff (verifier : ActiveVerifier) (case : VerificationCase)
    (baseline afterProbe : KnowledgeSnapshot) : verifier.Undisturbed case baseline afterProbe ↔
      Refused case baseline ∨ (∃ failure, validateMonotonic baseline afterProbe = .error failure) ∨
        Refused case afterProbe ∨ ForeignHarmless verifier.registry case afterProbe := by
  unfold ActiveVerifier.Undisturbed ActiveVerifier.verifySnapshots Refused
  cases hbas : validateSnapshot case baseline with
  | error failure => simp [bind, Except.bind]
  | ok _ =>
    cases hmon : validateMonotonic baseline afterProbe with
    | error failure => simp [bind, Except.bind]
    | ok _ =>
      have hund :=
        evaluateRegistry_undisturbed_iff verifier.registry case afterProbe (some baseline)
      simp only [bind, Except.bind, reduceCtorEq, exists_false, false_or]
      exact (and_iff_left fun _ => evaluateRegistry_selectionSound).trans hund

/-- **The rules of other actions are noticed only where they fail.** With and
without the rules of other actions a verifier comes to the same outcome or
error, and the outcome is that of the first eligible rule, exactly if the
snapshots are refused anyway or the first rule to fail is not of another action
or fails just as the first one in scope does. -/
theorem verification_undisturbed_iff :
    (∀ (verifier : PassiveVerifier) (snapshot : KnowledgeSnapshot),
      verifier.Undisturbed case snapshot ↔
        Refused case snapshot ∨ ForeignHarmless verifier.registry case snapshot) ∧
    ∀ (verifier : ActiveVerifier) (baseline afterProbe : KnowledgeSnapshot),
      verifier.Undisturbed case baseline afterProbe ↔
        Refused case baseline ∨ (∃ failure, validateMonotonic baseline afterProbe = .error failure) ∨
          Refused case afterProbe ∨ ForeignHarmless verifier.registry case afterProbe :=
  ⟨fun verifier => verifier.undisturbed_iff case, fun verifier => verifier.undisturbed_iff case⟩

/-- A rule of another action that matches where the framework was not seen. -/
def foreignRule : VerificationRule where
  id := "framework.absent"
  stage := .passive
  priority := 0
  condition := .negate (.existsIn .evidence frameworkPredicate)
  outcome := .needsReview
  confidence := ⟨510000, by decide⟩
  rationale := "framework not observed"
  actionId := some "sqli.verify"
  caseCorrelatedEvidence := false
  idNotBlank := by decide
  conclusive := by decide
  negativeActive := nofun
  confident := by decide
  rationaleNotBlank := by decide
  actionIdNotBlank := by decide
  correlationOnEvidence := nofun

/-- A verifier with this rule only. -/
def foreignVerifier : PassiveVerifier where
  registry :=
    { stage := .passive
      rules := (∅ : BTreeMap String VerificationRule).insert foreignRule.id foreignRule
      keyed := by
        intro id rule hget
        rw [get_insert] at hget
        split_ifs at hget with hid
        · cases hget
          exact ⟨hid, rfl⟩
        · simp at hget }
  stage := rfl

def headerCase : VerificationCase where
  id := "case-1"
  subject := frameworkSnapshot.subject
  actionId := "headers.verify"
  hypothesisId := "h1"
  id_notBlank := by decide
  actionId_notBlank := by decide
  hypothesisId_notBlank := .refl false

/-- A snapshot with the hypothesis of the case and no evidence. -/
def headerSnapshot : KnowledgeSnapshot :=
  { frameworkSnapshot with
    evidence := []
    hypotheses := [{ id := "h1", subject := frameworkSnapshot.subject, predicate := frameworkPredicate
                     value := .boolean true, belief := .new ⟨510000, by decide⟩, strength := .weak
                     state := .proposed, updatedAtMs := 0, idNotBlank := .refl false }] }

/-- A rule of another action stops the verification of a case. -/
theorem foreignVerifier_disturbed : ¬ foreignVerifier.Undisturbed headerCase headerSnapshot := by
  have hfail : (foreignVerifier.verifySnapshot headerCase headerSnapshot).map
      VerificationReport.outcome = .error (.missingContributingEvidence "framework.absent") := by
    decide +kernel
  have hunkn : ((foreignVerifier.restricted headerCase).verifySnapshot headerCase
      headerSnapshot).map VerificationReport.outcome = .ok (unknownOutcome .passive headerCase) := by
    decide +kernel
  intro h
  have heq := h.1
  rw [hfail, hunkn] at heq
  cases heq

end Termivar
