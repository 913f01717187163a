/-
# Runs of the adaptive pipeline

From an empty ledger the counters are the numbers of wins and of schedules of
the whole run (`Counted`), and the limits bound them; what is suppressed stays
suppressed and is not repeated; and every ledger of a run is one its
deserializer accepts.
-/
import Termivar.Adaptive.Ledger

namespace Termivar

open Command List AdaptationLedger

/-- One call, with an outcome that exists. -/
structure AdaptiveCall where
  outcome : VerificationOutcome
  snapshot : KnowledgeSnapshot
  suppressedActions : BTreeSet String
  constructed : outcome.Constructed

/-- What a call does. -/
def AdaptivePipeline.exec (pipeline : AdaptivePipeline) (limits : AdaptationLimits)
    (call : AdaptiveCall) : Command AdaptationLedger AdaptivePipelineError AdaptiveDecision :=
  pipeline.decideAndRecordWithSuppressedActions call.outcome call.snapshot limits
    call.suppressedActions

/-- The calls of a run and what they returned. -/
abbrev AdaptiveTrace : Type := List (AdaptiveCall × Except AdaptivePipelineError AdaptiveDecision)

/-- A call in which a rule wins. -/
def winsFor (ruleId : String)
    (entry : AdaptiveCall × Except AdaptivePipelineError AdaptiveDecision) : Bool :=
  match entry.2 with
  | .ok decision => decision.selectedRuleId = some ruleId
  | .error _ => false

/-- A call in which an action is scheduled. -/
def schedulesFor (actionId : String)
    (entry : AdaptiveCall × Except AdaptivePipelineError AdaptiveDecision) : Bool :=
  match entry.2 with
  | .ok decision => decision.directive.scheduledActionId = some actionId
  | .error _ => false

/-- A call in which an action is scheduled or tried again. -/
def repeatsAction (actionId : String)
    (entry : AdaptiveCall × Except AdaptivePipelineError AdaptiveDecision) : Bool :=
  match entry.2 with
  | .ok decision => decision.directive.repeatedActionId decision.sourceActionId = some actionId
  | .error _ => false

theorem VerificationOutcome.unknown_actionId (caseId : String) (subject : EntityId)
    (actionId hypothesisId : String) (stage : VerificationStage) (rationale : String) :
    Checked.wp (unknown caseId subject actionId hypothesisId stage rationale)
      (fun outcome => isBlank outcome.actionId = false) fun _ => True := by
  simp only [unknown, requireText, Checked.wp_rules]
  simp only [Bool.not_eq_true, implies_true, true_and]
  exact fun _ hid _ _ => hid

theorem VerificationOutcome.verified_actionId (caseId : String) (subject : EntityId)
    (actionId hypothesisId verifierRuleId : String) (stage : VerificationStage)
    (status : OutcomeStatus) (confidence : Probability) (rationale : String)
    (evidenceIds : BTreeSet EvidenceId) :
    Checked.wp (verified caseId subject actionId hypothesisId verifierRuleId stage status confidence
        rationale evidenceIds)
      (fun outcome => isBlank outcome.actionId = false) fun _ => True := by
  simp only [verified, requireText, Checked.wp_rules]
  simp only [Bool.not_eq_true, implies_true, true_and]
  exact fun _ _ _ _ _ hid _ _ _ => hid

/-- An outcome that exists has an action. -/
theorem VerificationOutcome.Constructed.actionId_not_blank {outcome : VerificationOutcome}
    (h : outcome.Constructed) : isBlank outcome.actionId = false := by
  cases h with
  | @verified caseId subject actionId hypothesisId verifierRuleId stage status confidence rationale
      evidenceIds _ h =>
    have hwp := VerificationOutcome.verified_actionId caseId subject actionId hypothesisId
      verifierRuleId stage status confidence rationale evidenceIds
    rw [h] at hwp
    exact hwp
  | @unknown caseId subject actionId hypothesisId stage rationale _ h =>
    have hwp := VerificationOutcome.unknown_actionId caseId subject actionId hypothesisId stage rationale
    rw [h] at hwp
    exact hwp

section Steps

variable {pipeline : AdaptivePipeline} {limits : AdaptationLimits} {ledger : AdaptationLedger}
  {call : AdaptiveCall} {decision : AdaptiveDecision}

variable {outcome : VerificationOutcome} {actionId : String} {past : AdaptiveTrace}

/-- A scheduled action has a name. -/
theorem scheduled_not_blank {directive : PipelineDirective} (h : directive.validate = .ok ())
    (hsch : directive.scheduledActionId = some actionId) :
    isBlank actionId = false := by
  cases directive with
  | scheduleAction id =>
    obtain rfl : id = actionId := Option.some.inj hsch
    cases hblk : isBlank id with
    | false => rfl
    | true =>
      rw [PipelineDirective.validate, if_pos hblk] at h
      cases h
  | _ => cases hsch

/-- The names a decision is counted under. -/
theorem Decided.not_blank (h : Decided pipeline outcome ledger limits decision) :
    (∀ id, decision.selectedRuleId = some id → isBlank id = false) ∧
      ∀ id, decision.directive.scheduledActionId = some id → isBlank id = false := by
  cases h with
  | halted _ _ hselected hdirective =>
    rw [hselected, hdirective]
    exact ⟨nofun, nofun⟩
  | fellBack _ _ _ _ hselected hdirective =>
    rw [hselected, hdirective, (fallback_repeats outcome "").2]
    exact ⟨nofun, nofun⟩
  | @won rule _ _ _ _ _ hselected hdirective =>
    rw [hselected, hdirective]
    refine ⟨fun id hid => ?_, fun id hid => scheduled_not_blank rule.directiveValid hid⟩
    cases hid
    exact rule.idNotBlank

theorem Decided.source_eq (h : Decided pipeline outcome ledger limits decision)
    (hreached : decision.transitionLimitReached = false) :
    decision.sourceActionId = outcome.actionId := by
  cases h with
  | halted _ hhalted => rw [hhalted] at hreached; cases hreached
  | fellBack _ hsource => exact hsource
  | won _ hsource => exact hsource

/-- Recording keeps a ledger valid. -/
theorem LedgerValid.recorded (h : LedgerValid ledger)
    (hdec : Decided pipeline call.outcome ledger limits decision) :
    LedgerValid (ledger.recorded decision) := by
  unfold AdaptationLedger.recorded
  split_ifs with hreached hsupp
  · exact h
  all_goals
    have hreached := (Bool.not_eq_true _).mp hreached
    obtain ⟨hroom, hrule, haction⟩ := hdec.room hreached
    obtain ⟨hruleN, hactionName⟩ := hdec.not_blank
    have hrules : CountersValid (bump ledger.ruleApplications decision.selectedRuleId) :=
      h.ruleApplications.bump fun id hid => by
        obtain ⟨rule, -, hlt⟩ := hrule id hid
        exact ⟨hruleN id hid, lt_of_lt_of_le hlt rule.applicationsBounded⟩
    have hactions : CountersValid
        (bump ledger.actionSchedules decision.directive.scheduledActionId) :=
      h.actionSchedules.bump fun id hid =>
        ⟨hactionName id hid, lt_of_lt_of_le (haction id hid) limits.schedulesBounded⟩
    have hrul := le_trans (totalCount_bump ledger.ruleApplications decision.selectedRuleId)
      (Nat.succ_le_succ h.ruleTotal)
    have hact := le_trans
      (totalCount_bump ledger.actionSchedules decision.directive.scheduledActionId)
      (Nat.succ_le_succ h.actionTotal)
    have htran := le_trans hroom limits.transitionsBounded
  · refine ⟨htran, hrules, hactions, hrul, hact, ?_, fun id hid => ?_⟩
    · exact le_trans Std.ExtTreeSet.size_insert_le (Nat.succ_le_succ h.suppressedTotal)
    · rcases (mem_insert_iff _ _).mp hid with rfl | hid
      · rw [hdec.source_eq hreached]
        exact call.constructed.actionId_not_blank
      · exact h.suppressedActions id hid
  · exact ⟨htran, hrules, hactions, hrul, hact,
      le_trans h.suppressedTotal (Nat.le_succ _), h.suppressedActions⟩

/-- A decision that is charged was not made at the limit. -/
theorem Decided.not_reached (h : Decided pipeline outcome ledger limits decision)
    (hchar : decision.selectedRuleId ≠ none ∨ decision.directive.scheduledActionId ≠ none) :
    decision.transitionLimitReached = false := by
  cases h with
  | halted _ _ hselected hdirective =>
    rw [hselected, hdirective] at hchar
    exact absurd rfl (hchar.resolve_left fun hne => hne rfl)
  | fellBack _ _ hreached => exact hreached
  | won _ _ hreached => exact hreached

/-- The counters of a rule and of an action after a decision. -/
theorem Decided.recorded_counts (h : Decided pipeline outcome ledger limits decision)
    (id : String) :
    countFor (ledger.recorded decision).ruleApplications id =
      countFor ledger.ruleApplications id + (if decision.selectedRuleId = some id then 1 else 0) ∧
    countFor (ledger.recorded decision).actionSchedules id = countFor ledger.actionSchedules id +
        if decision.directive.scheduledActionId = some id then 1 else 0 := by
  unfold recorded
  cases hreached : decision.transitionLimitReached with
  | false => exact ⟨countFor_bump _ _ _, countFor_bump _ _ _⟩
  | true =>
    have hnot : ¬ (decision.selectedRuleId ≠ none ∨ decision.directive.scheduledActionId ≠ none) := by
      intro hchar
      rw [h.not_reached hchar] at hreached
      cases hreached
    push Not at hnot
    simp [hnot.1, hnot.2]

/-- What a run knows of its ledger. -/
structure Counted (pipeline : AdaptivePipeline) (limits : AdaptationLimits) (past : AdaptiveTrace)
    (ledger : AdaptationLedger) : Prop where
  valid : LedgerValid ledger
  transitions : ledger.transitions ≤ limits.maxTransitions
  wins : ∀ id, countFor ledger.ruleApplications id = past.countP (winsFor id)
  winsWithin : ∀ (id : String) rule, pipeline.rules[id]? = some rule →
    countFor ledger.ruleApplications id ≤ rule.maxApplications
  schedules : ∀ id, countFor ledger.actionSchedules id = past.countP (schedulesFor id)
  schedulesWithin : ∀ id, countFor ledger.actionSchedules id ≤ limits.maxActionSchedules
  failures : ∀ entry ∈ past, ∀ e, entry.2 = .error e → ¬ OfRecording e

theorem Counted.failed (h : Counted pipeline limits past ledger)
    {e : AdaptivePipelineError} (he : ¬ OfRecording e) :
    Counted pipeline limits (past ++ [(call, .error e)]) ledger := by
  refine { h with
    wins := fun id => ?_
    schedules := fun id => ?_
    failures := fun entry hent e' heq => ?_ }
  · simp [h.wins id, countP_append, winsFor]
  · simp [h.schedules id, countP_append, schedulesFor]
  · rcases mem_append.mp hent with hent | hent
    · exact h.failures entry hent e' heq
    · rw [mem_singleton.mp hent] at heq
      cases heq
      exact he

theorem Counted.decided (h : Counted pipeline limits past ledger)
    (hdec : Decided pipeline call.outcome ledger limits decision) :
    Counted pipeline limits (past ++ [(call, .ok decision)]) (ledger.recorded decision) := by
  have hfail : ∀ entry ∈ past ++ [(call, Except.ok decision)], ∀ e, entry.2 = .error e →
      ¬ OfRecording e := by
    intro entry hent e heq
    rcases mem_append.mp hent with hent | hent
    · exact h.failures entry hent e heq
    · rw [mem_singleton.mp hent] at heq
      cases heq
  have hwins : ∀ id, (past ++ [(call, Except.ok decision)]).countP (winsFor id) =
      countFor ledger.ruleApplications id + if decision.selectedRuleId = some id then 1 else 0 := by
    intro id
    simp [h.wins id, countP_append, winsFor, countP_cons]
  have hsched : ∀ id, (past ++ [(call, Except.ok decision)]).countP (schedulesFor id) =
      countFor ledger.actionSchedules id +
        if decision.directive.scheduledActionId = some id then 1 else 0 := by
    intro id
    simp [h.schedules id, countP_append, schedulesFor, countP_cons]
  refine ⟨h.valid.recorded hdec, ?_, fun id => ?_, fun id rule hget => ?_, fun id => ?_,
    fun id => ?_, hfail⟩
  · unfold recorded
    cases hreached : decision.transitionLimitReached with
    | false => exact (hdec.room hreached).1
    | true => exact h.transitions
  · rw [(hdec.recorded_counts id).1, hwins]
  · rw [(hdec.recorded_counts id).1]
    split_ifs with hselected
    · have hreached := hdec.not_reached (Or.inl (by simp [hselected]))
      obtain ⟨rule', hget', hlt⟩ := (hdec.room hreached).2.1 id hselected
      cases hget.symm.trans hget'
      exact hlt
    · exact h.winsWithin id rule hget
  · rw [(hdec.recorded_counts id).2, hsched]
  · rw [(hdec.recorded_counts id).2]
    split_ifs with hsch
    · have hreached := hdec.not_reached (Or.inr (by simp [hsch]))
      exact (hdec.room hreached).2.2 id hsch
    · exact h.schedulesWithin id

/-- One call keeps what is known. -/
theorem counted_step (h : Counted pipeline limits past ledger) (call : AdaptiveCall) :
    wp (pipeline.exec limits call)
      (fun decision t => Counted pipeline limits (past ++ [(call, .ok decision)]) t)
      (fun e t => Counted pipeline limits (past ++ [(call, .error e)]) t) False ledger := by
  refine wp_mono decideAndRecord_spec ?_ ?_ id
  · rintro decision t ⟨hdec, rfl⟩
    exact h.decided hdec
  · rintro e t ⟨rfl, he⟩
    exact h.failed he

/-- What is suppressed is not repeated, and stays suppressed. -/
theorem suppressed_step (h : actionId ∈ ledger.suppressedActions) (call : AdaptiveCall) :
    wp (pipeline.exec limits call) (fun decision t => actionId ∈ t.suppressedActions ∧
        decision.directive.repeatedActionId decision.sourceActionId ≠ some actionId)
      (fun _ t => actionId ∈ t.suppressedActions) False ledger := by
  refine wp_mono decideAndRecord_spec ?_ ?_ id
  · rintro decision t ⟨hdec, rfl⟩
    constructor
    · unfold recorded
      split_ifs
      · exact h
      · exact (mem_insert_iff _ _).mpr (Or.inr h)
      · exact h
    · intro hrep
      cases hdec with
      | halted _ _ _ hdirective =>
        rw [hdirective] at hrep
        cases hrep
      | fellBack _ _ _ _ _ hdirective =>
        rw [hdirective, (fallback_repeats _ _).1] at hrep
        cases hrep
      | won _ hsource _ _ _ _ hdirective _ _ hallowed =>
        rw [hdirective, hsource] at hrep
        exact hallowed actionId hrep h
  · rintro e t ⟨rfl, -⟩
    exact h

/-- A run that starts with a suppressed action does not repeat it. -/
theorem suppressed_stays {calls : List AdaptiveCall} {trace : AdaptiveTrace}
    {last : AdaptationLedger}
    (hrun : Command.run (pipeline.exec limits) ledger calls = some (trace, last))
    (hmem : actionId ∈ ledger.suppressedActions) :
    ∀ entry ∈ trace, repeatsAction actionId entry = false := by
  have hkept := run_history (J := fun past ledger => actionId ∈ ledger.suppressedActions ∧
    ∀ entry ∈ past, repeatsAction actionId entry = false) ?_ [] ⟨hmem, forall_mem_nil _⟩ hrun
  · exact hkept.2
  rintro past s call r t ⟨hs, hpast⟩ hreply
  obtain ⟨hok, herr, -⟩ := wp_iff_reply.mp (@suppressed_step pipeline limits s actionId hs call)
  cases r with
  | error e =>
    refine ⟨herr e t hreply, forall_mem_append.mpr ⟨hpast, ?_⟩⟩
    exact forall_mem_singleton.mpr rfl
  | ok decision =>
    obtain ⟨ht, hnot⟩ := hok decision t hreply
    refine ⟨ht, forall_mem_append.mpr ⟨hpast, forall_mem_singleton.mpr ?_⟩⟩
    simpa [repeatsAction] using hnot

/-- A call that fails leaves the ledger as it was. -/
theorem failed_unchanged {e : AdaptivePipelineError} {t : AdaptationLedger}
    (h : reply (pipeline.exec limits call) ledger = some (.error e, t)) : t = ledger :=
  ((wp_iff_reply.mp (@decideAndRecord_spec pipeline call.outcome call.snapshot ledger limits
    call.suppressedActions)).2.1 e t h).1

end Steps

theorem totalCount_empty : totalCount ∅ = 0 := rfl

theorem counted_new (pipeline : AdaptivePipeline) (limits : AdaptationLimits) :
    Counted pipeline limits [] .new := by
  refine ⟨⟨Nat.zero_le _, ?_, ?_, ?_, ?_, ?_, ?_⟩, Nat.zero_le _, fun id => ?_, fun id rule _ => ?_,
    fun id => ?_, fun id => ?_, forall_mem_nil _⟩
  all_goals simp [new, CountersValid, totalCount_empty, countFor]

/-- **The ledger bounds every run.** From an empty ledger a run reaches its
end; transitions, wins and schedules are within their limits; recording never
fails; a call that fails changes nothing; what is suppressed is never scheduled
or tried again; and the ledger is read back from its wire form. -/
theorem adaptive_ledger_sound (pipeline : AdaptivePipeline) (limits : AdaptationLimits)
    (calls : List AdaptiveCall) : ∃ trace ledger,
    Command.run (pipeline.exec limits) .new calls = some (trace, ledger) ∧
    ledger.transitions ≤ limits.maxTransitions ∧
    (∀ (id : String) rule, pipeline.rules[id]? = some rule →
      trace.countP (winsFor id) ≤ rule.maxApplications) ∧
    (∀ actionId, trace.countP (schedulesFor actionId) ≤ limits.maxActionSchedules) ∧
    (∀ entry ∈ trace, entry.2 ≠ .error .counterOverflow ∧
      ∀ expected actual, entry.2 ≠ .error (.decisionSequenceMismatch expected actual)) ∧
    (∀ call e t, reply (pipeline.exec limits call) ledger = some (.error e, t) → t = ledger) ∧
    (∀ later trace' ledger', Command.run (pipeline.exec limits) ledger later = some (trace', ledger') →
      ∀ actionId ∈ ledger.suppressedActions, ∀ entry ∈ trace', repeatsAction actionId entry = false) ∧
    AdaptationLedger.deserialize ledger.serialize = .ok ledger := by
  obtain ⟨⟨trace, ledger⟩, hrun, -⟩ := run_total (I := fun _ => True)
    (fun call s _ => wp_mono (@decideAndRecord_spec pipeline call.outcome call.snapshot s limits
      call.suppressedActions) (fun _ _ _ => trivial) (fun _ _ _ => trivial) id) calls trivial
  have hcntd : Counted pipeline limits ([] ++ trace) ledger := by
    refine run_history (J := Counted pipeline limits) ?_ [] (counted_new pipeline limits) hrun
    intro past s call r t hs hreply
    obtain ⟨hok, herr, -⟩ := wp_iff_reply.mp (counted_step hs call)
    cases r with
    | ok decision => exact hok decision t hreply
    | error e => exact herr e t hreply
  rw [List.nil_append] at hcntd
  refine ⟨trace, ledger, hrun, hcntd.transitions, fun id rule hget => ?_, fun id => ?_,
    fun entry hent => ⟨fun herror => ?_, fun expected actual herror => ?_⟩,
    fun call e t h => failed_unchanged h, fun later trace' ledger' hlat actionId hmem =>
      suppressed_stays hlat hmem, hcntd.valid.round_trip⟩
  · rw [← hcntd.wins]
    exact hcntd.winsWithin id rule hget
  · rw [← hcntd.schedules]
    exact hcntd.schedulesWithin id
  · exact hcntd.failures entry hent _ herror trivial
  · exact hcntd.failures entry hent _ herror trivial

end Termivar
