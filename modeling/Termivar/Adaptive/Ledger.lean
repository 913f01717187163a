/-
# What the ledger bounds

Deciding checks the limits that recording charges: the winning rule has
applications left, its scheduled action has schedules left and its repeated
action is not suppressed (`Decided`). Recording such a decision cannot
overflow a counter, so a call either leaves the ledger as it is or counts one
transition, at most one win and at most one schedule. The deserializer of a
ledger checks its counters against its transitions.
-/
import Termivar.Adaptive.Pipeline
import Termivar.Rules.CalibrationWire
import Termivar.Rules.Provenance
import Termivar.Rules.WireSets
import Termivar.Sorting

namespace Termivar

open Command List AdaptationLedger

/-! ### Deciding -/

/-- What a decision can be. -/
inductive Decided (pipeline : AdaptivePipeline) (outcome : VerificationOutcome)
    (ledger : AdaptationLedger) (limits : AdaptationLimits) : AdaptiveDecision → Prop
  | halted {decision : AdaptiveDecision} (hsequence : decision.sequence = ledger.transitions)
      (hreached : decision.transitionLimitReached = true) (hselected : decision.selectedRuleId = none)
      (hdirective : decision.directive = .halt) : Decided pipeline outcome ledger limits decision
  | fellBack {decision : AdaptiveDecision} (hsequence : decision.sequence = ledger.transitions)
      (hsource : decision.sourceActionId = outcome.actionId)
      (hreached : decision.transitionLimitReached = false)
      (hroom : ledger.transitions < limits.maxTransitions) (hselected : decision.selectedRuleId = none)
      (hdirective : decision.directive = (fallback outcome).1) :
      Decided pipeline outcome ledger limits decision
  | won {decision : AdaptiveDecision} {rule : AdaptationRule}
      (hsequence : decision.sequence = ledger.transitions)
      (hsource : decision.sourceActionId = outcome.actionId)
      (hreached : decision.transitionLimitReached = false)
      (hroom : ledger.transitions < limits.maxTransitions)
      (hregistered : pipeline.rules[rule.id]? = some rule)
      (hselected : decision.selectedRuleId = some rule.id)
      (hdirective : decision.directive = rule.directive)
      (hrule : countFor ledger.ruleApplications rule.id < rule.maxApplications)
      (haction : ∀ actionId, rule.directive.scheduledActionId = some actionId →
        countFor ledger.actionSchedules actionId < limits.maxActionSchedules)
      (hallowed : ∀ actionId, rule.directive.repeatedActionId outcome.actionId = some actionId →
        actionId ∉ ledger.suppressedActions) : Decided pipeline outcome ledger limits decision

/-- The errors of recording. -/
def OfRecording : AdaptivePipelineError → Prop
  | .decisionSequenceMismatch _ _ => True
  | .counterOverflow => True
  | _ => False

/-- A check of each element of a list. -/
theorem Checked.wp_mapM {ε α β : Type} {f : β → Except ε α} {P : β → α → Prop} {err : ε → Prop} :
    ∀ {xs : List β}, (∀ x ∈ xs, Checked.wp (f x) (P x) err) →
      Checked.wp (xs.mapM f) (fun ys => List.Forall₂ P xs ys) err
  | [], _ => .nil
  | x :: xs, h => by
    obtain ⟨hx, hxs⟩ := forall_mem_cons.mp h
    simp only [mapM_cons, Checked.wp_rules]
    exact Checked.wp_imp hx fun y hy => Checked.wp_imp (Checked.wp_mapM hxs)
      fun ys hys => .cons hy hys

section Deciding

variable {pipeline : AdaptivePipeline} {outcome : VerificationOutcome} {snapshot : KnowledgeSnapshot}
  {ledger : AdaptationLedger} {limits : AdaptationLimits} {suppressed : BTreeSet String}

theorem validateOutcomeSnapshot_spec : Checked.wp (validateOutcomeSnapshot outcome snapshot)
    (fun _ => True) fun e => ¬ OfRecording e := by
  unfold validateOutcomeSnapshot
  simp only [Checked.wp_rules]
  refine ⟨fun _ => id, fun _ => ?_⟩
  cases outcome.evidenceIds.toList.find? fun id =>
    !(snapshot.evidence.map Evidence.id).contains id with
  | some evidenceId => exact id
  | none => trivial

theorem evaluateCondition_spec {matched : Bool} {rule : AdaptationRule} :
    Checked.wp (AdaptivePipeline.evaluateCondition snapshot matched rule) (fun _ => True)
      fun e => ¬ OfRecording e := by
  unfold AdaptivePipeline.evaluateCondition
  rw [Checked.wp_ite]
  refine ⟨fun _ => ?_, fun _ => trivial⟩
  cases rule.condition with
  | none => trivial
  | some condition =>
    simp only [Option.mapM_some, Checked.wp_map]
    cases evaluateNode snapshot condition with
    | error failure => exact id
    | ok trace => trivial

/-- An eligible rule is within its limits. -/
structure WithinLimits (outcome : VerificationOutcome) (ledger : AdaptationLedger)
    (limits : AdaptationLimits) (rule : AdaptationRule) : Prop where
  applications : countFor ledger.ruleApplications rule.id < rule.maxApplications
  action : ∀ actionId, rule.directive.scheduledActionId = some actionId →
    countFor ledger.actionSchedules actionId < limits.maxActionSchedules
  allowed : ∀ actionId, rule.directive.repeatedActionId outcome.actionId = some actionId →
    actionId ∉ ledger.suppressedActions

theorem evaluateAdaptationRule_spec {rule : AdaptationRule} :
    Checked.wp (AdaptivePipeline.evaluateAdaptationRule outcome snapshot ledger limits suppressed rule)
      (fun evaluation => evaluation.ruleId = rule.id ∧
        (evaluation.eligible = true → WithinLimits outcome ledger limits rule))
      fun e => ¬ OfRecording e := by
  simp only [AdaptivePipeline.evaluateAdaptationRule, Checked.wp_rules]
  refine Checked.wp_imp evaluateCondition_spec fun condition _ => ⟨fun _ => id, fun _ => ?_⟩
  refine ⟨trivial, fun heligible => ?_⟩
  simp only [Bool.and_eq_true, Bool.not_eq_true', decide_eq_false_iff_not, not_le] at heligible
  obtain ⟨⟨⟨-, hrule⟩, haction⟩, hallowed⟩ := heligible
  refine ⟨hrule, fun actionId hsch => ?_, fun actionId hrep hmem => ?_⟩
  · rw [hsch] at haction
    simpa using haction
  · rw [hrep, Option.any_some, Std.ExtTreeSet.contains_iff_mem.mpr hmem, Bool.or_true] at hallowed
    cases hallowed

/-- The selected rule was eligible. -/
theorem mem_of_selectRuleId {evaluations : List AdaptationRuleEvaluation} {ruleId : String}
    (h : pipeline.selectRuleId evaluations = some ruleId) :
    ∃ evaluation ∈ evaluations, evaluation.eligible = true ∧ evaluation.ruleId = ruleId := by
  have hmem := mem_of_mem_head? (Option.mem_def.mpr h)
  rw [mem_mergeSort, mem_map] at hmem
  obtain ⟨evaluation, heval, hid⟩ := hmem
  exact ⟨evaluation, mem_of_mem_filter heval, (mem_filter.mp heval).2, hid⟩

/-- What deciding comes to. -/
theorem decideWithSuppressedActions_spec :
    Checked.wp (pipeline.decideWithSuppressedActions outcome snapshot ledger limits suppressed)
      (Decided pipeline outcome ledger limits) fun e => ¬ OfRecording e := by
  simp only [AdaptivePipeline.decideWithSuppressedActions, Checked.wp_rules]
  refine Checked.wp_imp validateOutcomeSnapshot_spec fun _ _ => ⟨fun _ => ?_, fun hroom => ?_⟩
  · exact .halted rfl rfl rfl rfl
  refine Checked.wp_imp (Checked.wp_mapM (P := fun entry evaluation =>
    evaluation.ruleId = entry.2.id ∧
      (evaluation.eligible = true → WithinLimits outcome ledger limits entry.2))
    fun _ _ => evaluateAdaptationRule_spec) fun evaluations hevaluations => ?_
  have hroom := not_le.mp hroom
  cases hselected : pipeline.selectRuleId evaluations with
  | none => exact .fellBack rfl rfl rfl hroom rfl rfl
  | some ruleId =>
    obtain ⟨evaluation, hmem, heligible, rfl⟩ := mem_of_selectRuleId hselected
    obtain ⟨⟨id, rule⟩, hent, hid, hwith⟩ := forall₂_mem_right hevaluations hmem
    have hget := mem_toList.mp hent
    have hkey := pipeline.keyed id rule hget
    have hlims := hwith heligible
    simp only at hid hlims
    subst hkey
    rw [hid]
    refine .won rfl rfl rfl hroom hget rfl ?_ hlims.applications hlims.action hlims.allowed
    simp [AdaptivePipeline.decisionFor, hget]

end Deciding

/-! ### Recording -/

/-- A counter one further. -/
def bump (counters : BTreeMap String Nat) : Option String → BTreeMap String Nat
  | some identity => counters.insert identity (countFor counters identity + 1)
  | none => counters

/-- The ledger after a decision. -/
def AdaptationLedger.recorded (ledger : AdaptationLedger) (decision : AdaptiveDecision) :
    AdaptationLedger :=
  if decision.transitionLimitReached then ledger
  else
    { transitions := ledger.transitions + 1
      ruleApplications := bump ledger.ruleApplications decision.selectedRuleId
      actionSchedules := bump ledger.actionSchedules decision.directive.scheduledActionId
      suppressedActions := if decision.directive = .replan true then
        ledger.suppressedActions.insert decision.sourceActionId else ledger.suppressedActions }

/-- A counter below its top is counted. -/
theorem incrementSome_eq {counters : BTreeMap String Nat} {identity : Option String}
    (h : ∀ id, identity = some id → countFor counters id < u16Max) :
    incrementSome counters identity = .ok (bump counters identity) := by
  cases identity with
  | none => rfl
  | some id =>
    have hadd : checkedAdd u16Max (countFor counters id) 1 = some (countFor counters id + 1) :=
      checkedAdd_eq_some.mpr ⟨h id rfl, rfl⟩
    simp only [incrementSome, increment, hadd]
    rfl

/-- Fallbacks schedule nothing and try nothing again. -/
theorem fallback_repeats (outcome : VerificationOutcome) (source : String) :
    (fallback outcome).1.repeatedActionId source = none ∧
      (fallback outcome).1.scheduledActionId = none := by
  unfold fallback
  split <;> exact ⟨rfl, rfl⟩

section Recording

variable {pipeline : AdaptivePipeline} {outcome : VerificationOutcome} {snapshot : KnowledgeSnapshot}
  {ledger : AdaptationLedger} {limits : AdaptationLimits} {suppressed : BTreeSet String}
  {decision : AdaptiveDecision}

theorem Decided.sequence_eq (h : Decided pipeline outcome ledger limits decision) :
    decision.sequence = ledger.transitions := by
  cases h <;> assumption

/-- The counters a decision charges have room. -/
theorem Decided.room (h : Decided pipeline outcome ledger limits decision)
    (hreached : decision.transitionLimitReached = false) :
    ledger.transitions < limits.maxTransitions ∧
    (∀ id, decision.selectedRuleId = some id → ∃ rule, pipeline.rules[id]? = some rule ∧
      countFor ledger.ruleApplications id < rule.maxApplications) ∧
    ∀ id, decision.directive.scheduledActionId = some id →
      countFor ledger.actionSchedules id < limits.maxActionSchedules := by
  cases h with
  | halted _ hhalted => rw [hhalted] at hreached; cases hreached
  | fellBack _ _ _ hroom hselected hdirective =>
    refine ⟨hroom, fun id hid => ?_, fun id hid => ?_⟩
    · rw [hselected] at hid
      cases hid
    · rw [hdirective, (fallback_repeats outcome "").2] at hid
      cases hid
  | @won rule _ _ _ hroom hregistered hselected hdirective hrule haction hallowed =>
    refine ⟨hroom, fun id hid => ?_, fun id hid => ?_⟩
    · rw [hselected] at hid
      cases hid
      exact ⟨rule, hregistered, hrule⟩
    · rw [hdirective] at hid
      exact haction id hid

theorem record_spec (h : Decided pipeline outcome ledger limits decision) :
    wp (record decision) (fun _ t => t = ledger.recorded decision)
      (fun _ _ => False) False ledger := by
  simp only [record, wp_rules]
  refine ⟨fun hne => hne h.sequence_eq, fun _ => ⟨fun hreached => ?_, fun hreached => ?_⟩⟩
  · rw [recorded, if_pos hreached]
  obtain ⟨hroom, hrule, haction⟩ := h.room ((Bool.not_eq_true _).mp hreached)
  have hadd : checkedAdd u32Max ledger.transitions 1 = some (ledger.transitions + 1) :=
    checkedAdd_eq_some.mpr ⟨le_trans hroom limits.transitionsBounded, rfl⟩
  have hrules := @incrementSome_eq ledger.ruleApplications decision.selectedRuleId fun id hid => by
    obtain ⟨rule, -, hlt⟩ := hrule id hid
    exact lt_of_lt_of_le hlt rule.applicationsBounded
  have hact := @incrementSome_eq ledger.actionSchedules decision.directive.scheduledActionId
    fun id hid => lt_of_lt_of_le (haction id hid) limits.schedulesBounded
  simp only [hadd, hrules, hact, okOr, Checked.wp_ok]
  rw [recorded, if_neg hreached]

/-- One call decides and records, or fails and leaves the ledger as it is. -/
theorem decideAndRecord_spec :
    wp (pipeline.decideAndRecordWithSuppressedActions outcome snapshot limits suppressed)
      (fun decision t => Decided pipeline outcome ledger limits decision ∧
        t = ledger.recorded decision)
      (fun e t => t = ledger ∧ ¬ OfRecording e) False ledger := by
  simp only [AdaptivePipeline.decideAndRecordWithSuppressedActions, wp_rules]
  refine Checked.wp_mono decideWithSuppressedActions_spec (fun decision hdec => ?_)
    fun e he => ⟨trivial, he⟩
  exact wp_mono (record_spec hdec) (fun _ t ht => ⟨hdec, ht⟩) (fun _ _ => False.elim) id

end Recording

/-! ### Counters -/

variable (counters : BTreeMap String Nat)

theorem countFor_bump (identity : Option String) (id : String) :
    countFor (bump counters identity) id =
      countFor counters id + if identity = some id then 1 else 0 := by
  cases identity with
  | none => simp [bump]
  | some other =>
    simp only [bump, countFor, get_insert, Option.some.injEq]
    split_ifs with h
    · rw [h]
      rfl
    · rfl

/-- What all counters come to. -/
def totalCount : Nat := (counters.toList.map Prod.snd).sum

theorem totalCount_bump (identity : Option String) :
    totalCount (bump counters identity) ≤ totalCount counters + 1 := by
  cases identity with
  | none => exact Nat.le_succ _
  | some id =>
    cases hget : counters[id]? with
    | none =>
      have hbump : bump counters (some id) = counters.insert id 1 := by simp [bump, countFor, hget]
      rw [hbump, totalCount, ((toList_insert_new _ hget).map Prod.snd).sum_eq]
      simp [totalCount, Nat.add_comm]
    | some count =>
      have hbump : bump counters (some id) = counters.insert id (count + 1) := by
        simp [bump, countFor, hget]
      obtain ⟨hbef, haft⟩ := toList_insert_old (count + 1) hget
      rw [hbump, totalCount, totalCount, (haft.map Prod.snd).sum_eq, (hbef.map Prod.snd).sum_eq]
      simp only [map_cons, sum_cons]
      omega

/-- Counters that were counted: under names that are not blank, each at least
one and within its type. -/
def CountersValid : Prop :=
  ∀ (id : String) count, counters[id]? = some count → isBlank id = false ∧ 0 < count ∧ count ≤ u16Max

theorem CountersValid.bump {counters : BTreeMap String Nat} (h : CountersValid counters)
    {identity : Option String} (hid : ∀ id, identity = some id → isBlank id = false ∧
      countFor counters id < u16Max) : CountersValid (bump counters identity) := by
  cases identity with
  | none => exact h
  | some id =>
    intro other count hget
    rw [Termivar.bump, get_insert] at hget
    split_ifs at hget with heq
    · cases hget
      obtain ⟨hblk, hlt⟩ := hid id rfl
      exact ⟨heq ▸ hblk, Nat.succ_pos _, hlt⟩
    · exact h other count hget

/-! ### The wire form -/

/-- Why a record of the adaptive pipeline is not read. -/
inductive AdaptiveWireError where
  | wire (failure : WireError)
  | adaptive (failure : AdaptivePipelineError)

inductive LedgerField where
  | transitions
  | ruleApplications
  | actionSchedules
  | suppressedActions
  deriving DecidableEq

def LedgerField.Slot : LedgerField → Type
  | .transitions => Nat
  | .ruleApplications | .actionSchedules => BTreeMap String Nat
  | .suppressedActions => BTreeSet String

/-- An unsigned integer of a machine type. -/
def Wire.readUnsigned (top : Nat) (data : Data) : Except WireError Nat :=
  Int.toNat <$> Wire.readInteger 0 top data

def Wire.writeUnsigned (n : Nat) : Data := .integer n

theorem Wire.readUnsigned_writeUnsigned {top n : Nat} (h : n ≤ top) :
    readUnsigned top (writeUnsigned n) = .ok n := by
  have hrg : (0 : Int) ≤ n ∧ (n : Int) ≤ top := ⟨Int.natCast_nonneg n, Int.ofNat_le.mpr h⟩
  rw [readUnsigned, writeUnsigned, readInteger, if_pos hrg]
  rfl

def ledgerSchema : Record.Schema LedgerField Data WireError LedgerField.Slot where
  fields := [.transitions, .ruleApplications, .actionSchedules, .suppressedActions]
  name
    | .transitions => "transitions"
    | .ruleApplications => "rule_applications"
    | .actionSchedules => "action_schedules"
    | .suppressedActions => "suppressed_actions"
  read
    | .transitions => Wire.readUnsigned u32Max
    | .ruleApplications => Wire.readMap (Wire.readUnsigned u16Max)
    | .actionSchedules => Wire.readMap (Wire.readUnsigned u16Max)
    | .suppressedActions => Wire.readSet Wire.readText
  duplicate := .duplicateField
  unknown := none
  nodup := by decide
  named := by decide

def validateCounterMap (field : String) :
    Except AdaptivePipelineError Unit :=
  if counters.toList.any fun entry => isBlank entry.1 || entry.2 = 0 then
    .error (.invalidLedgerEntry field)
  else .ok ()

namespace AdaptationLedger

def rawFields (ledger : AdaptationLedger) : LedgerField → Option Data
  | .transitions => some (Wire.writeUnsigned ledger.transitions)
  | .ruleApplications => some (Wire.writeMap Wire.writeUnsigned ledger.ruleApplications)
  | .actionSchedules => some (Wire.writeMap Wire.writeUnsigned ledger.actionSchedules)
  | .suppressedActions => some (Wire.writeSet .text ledger.suppressedActions)

def serialize (ledger : AdaptationLedger) : Data :=
  .map (Record.encode ledgerSchema.fields ledgerSchema.name ledger.rawFields)

/-- The checks of the deserializer. -/
def validate (ledger : AdaptationLedger) : Except AdaptivePipelineError AdaptationLedger := do
  validateCounterMap ledger.ruleApplications "rule applications"
  validateCounterMap ledger.actionSchedules "action schedules"
  if ledger.transitions < totalCount ledger.ruleApplications ∨
      ledger.transitions < totalCount ledger.actionSchedules ∨
      ledger.transitions < ledger.suppressedActions.size then
    throw (.invalidLedgerEntry "counters exceed transitions")
  if ledger.suppressedActions.toList.any isBlank then
    throw (.invalidLedgerEntry "suppressed actions")
  return ledger

def ofSlots (slots : Record.Slots LedgerField.Slot) : Except WireError AdaptationLedger := do
  let transitions ← Wire.require "transitions" (slots .transitions)
  let ruleApplications ← Wire.require "rule_applications" (slots .ruleApplications)
  let actionSchedules ← Wire.require "action_schedules" (slots .actionSchedules)
  let suppressedActions ← Wire.require "suppressed_actions" (slots .suppressedActions)
  return { transitions, ruleApplications, actionSchedules, suppressedActions }

def deserialize : Data → Except AdaptiveWireError AdaptationLedger
  | .map entries => do
    let ledger ← (ledgerSchema.collect entries >>= ofSlots).mapError .wire
    ledger.validate.mapError .adaptive
  | _ => .error (.wire .invalidType)

end AdaptationLedger

/-- A ledger its deserializer accepts. -/
structure LedgerValid (ledger : AdaptationLedger) : Prop where
  transitions : ledger.transitions ≤ u32Max
  ruleApplications : CountersValid ledger.ruleApplications
  actionSchedules : CountersValid ledger.actionSchedules
  ruleTotal : totalCount ledger.ruleApplications ≤ ledger.transitions
  actionTotal : totalCount ledger.actionSchedules ≤ ledger.transitions
  suppressedTotal : ledger.suppressedActions.size ≤ ledger.transitions
  suppressedActions : ∀ id ∈ ledger.suppressedActions, isBlank id = false

theorem CountersValid.validate {counters : BTreeMap String Nat} (h : CountersValid counters)
    (field : String) : validateCounterMap counters field = .ok () := by
  unfold validateCounterMap
  rw [if_neg]
  simp only [any_eq_true, Bool.or_eq_true, decide_eq_true_eq, not_exists, not_and, not_or]
  rintro ⟨id, count⟩ hmem
  obtain ⟨hblk, hpos, -⟩ := h id count (mem_toList.mp hmem)
  exact ⟨by simp [hblk], hpos.ne'⟩

theorem CountersValid.reads {counters : BTreeMap String Nat} (h : CountersValid counters) :
    Wire.readMap (Wire.readUnsigned u16Max) (Wire.writeMap Wire.writeUnsigned counters) =
      .ok counters :=
  Wire.readMap_writeMap fun id count hget => Wire.readUnsigned_writeUnsigned (h id count hget).2.2

theorem LedgerValid.validate_eq {ledger : AdaptationLedger} (h : LedgerValid ledger) :
    ledger.validate = .ok ledger := by
  have htotals : ¬ (ledger.transitions < totalCount ledger.ruleApplications ∨
      ledger.transitions < totalCount ledger.actionSchedules ∨
      ledger.transitions < ledger.suppressedActions.size) := by
    have h1 := h.ruleTotal
    have h2 := h.actionTotal
    have h3 := h.suppressedTotal
    omega
  have hblk : ¬ ledger.suppressedActions.toList.any isBlank = true := by
    simp only [any_eq_true, not_exists, not_and]
    intro id hid
    simp [h.suppressedActions id (Std.ExtTreeSet.mem_toList.mp hid)]
  unfold validate
  rw [h.ruleApplications.validate, h.actionSchedules.validate]
  simp [htotals, hblk, bind, Except.bind, pure, Except.pure]

/-- A valid ledger is read back. -/
theorem LedgerValid.round_trip {ledger : AdaptationLedger} (h : LedgerValid ledger) :
    deserialize ledger.serialize = .ok ledger := by
  have hrd : Record.Reads ledgerSchema ledger.rawFields (fun
      | .transitions => some ledger.transitions
      | .ruleApplications => some ledger.ruleApplications
      | .actionSchedules => some ledger.actionSchedules
      | .suppressedActions => some ledger.suppressedActions) := by
    intro field
    refine Or.inr ⟨by cases field <;> decide, ?_⟩
    cases field with
    | transitions => exact ⟨_, _, rfl, rfl, Wire.readUnsigned_writeUnsigned h.transitions⟩
    | ruleApplications => exact ⟨_, _, rfl, rfl, h.ruleApplications.reads⟩
    | actionSchedules => exact ⟨_, _, rfl, rfl, h.actionSchedules.reads⟩
    | suppressedActions => exact ⟨_, _, rfl, rfl, Wire.readSet_writeSet fun _ _ => rfl⟩
  have hcoll : (ledgerSchema.collect
      (Record.encode ledgerSchema.fields ledgerSchema.name ledger.rawFields) >>=
        ofSlots) = .ok ledger := collect_bind_encode hrd rfl
  simp only [serialize, deserialize, hcoll]
  exact congrArg (Except.mapError AdaptiveWireError.adaptive) h.validate_eq

end Termivar
