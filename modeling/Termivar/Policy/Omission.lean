/-
# Policies on the wire

A policy is read back from what it is written as. If one field of its wire
form is deleted, then it is refused, or it is read as a policy of the same
authority: only the payload strategy of a case or of an action can be lost,
while the flag of a transition, the target of an action, the scope and the
correlation of a rule and the condition of an adaptation are kept by a guard.
-/
import Termivar.Policy.Wire
import Termivar.Rules.WireRoundTrip

namespace Termivar

open Wire Option List

/-- A record with one of its fields deleted. -/
inductive Data.Omitted : Data → Data → Prop
  | field {entries entries' : List (String × Data)} (h : Record.Omitted entries entries') :
      Omitted (.map entries) (.map entries')

/-- A reading fails, or it gives a value of a kind. -/
def RefusedOr {ε α : Type} (result : Except ε α) (P : α → Prop) : Prop :=
  (∃ failure, result = .error failure) ∨ ∃ y, result = .ok y ∧ P y

theorem refusedOr_ok {ε α : Type} {P : α → Prop} {result : Except ε α} {y : α} (h : result = .ok y)
    (hy : P y) : RefusedOr result P :=
  Or.inr ⟨y, h, hy⟩

section Records

variable {ι α : Type} [DecidableEq ι] {T : ι → Type}
  {schema : Record.Schema ι Data PolicyWireError T} {raw : ι → Option Data} {slots : Record.Slots T}
  {build : Record.Slots T → Except PolicyWireError α} {P : α → Prop} {entries : List (String × Data)}

theorem collect_bind_written (hrd : Record.Reads schema raw slots) {x : α}
    (hbuild : build slots = .ok x) :
    (schema.collect (Record.encode schema.fields schema.name raw) >>= build) = .ok x := by
  rw [Record.collect_encode hrd]
  exact hbuild

theorem collect_bind_omitted (hrd : Record.Reads schema raw slots)
    (h : Record.Omitted (Record.encode schema.fields schema.name raw) entries)
    (hless : ∀ i, (slots i).isSome = true → RefusedOr (build (Function.update slots i none)) P) :
    RefusedOr (schema.collect entries >>= build) P := by
  obtain ⟨i, hi, hone⟩ := Record.collect_omitted hrd h
  rw [hone]
  exact hless i hi

end Records

/-! ### Values -/

namespace Wire

theorem policy_eq_ok {α : Type} {read : Data → Except WireError α} {data : Data} {value : α}
    (h : read data = .ok value) : policy read data = .ok value := by
  rw [policy, h]
  rfl

theorem readU16_writeUnsigned (n : { n : Nat // n ≤ u16Max }) :
    readU16 (writeUnsigned n.1) = .ok n := by
  simp [readU16, readUnsigned_writeUnsigned n.2, n.2, bind, Except.bind, pure, Except.pure]

end Wire

/-- A value that is skipped where it is absent. -/
theorem skipped_reads {α : Type} {read : Data → Except PolicyWireError (Option α)} {write : α → Data}
    (value : Option α) (h : ∀ x ∈ value, read (write x) = .ok (some x)) :
    (value.map write = none ∧ value.map some = none) ∨ ∃ r x, value.map write = some r ∧
      value.map some = some x ∧ read r = .ok x := by
  cases value with
  | none => exact Or.inl ⟨rfl, rfl⟩
  | some x => exact Or.inr ⟨_, _, rfl, rfl, h x rfl⟩

/-- A flag that is skipped where it has its default. -/
theorem flag_reads (kept value : Bool) :
    ((if kept then some (Data.bool value) else none) = none ∧
      (if kept then some value else none) = none) ∨
    ∃ r x, (if kept then some (Data.bool value) else none) = some r ∧
      (if kept then some value else none) = some x ∧ policy readBool r = .ok x := by
  cases kept with
  | false => exact Or.inl ⟨rfl, rfl⟩
  | true => exact Or.inr ⟨_, _, rfl, rfl, rfl⟩

namespace PayloadStrategyRef

theorem deserialize_serialize (strategy : PayloadStrategyRef) :
    deserialize strategy.serialize = .ok strategy := by
  have hrd : Record.Reads strategySchema strategy.rawFields
      (fun i => i.casesOn (some strategy.id) (some strategy.revision)) := by
    intro i
    cases i with
    | id => exact Or.inr ⟨by decide, _, _, rfl, rfl, rfl⟩
    | revision =>
      exact Or.inr ⟨by decide, _, _, rfl, rfl, policy_eq_ok (readUnsigned_writeUnsigned strategy.bounded)⟩
  refine collect_bind_written hrd ?_
  have hbdd := strategy.bounded
  simp [ofSlots, requirePolicy, okOr, bind, Except.bind, new, strategy.notBlank, strategy.short,
    strategy.valid, strategy.positive, hbdd, Except.mapError]

theorem readPolicy_serialize (strategy : PayloadStrategyRef) :
    readPolicy deserialize strategy.serialize = .ok (some strategy) := by
  show some <$> deserialize strategy.serialize = _
  rw [strategy.deserialize_serialize]
  rfl

end PayloadStrategyRef

/-! ### Verification cases -/

namespace VerificationCase

/-- Equal but for the payload strategy. -/
def SameAuthority (case other : VerificationCase) : Prop :=
  other.withPayloadStrategy none = case.withPayloadStrategy none

def slots (case : VerificationCase) : Record.Slots CaseField.Slot
  | .id => some case.id
  | .subject => some case.subject
  | .actionId => some case.actionId
  | .hypothesisId => some case.hypothesisId
  | .payloadStrategy => case.payloadStrategy.map some
  | .appliesHypothesisTransition =>
    if !case.appliesHypothesisTransition then some case.appliesHypothesisTransition else none
  | .payloadClaimPolicyGuard => if case.claimPolicyGuard then some case.claimPolicyGuard else none

variable (case : VerificationCase)

theorem reads : Record.Reads caseSchema case.rawFields case.slots := by
  intro i
  cases i with
  | id => exact Or.inr ⟨by decide, _, _, rfl, rfl, rfl⟩
  | subject =>
    exact Or.inr ⟨by decide, _, _, rfl, rfl, policy_eq_ok (readEntityId_text _)⟩
  | actionId => exact Or.inr ⟨by decide, _, _, rfl, rfl, rfl⟩
  | hypothesisId => exact Or.inr ⟨by decide, _, _, rfl, rfl, rfl⟩
  | payloadStrategy =>
    exact (skipped_reads case.payloadStrategy fun strategy _ =>
      strategy.readPolicy_serialize).imp_right fun h => ⟨by decide, h⟩
  | appliesHypothesisTransition =>
    exact (flag_reads (!case.appliesHypothesisTransition)
      case.appliesHypothesisTransition).imp_right fun h => ⟨by decide, h⟩
  | payloadClaimPolicyGuard =>
    exact (flag_reads case.claimPolicyGuard case.claimPolicyGuard).imp_right
      fun h => ⟨by decide, h⟩

/-- The case read with these in its optional fields. -/
def reread (strategy : Option PayloadStrategyRef) (applies guard : Bool) :
    Except PolicyWireError VerificationCase :=
  ofWire case.id case.subject case.actionId case.hypothesisId strategy applies guard []

/-- A case passes the checks, with any payload strategy. -/
theorem reread_self (strategy : Option PayloadStrategyRef) :
    case.reread strategy case.appliesHypothesisTransition case.claimPolicyGuard =
      .ok (case.withPayloadStrategy strategy) := by
  have hid := case.id_notBlank
  have haction := case.actionId_notBlank
  have hhyp := case.hypothesisId_notBlank
  obtain ⟨id, subject, actionId, hypothesisId, strategy', applies, _, _, _⟩ := case
  cases applies <;>
    simp_all [reread, ofWire, reserved, claimPolicyGuard, new, withPayloadStrategy,
      withoutHypothesisTransition, bind, Except.bind, Except.mapError, pure, Except.pure]

/-- Where the guard and the flag agree, a case is refused. -/
theorem reread_unguarded (strategy : Option PayloadStrategyRef) (flag : Bool) :
    ∃ failure, case.reread strategy flag flag = .error failure :=
  ⟨_, by simp [reread, ofWire, reserved]; rfl⟩

theorem getD_slots_strategy :
    (case.slots .payloadStrategy).getD none = case.payloadStrategy := by
  cases h : case.payloadStrategy <;> simp only [slots, h] <;> rfl

theorem getD_slots_applies :
    (case.slots .appliesHypothesisTransition).getD true = case.appliesHypothesisTransition := by
  cases h : case.appliesHypothesisTransition <;> simp only [slots, h] <;> rfl

theorem getD_slots_guard :
    (case.slots .payloadClaimPolicyGuard).getD false = case.claimPolicyGuard := by
  cases h : case.claimPolicyGuard <;> simp only [slots, h] <;> rfl

theorem ofSlots_slots : ofSlots [] case.slots = .ok case := by
  change case.reread ((case.slots .payloadStrategy).getD none)
    ((case.slots .appliesHypothesisTransition).getD true)
    ((case.slots .payloadClaimPolicyGuard).getD false) = _
  rw [getD_slots_strategy, getD_slots_applies, getD_slots_guard, reread_self]
  rfl

theorem deserialize_serialize : deserialize case.serialize = .ok case := by
  simp only [deserialize, serialize, Record.extensions_eq_nil fun entry hent => hent]
  exact collect_bind_written case.reads case.ofSlots_slots

/-- A case without one of its fields. -/
theorem ofSlots_less (i : CaseField) (hi : (case.slots i).isSome = true) :
    RefusedOr (ofSlots [] (Function.update case.slots i none)) case.SameAuthority := by
  cases i with
  | payloadStrategy =>
    refine refusedOr_ok (y := case.withPayloadStrategy none) ?_ rfl
    change case.reread none ((case.slots .appliesHypothesisTransition).getD true)
      ((case.slots .payloadClaimPolicyGuard).getD false) = _
    rw [getD_slots_applies, getD_slots_guard, reread_self]
  | appliesHypothesisTransition =>
    -- only the flag of a knowledge-only case is written, and it is guarded
    have hgd : case.claimPolicyGuard = true := by
      cases h : case.appliesHypothesisTransition <;> simp_all [slots, claimPolicyGuard]
    refine Or.inl ?_
    change ∃ failure, case.reread _ true ((case.slots .payloadClaimPolicyGuard).getD false) =
      .error failure
    rw [getD_slots_guard, hgd]
    exact case.reread_unguarded _ true
  | payloadClaimPolicyGuard =>
    have hknow : case.appliesHypothesisTransition = false := by
      cases h : case.appliesHypothesisTransition <;> simp_all [slots, claimPolicyGuard]
    refine Or.inl ?_
    change ∃ failure, case.reread _ ((case.slots .appliesHypothesisTransition).getD true) false =
      .error failure
    rw [getD_slots_applies, hknow]
    exact case.reread_unguarded _ false
  | _ => exact Or.inl ⟨_, rfl⟩

/-- A case with a field deleted is refused or of the same authority. -/
theorem omitted {case : VerificationCase} {d : Data} (h : case.serialize.Omitted d) :
    RefusedOr (deserialize d) case.SameAuthority := by
  unfold serialize at h
  cases h with
  | field h =>
    simp only [deserialize, Record.extensions_eq_nil h.mem]
    exact collect_bind_omitted case.reads h case.ofSlots_less

end VerificationCase

/-! ### Verification rules -/

theorem VerificationScopeGuard.deserialize_wireName (guard : VerificationScopeGuard) :
    VerificationScopeGuard.deserialize (.text guard.wireName) = .ok guard :=
  readVariant_wireName (by cases guard <;> decide)

namespace VerificationRule

/-- Whether a rule is one of the source's types: a `u16` priority and a
condition its constructors build. -/
def Representable (rule : VerificationRule) : Prop :=
  rule.priority ≤ u16Max ∧ rule.condition.wellFormed = true ∧ rule.condition.inRange = true

def slots (rule : VerificationRule) : Record.Slots VerificationRuleField.Slot
  | .id => some rule.id
  | .stage => some rule.stage
  | .priority => some rule.priority
  | .condition => some rule.condition
  | .outcome => some rule.outcome
  | .confidence => some rule.confidence
  | .rationale => some rule.rationale
  | .actionId => rule.actionId.map some
  | .caseCorrelatedEvidence =>
    if rule.caseCorrelatedEvidence then some rule.caseCorrelatedEvidence else none
  | .verificationScopeGuard => rule.scopeGuard.map some

theorem reads {rule : VerificationRule} (h : rule.Representable) :
    Record.Reads verificationRuleSchema rule.rawFields rule.slots := by
  obtain ⟨hprior, hformed, hrg⟩ := h
  intro i
  cases i with
  | id => exact Or.inr ⟨by decide, _, _, rfl, rfl, rfl⟩
  | stage => exact Or.inr ⟨by decide, _, _, rfl, rfl, policy_eq_ok rule.stage.round_trip⟩
  | priority =>
    exact Or.inr ⟨by decide, _, _, rfl, rfl, policy_eq_ok (readUnsigned_writeUnsigned hprior)⟩
  | condition =>
    exact Or.inr ⟨by decide, _, _, rfl, rfl, policy_eq_ok (rule.condition.deserialize_serialize hformed hrg)⟩
  | outcome => exact Or.inr ⟨by decide, _, _, rfl, rfl, policy_eq_ok rule.outcome.round_trip⟩
  | confidence =>
    exact Or.inr ⟨by decide, _, _, rfl, rfl, policy_eq_ok (readProbability_serialize _)⟩
  | rationale => exact Or.inr ⟨by decide, _, _, rfl, rfl, rfl⟩
  | actionId =>
    exact (skipped_reads rule.actionId fun _ _ => rfl).imp_right fun h => ⟨by decide, h⟩
  | caseCorrelatedEvidence =>
    exact (flag_reads rule.caseCorrelatedEvidence rule.caseCorrelatedEvidence).imp_right
      fun h => ⟨by decide, h⟩
  | verificationScopeGuard =>
    have hgd (guard : VerificationScopeGuard) :
        policy (readNullable VerificationScopeGuard.deserialize) (.text guard.wireName) =
          .ok (some guard) := by
      refine policy_eq_ok ?_
      show some <$> VerificationScopeGuard.deserialize (.text guard.wireName) = _
      rw [guard.deserialize_wireName]
      rfl
    exact (skipped_reads rule.scopeGuard fun guard _ => hgd guard).imp_right
      fun h => ⟨by decide, h⟩

variable (rule : VerificationRule)

/-- The rule read with these in its optional fields. -/
def reread (actionId : Option String) (correlated : Bool) (guard : Option VerificationScopeGuard) :
    Except PolicyWireError VerificationRule :=
  ofWire rule.id rule.stage rule.priority rule.condition rule.outcome rule.confidence rule.rationale
    actionId correlated guard

/-- A rule passes the checks with its guard or with none. -/
theorem reread_self {guard : Option VerificationScopeGuard}
    (h : ∀ g ∈ guard, rule.scopeGuard = some g) :
    rule.reread rule.actionId rule.caseCorrelatedEvidence guard = .ok rule := by
  have hgd : ¬ (guard.isSome ∧
      guard ≠ VerificationScopeGuard.forScope rule.actionId rule.caseCorrelatedEvidence) := by
    rintro ⟨hsome, hne⟩
    obtain ⟨g, rfl⟩ := isSome_iff_exists.mp hsome
    exact hne (h g rfl).symm
  unfold reread ofWire
  rw [if_neg hgd]
  obtain ⟨id, stage, priority, condition, outcome, confidence, rationale, actionId, correlated, hid,
    hconc, hact, hconf, hrat, haction, hev⟩ := rule
  have hnew : new id stage priority condition outcome confidence rationale =
      .ok ⟨id, stage, priority, condition, outcome, confidence, rationale, none, false, hid,
        hconc, hact, hconf, hrat, rfl, (by simp)⟩ := by
    unfold new
    rw [dif_pos hid, dif_pos hconc, dif_pos hact, dif_pos hconf, dif_pos hrat]
  simp only [hnew, Except.mapError, bind, Except.bind, pure, Except.pure]
  cases actionId with
  | none =>
    cases correlated with
    | false => rfl
    | true => simp [withCaseCorrelatedEvidence, hev rfl]
  | some actionId =>
    have hblk : isBlank actionId = false := by simpa using haction
    cases correlated with
    | false => simp [scopedToAction, hblk]
    | true => simp [scopedToAction, hblk, withCaseCorrelatedEvidence, hev rfl]

/-- A guard that does not stand for the scope is refused. -/
theorem reread_inconsistent {actionId : Option String} {correlated : Bool}
    {guard : VerificationScopeGuard}
    (h : some guard ≠ VerificationScopeGuard.forScope actionId correlated) :
    ∃ failure, rule.reread actionId correlated (some guard) = .error failure := by
  unfold reread ofWire
  rw [if_pos ⟨rfl, h⟩]
  exact ⟨_, rfl⟩

theorem getD_slots_actionId :
    (rule.slots .actionId).getD none = rule.actionId := by
  cases h : rule.actionId <;> simp only [slots, h] <;> rfl

theorem getD_slots_correlated :
    (rule.slots .caseCorrelatedEvidence).getD false = rule.caseCorrelatedEvidence := by
  cases h : rule.caseCorrelatedEvidence <;> simp only [slots, h] <;> rfl

theorem getD_slots_guard :
    (rule.slots .verificationScopeGuard).getD none = rule.scopeGuard := by
  cases h : rule.scopeGuard <;> simp only [slots, h] <;> rfl

theorem ofSlots_slots : ofSlots rule.slots = .ok rule := by
  change rule.reread ((rule.slots .actionId).getD none)
    ((rule.slots .caseCorrelatedEvidence).getD false)
    ((rule.slots .verificationScopeGuard).getD none) = _
  rw [getD_slots_actionId, getD_slots_correlated, getD_slots_guard]
  exact rule.reread_self fun g hg => hg

theorem deserialize_serialize {rule : VerificationRule} (h : rule.Representable) :
    deserialize rule.serialize = .ok rule :=
  collect_bind_written (reads h) rule.ofSlots_slots

/-- A rule without one of its fields. -/
theorem ofSlots_less (i : VerificationRuleField) (hi : (rule.slots i).isSome = true) :
    RefusedOr (ofSlots (Function.update rule.slots i none)) (· = rule) := by
  cases i with
  | actionId =>
    refine Or.inl ?_
    change ∃ failure, rule.reread none ((rule.slots .caseCorrelatedEvidence).getD false)
      ((rule.slots .verificationScopeGuard).getD none) = .error failure
    rw [getD_slots_correlated, getD_slots_guard]
    obtain ⟨actionId, haction⟩ : ∃ actionId, rule.actionId = some actionId := by
      cases h : rule.actionId with
      | none =>
        simp only [slots, h] at hi
        cases hi
      | some actionId => exact ⟨actionId, rfl⟩
    cases hcorr : rule.caseCorrelatedEvidence <;>
      simp only [scopeGuard, haction, hcorr, VerificationScopeGuard.forScope, isSome_some] <;>
      exact rule.reread_inconsistent (by decide)
  | caseCorrelatedEvidence =>
    refine Or.inl ?_
    change ∃ failure, rule.reread ((rule.slots .actionId).getD none) false
      ((rule.slots .verificationScopeGuard).getD none) = .error failure
    rw [getD_slots_actionId, getD_slots_guard]
    have hcorr : rule.caseCorrelatedEvidence = true := by
      cases h : rule.caseCorrelatedEvidence <;> simp_all [slots]
    cases haction : rule.actionId <;>
      simp only [scopeGuard, haction, hcorr, VerificationScopeGuard.forScope,
        isSome_some, isSome_none] <;>
      exact rule.reread_inconsistent (by simp [VerificationScopeGuard.forScope])
  | verificationScopeGuard =>
    refine refusedOr_ok ?_ rfl
    change rule.reread ((rule.slots .actionId).getD none)
      ((rule.slots .caseCorrelatedEvidence).getD false) none = _
    rw [getD_slots_actionId, getD_slots_correlated]
    exact rule.reread_self nofun
  | _ => exact Or.inl ⟨_, rfl⟩

/-- A rule with a field deleted is refused or the same. -/
theorem omitted {rule : VerificationRule} {d : Data} (hrule : rule.Representable)
    (h : rule.serialize.Omitted d) : RefusedOr (deserialize d) (· = rule) := by
  unfold serialize at h
  cases h with
  | field h => exact collect_bind_omitted (reads hrule) h rule.ofSlots_less

end VerificationRule

/-! ### Actions -/

theorem readBenefitScore_writeUnsigned (score : BenefitScore) :
    readBenefitScore (writeUnsigned score.basisPoints) = .ok score := by
  have hbd : score.basisPoints ≤ u16Max := le_trans score.inRange (by decide)
  simp [readBenefitScore, policy_eq_ok (readUnsigned_writeUnsigned hbd),
    score.inRange, bind, Except.bind, pure, Except.pure]

theorem readRiskScore_writeUnsigned (score : RiskScore) :
    readRiskScore (writeUnsigned score.basisPoints) = .ok score := by
  have hbd : score.basisPoints ≤ u16Max := le_trans score.inRange (by decide)
  simp [readRiskScore, policy_eq_ok (readUnsigned_writeUnsigned hbd),
    score.positive, score.inRange, bind, Except.bind, pure, Except.pure]

theorem readActionCost_writeUnsigned (cost : ActionCost) :
    readActionCost (writeUnsigned cost.units) = .ok cost := by
  simp [readActionCost, policy_eq_ok (readUnsigned_writeUnsigned cost.bounded),
    cost.positive, cost.bounded, bind, Except.bind, pure, Except.pure]

theorem RequiredStrength.deserialize_wireName (strength : RequiredStrength) :
    RequiredStrength.deserialize (.text strength.wireName) = .ok strength :=
  readVariant_wireName (by cases strength <;> decide)

theorem HypothesisSelector.deserialize_serialize {selector : HypothesisSelector}
    (h : selector.value.inRange = true) : deserialize selector.serialize = .ok selector := by
  have hrd : Record.Reads hypothesisSelectorSchema selector.rawFields
      (fun i => i.casesOn (some selector.predicate) (some selector.value)
        (some selector.minimumPosterior) (some selector.requiredStrength)) := by
    intro i
    refine Or.inr ⟨by cases i <;> decide, ?_⟩
    cases i with
    | predicate =>
      exact ⟨_, _, rfl, rfl, policy_eq_ok selector.predicate.deserialize_serialize⟩
    | value => exact ⟨_, _, rfl, rfl, policy_eq_ok (EvidenceValue.deserialize_serialize h)⟩
    | minimumPosterior => exact ⟨_, _, rfl, rfl, policy_eq_ok (readProbability_serialize _)⟩
    | requiredStrength =>
      exact ⟨_, _, rfl, rfl, policy_eq_ok selector.requiredStrength.deserialize_wireName⟩
  exact collect_bind_written hrd rfl

namespace VerificationTarget

/-- Whether the integers of a target are those of the source's types. -/
def inRange : VerificationTarget → Bool
  | .distinct selector => selector.value.inRange
  | _ => true

theorem deserialize_serialize {target : VerificationTarget} (h : target.inRange = true) :
    deserialize target.serialize = .ok target := by
  cases target with
  | motivation => rfl
  | distinct selector =>
    show VerificationTarget.distinct <$> HypothesisSelector.deserialize selector.serialize = _
    rw [HypothesisSelector.deserialize_serialize h]
    rfl
  | knowledgeOnly => rfl

end VerificationTarget

namespace AttackAction

variable (action : AttackAction)

/-- Whether an action is one of the source's types: its integers fit, and its
requirements are what their constructors build. -/
def Representable : Prop :=
  action.requirements.wellFormed = true ∧ action.requirements.inRange = true ∧
    action.confidenceSource.value.inRange = true ∧ action.verificationTarget.inRange = true

variable (strategy : Option PayloadStrategyRef)

/-- This action with another payload strategy. -/
def replaceStrategy : AttackAction :=
  { action with payloadStrategy := strategy }

/-- Equal but for the payload strategy. -/
def SameAuthority (action other : AttackAction) : Prop :=
  other.replaceStrategy none = action.replaceStrategy none

def slots : Record.Slots ActionField.Slot
  | .id => some action.id
  | .executor => some action.executor
  | .payloadStrategy => action.payloadStrategy.map some
  | .requirements => some action.requirements
  | .confidenceSource => some action.confidenceSource
  | .gain => some action.gain
  | .cost => some action.cost
  | .risk => some action.risk
  | .prerequisites => some action.prerequisites
  | .verificationTarget =>
    if action.verificationTarget.isMotivation then none else some action.verificationTarget
  | .payloadClaimPolicyGuard =>
    if action.claimPolicyGuard then some action.claimPolicyGuard else none

theorem reads {action : AttackAction} (h : action.Representable) :
    Record.Reads actionSchema action.rawFields action.slots := by
  obtain ⟨hformed, hrg, hsource, htgt⟩ := h
  intro i
  cases i with
  | id => exact Or.inr ⟨by decide, _, _, rfl, rfl, rfl⟩
  | executor => exact Or.inr ⟨by decide, _, _, rfl, rfl, rfl⟩
  | payloadStrategy =>
    exact (skipped_reads action.payloadStrategy fun strategy _ =>
      strategy.readPolicy_serialize).imp_right fun h => ⟨by decide, h⟩
  | requirements =>
    exact Or.inr ⟨by decide, _, _, rfl, rfl,
      policy_eq_ok (action.requirements.deserialize_serialize hformed hrg)⟩
  | confidenceSource =>
    exact Or.inr ⟨by decide, _, _, rfl, rfl, HypothesisSelector.deserialize_serialize hsource⟩
  | gain => exact Or.inr ⟨by decide, _, _, rfl, rfl, readBenefitScore_writeUnsigned _⟩
  | cost => exact Or.inr ⟨by decide, _, _, rfl, rfl, readActionCost_writeUnsigned _⟩
  | risk => exact Or.inr ⟨by decide, _, _, rfl, rfl, readRiskScore_writeUnsigned _⟩
  | prerequisites =>
    exact Or.inr ⟨by decide, _, _, rfl, rfl, policy_eq_ok (readSet_writeSet fun _ _ => rfl)⟩
  | verificationTarget =>
    cases hmot : action.verificationTarget.isMotivation with
    | true => exact Or.inl ⟨if_pos hmot, if_pos hmot⟩
    | false =>
      have hne : ¬ action.verificationTarget.isMotivation = true := by simp [hmot]
      exact Or.inr ⟨by decide, _, _, if_neg hne, if_neg hne,
        VerificationTarget.deserialize_serialize htgt⟩
  | payloadClaimPolicyGuard =>
    exact (flag_reads action.claimPolicyGuard action.claimPolicyGuard).imp_right
      fun h => ⟨by decide, h⟩

/-- The constructor accepts the parts of an action. -/
theorem new_self : new action.id action.executor action.requirements
    action.confidenceSource action.gain action.cost action.risk action.prerequisites =
      .ok ((action.withVerificationTarget .motivation).replaceStrategy none) := by
  have hchec : checkPrerequisites action.id action.prerequisites.toList = .ok () :=
    checkPrerequisites_eq_ok.mpr fun prerequisite hmem =>
      action.prerequisitesValid prerequisite (Std.ExtTreeSet.mem_toList.mp hmem)
  unfold new
  rw [dif_pos action.idNotBlank, dif_pos action.executorNotBlank]
  split
  · rename_i failure hfail
    rw [hchec] at hfail
    cases hfail
  · rfl

/-- The action read with these in its optional fields. -/
def reread (target : VerificationTarget) (guard : Bool) : Except PolicyWireError AttackAction :=
  ofWire action.id action.executor strategy action.requirements action.confidenceSource action.gain
    action.cost action.risk action.prerequisites target guard []

/-- An action passes the checks, with any payload strategy. -/
theorem reread_self :
    action.reread strategy action.verificationTarget action.claimPolicyGuard =
      .ok (action.replaceStrategy strategy) := by
  have hgd : ¬ action.claimPolicyGuard = action.verificationTarget.isMotivation := by
    simp [claimPolicyGuard]
  simp only [reread, ofWire, reserved, any_nil, hgd, if_false, Bool.false_eq_true, new_self,
    Except.mapError, bind, Except.bind, pure, Except.pure]
  cases strategy <;> rfl

/-- Where the guard says motivation, an action is refused. -/
theorem reread_unguarded {target : VerificationTarget} {guard : Bool} (h : guard = target.isMotivation) :
    ∃ failure, action.reread strategy target guard = .error failure := by
  unfold reread ofWire
  rw [if_pos h]
  exact ⟨_, rfl⟩

theorem getD_slots_strategy :
    (action.slots .payloadStrategy).getD none = action.payloadStrategy := by
  cases h : action.payloadStrategy <;> simp only [slots, h] <;> rfl

theorem getD_slots_target :
    (action.slots .verificationTarget).getD .motivation = action.verificationTarget := by
  cases h : action.verificationTarget <;> simp only [slots, h] <;> rfl

theorem getD_slots_guard :
    (action.slots .payloadClaimPolicyGuard).getD false = action.claimPolicyGuard := by
  cases h : action.claimPolicyGuard <;> simp only [slots, h] <;> rfl

theorem ofSlots_slots : ofSlots [] action.slots = .ok action := by
  change action.reread ((action.slots .payloadStrategy).getD none)
    ((action.slots .verificationTarget).getD .motivation)
    ((action.slots .payloadClaimPolicyGuard).getD false) = _
  rw [getD_slots_strategy, getD_slots_target, getD_slots_guard, reread_self]
  rfl

theorem deserialize_serialize {action : AttackAction} (h : action.Representable) :
    deserialize action.serialize = .ok action := by
  simp only [deserialize, serialize, Record.extensions_eq_nil fun entry hent => hent]
  exact collect_bind_written (reads h) action.ofSlots_slots

/-- An action without one of its fields. -/
theorem ofSlots_less (i : ActionField) (hi : (action.slots i).isSome = true) :
    RefusedOr (ofSlots [] (Function.update action.slots i none)) action.SameAuthority := by
  cases i with
  | payloadStrategy =>
    refine refusedOr_ok (y := action.replaceStrategy none) ?_ rfl
    change action.reread none ((action.slots .verificationTarget).getD .motivation)
      ((action.slots .payloadClaimPolicyGuard).getD false) = _
    rw [getD_slots_target, getD_slots_guard, reread_self]
  | verificationTarget =>
    -- only a target that is not the motivation is written, and it is guarded
    have hgd : action.claimPolicyGuard = true := by
      cases h : action.verificationTarget.isMotivation <;> simp_all [slots, claimPolicyGuard]
    refine Or.inl ?_
    change ∃ failure, action.reread _ .motivation
      ((action.slots .payloadClaimPolicyGuard).getD false) = .error failure
    rw [getD_slots_guard, hgd]
    exact action.reread_unguarded _ rfl
  | payloadClaimPolicyGuard =>
    have htgt : action.verificationTarget.isMotivation = false := by
      cases h : action.verificationTarget.isMotivation <;> simp_all [slots, claimPolicyGuard]
    refine Or.inl ?_
    change ∃ failure, action.reread _ ((action.slots .verificationTarget).getD .motivation) false =
      .error failure
    rw [getD_slots_target]
    exact action.reread_unguarded _ htgt.symm
  | _ => exact Or.inl ⟨_, rfl⟩

/-- An action with a field deleted is refused or of the same authority. -/
theorem omitted {action : AttackAction} {d : Data} (haction : action.Representable)
    (h : action.serialize.Omitted d) : RefusedOr (deserialize d) action.SameAuthority := by
  unfold serialize at h
  cases h with
  | field h =>
    simp only [deserialize, Record.extensions_eq_nil h.mem]
    exact collect_bind_omitted (reads haction) h action.ofSlots_less

end AttackAction

/-! ### Directives -/

theorem DirectiveField.name_ne_directive (i : DirectiveField) : i.name ≠ "directive" := by
  cases i <;> decide

namespace PipelineDirective

def slots : PipelineDirective → Record.Slots DirectiveField.Slot
  | .scheduleAction actionId, .actionId => some actionId
  | .replan suppress, .suppressCurrentAction => some suppress
  | .throttle delayMs _, .delayMs => some delayMs
  | .throttle _ retry, .retryCurrentAction => some retry
  | _, _ => none

/-- A field that is written is one of the tag. -/
theorem field_mem {directive : PipelineDirective} {i : DirectiveField} {r : Data}
    (h : directive.rawFields i = some r) : i ∈ (directiveSchema directive.tag).fields := by
  cases directive <;> cases i <;>
    first | (cases h; done) | simp [directiveSchema, tag, DirectiveTag.fields]

variable (directive : PipelineDirective)

theorem reads :
    Record.Reads (directiveSchema directive.tag) directive.rawFields directive.slots := by
  intro i
  cases directive with
  | scheduleAction actionId =>
    cases i with
    | actionId => exact Or.inr ⟨field_mem rfl, _, _, rfl, rfl, rfl⟩
    | _ => exact Or.inl ⟨rfl, rfl⟩
  | replan suppress =>
    cases i with
    | suppressCurrentAction => exact Or.inr ⟨field_mem rfl, _, _, rfl, rfl, rfl⟩
    | _ => exact Or.inl ⟨rfl, rfl⟩
  | throttle delayMs retry =>
    cases i with
    | delayMs =>
      have hbd : delayMs.toNat ≤ u64Max := Nat.le_of_lt_succ delayMs.toNat_lt
      have hread : UInt64.ofNat <$> policy (readUnsigned u64Max)
          (writeUnsigned delayMs.toNat) = .ok delayMs := by
        rw [policy_eq_ok (readUnsigned_writeUnsigned hbd)]
        simp
      exact Or.inr ⟨field_mem rfl, _, _, rfl, rfl, hread⟩
    | retryCurrentAction => exact Or.inr ⟨field_mem rfl, _, _, rfl, rfl, rfl⟩
    | _ => exact Or.inl ⟨rfl, rfl⟩
  | _ => exact Or.inl ⟨by cases i <;> rfl, by cases i <;> rfl⟩

theorem ofSlots_slots :
    ofSlots directive.tag directive.slots = .ok directive := by
  cases directive <;> rfl

/-- The tag of a directive and the rest of its fields. -/
theorem takeTag_serialize {rest : List (String × Data)} (h : ∀ entry ∈ rest,
      entry ∈ Record.encode directive.tag.fields DirectiveField.name directive.rawFields) :
    Record.takeTag "directive" (policy DirectiveTag.deserialize)
      (.wire (.duplicateField "directive")) (.wire (.missingField "directive"))
      (("directive", .text directive.tag.wireName) :: rest) = .ok (directive.tag, rest) := by
  have htag : DirectiveTag.deserialize (.text directive.tag.wireName) = .ok directive.tag :=
    readVariant_wireName (by cases directive.tag <;> decide)
  refine Record.takeTag_cons _ _ _ _ (policy_eq_ok htag) fun entry hent => ?_
  obtain ⟨i, -, hi⟩ := mem_filterMap.mp (h entry hent)
  obtain ⟨r, -, rfl⟩ := map_eq_some_iff.mp hi
  exact DirectiveField.name_ne_directive i

/-- Without its tag a directive is refused. -/
theorem takeTag_untagged :
    ∃ failure, Record.takeTag "directive" (policy DirectiveTag.deserialize)
      (.wire (.duplicateField "directive")) (.wire (.missingField "directive"))
      (Record.encode directive.tag.fields DirectiveField.name directive.rawFields) =
        .error failure := by
  cases directive <;> exact ⟨_, rfl⟩

/-- A directive that passes its validation is read back. -/
theorem deserialize_serialize {directive : PipelineDirective} (h : directive.validate = .ok ()) :
    deserialize directive.serialize = .ok directive := by
  have hcoll := Record.collect_encode directive.reads
  simp only [deserialize, serialize, directive.takeTag_serialize fun _ hent => hent, bind,
    Except.bind]
  rw [show Record.encode directive.tag.fields DirectiveField.name directive.rawFields =
    Record.encode (directiveSchema directive.tag).fields (directiveSchema directive.tag).name
      directive.rawFields from rfl, hcoll]
  simp [directive.ofSlots_slots, h, Except.mapError, pure, Except.pure]

theorem ofSlots_less (i : DirectiveField) (hi : (directive.slots i).isSome = true) :
    ∃ failure, ofSlots directive.tag (Function.update directive.slots i none) = .error failure := by
  cases directive <;> cases i <;> first | exact ⟨_, rfl⟩ | cases hi

/-- A directive with a field deleted is refused. -/
theorem omitted {directive : PipelineDirective} {d : Data} (h : directive.serialize.Omitted d) :
    ∃ failure, deserialize d = .error failure := by
  unfold serialize at h
  generalize hents : ("directive", Data.text directive.tag.wireName) ::
    Record.encode directive.tag.fields DirectiveField.name directive.rawFields = entries at h
  cases h with
  | field h =>
    cases h with
    | entry front dropped back =>
      cases front with
      | nil =>
        obtain ⟨-, rfl⟩ := cons.inj hents
        obtain ⟨failure, hfail⟩ := directive.takeTag_untagged
        exact ⟨failure, by simp only [deserialize, nil_append, hfail, bind, Except.bind]⟩
      | cons first front =>
        obtain ⟨rfl, hrest⟩ := cons.inj hents
        have homit : Record.Omitted (Record.encode (directiveSchema directive.tag).fields
            (directiveSchema directive.tag).name directive.rawFields) (front ++ back) := by
          refine hrest ▸ Record.Omitted.entry front dropped back
        obtain ⟨i, hi, hcoll⟩ := Record.collect_omitted directive.reads homit
        obtain ⟨failure, hfail⟩ := directive.ofSlots_less i hi
        refine ⟨failure, ?_⟩
        simp only [deserialize, cons_append, directive.takeTag_serialize homit.mem, bind,
          Except.bind, hcoll, hfail]

end PipelineDirective

/-! ### Adaptation rules -/

theorem OutcomeSelector.deserialize_serialize (selector : OutcomeSelector) :
    deserialize selector.serialize = .ok selector := by
  have hrd : Record.Reads outcomeSelectorSchema selector.rawFields
      (fun i => i.casesOn (some selector.statuses) (some selector.stages)) := by
    intro i
    cases i with
    | statuses =>
      exact Or.inr ⟨by decide, _, _, rfl, rfl,
        policy_eq_ok (readSet_writeSet fun status _ => status.round_trip)⟩
    | stages =>
      exact Or.inr ⟨by decide, _, _, rfl, rfl,
        policy_eq_ok (readSet_writeSet fun stage _ => stage.round_trip)⟩
  refine collect_bind_written hrd ?_
  change (OutcomeSelector.new selector.statuses selector.stages).mapError _ = _
  unfold OutcomeSelector.new
  rw [dif_pos selector.statusesNonempty, dif_pos selector.stagesNonempty]
  rfl

namespace AdaptationRule

/-- Whether the condition of a rule is what its constructors build. -/
def Representable (rule : AdaptationRule) : Prop :=
  ∀ condition ∈ rule.condition, condition.wellFormed = true ∧ condition.inRange = true

def slots (rule : AdaptationRule) : Record.Slots AdaptationRuleField.Slot
  | .id => some rule.id
  | .selector => some rule.selector
  | .priority => some ⟨rule.priority, rule.priorityBounded⟩
  | .condition => some rule.condition
  | .conditionPolicyGuard =>
    if rule.conditionPolicyGuard then some (some rule.conditionPolicyGuard) else none
  | .directive => some rule.directive
  | .rationale => some rule.rationale
  | .maxApplications => some ⟨rule.maxApplications, rule.applicationsBounded⟩

theorem reads {rule : AdaptationRule} (h : rule.Representable) :
    Record.Reads adaptationRuleSchema rule.rawFields rule.slots := by
  have hcond : readNullable Expression.deserialize
      (writeNullable Expression.serialize rule.condition) = .ok rule.condition := by
    refine readNullable_writeNullable (fun e => ?_) fun condition hmem =>
      condition.deserialize_serialize (h condition hmem).1 (h condition hmem).2
    cases e <;> simp [Expression.serialize, Expression.writeNode]
  intro i
  cases i with
  | id => exact Or.inr ⟨by decide, _, _, rfl, rfl, rfl⟩
  | selector => exact Or.inr ⟨by decide, _, _, rfl, rfl, rule.selector.deserialize_serialize⟩
  | priority =>
    exact Or.inr ⟨by decide, _, _, rfl, rfl,
      policy_eq_ok (readU16_writeUnsigned ⟨rule.priority, rule.priorityBounded⟩)⟩
  | condition => exact Or.inr ⟨by decide, _, _, rfl, rfl, policy_eq_ok hcond⟩
  | conditionPolicyGuard =>
    cases hgd : rule.conditionPolicyGuard with
    | false => exact Or.inl ⟨by simp [rawFields, hgd], by simp [slots, hgd]⟩
    | true =>
      exact Or.inr ⟨by decide, .bool true, some true, by simp [rawFields, hgd],
        by simp [slots, hgd], rfl⟩
  | directive =>
    exact Or.inr ⟨by decide, _, _, rfl, rfl, PipelineDirective.deserialize_serialize rule.directiveValid⟩
  | rationale => exact Or.inr ⟨by decide, _, _, rfl, rfl, rfl⟩
  | maxApplications =>
    exact Or.inr ⟨by decide, _, _, rfl, rfl, policy_eq_ok
      (readU16_writeUnsigned ⟨rule.maxApplications, rule.applicationsBounded⟩)⟩

variable (rule : AdaptationRule)

theorem new_self : new rule.id rule.selector
    ⟨rule.priority, rule.priorityBounded⟩ rule.condition rule.directive rule.rationale
    ⟨rule.maxApplications, rule.applicationsBounded⟩ = .ok rule := by
  unfold new
  rw [dif_pos rule.idNotBlank, dif_pos rule.applicationsPositive]
  split
  · rename_i failure hfail
    rw [rule.directiveValid] at hfail
    cases hfail
  · rw [dif_pos rule.rationaleNotBlank]

/-- The rule read with these in its optional fields. -/
def reread (condition : Option Expression) (guard : Option Bool) :
    Except PolicyWireError AdaptationRule :=
  ofWire rule.id rule.selector ⟨rule.priority, rule.priorityBounded⟩ condition guard rule.directive
    rule.rationale ⟨rule.maxApplications, rule.applicationsBounded⟩

/-- A rule passes the checks with its guard or with none. -/
theorem reread_self {guard : Option Bool}
    (h : ∀ g ∈ guard, g = true ∧ rule.condition.isSome = true) :
    rule.reread rule.condition guard = .ok rule := by
  have hgd : (guard.any fun guard => !guard || rule.condition.isNone) = false := by
    cases guard with
    | none => rfl
    | some g =>
      obtain ⟨rfl, hsome⟩ := h g rfl
      cases hcond : rule.condition <;> simp_all
  simp only [reread, ofWire, hgd, new_self]
  rfl

theorem getD_slots_guard :
    (rule.slots .conditionPolicyGuard).getD none =
      (if rule.conditionPolicyGuard then some true else none : Option Bool) := by
  cases h : rule.conditionPolicyGuard <;> simp only [slots, h] <;> rfl

/-- The guard of a rule is true, and the rule has a condition. -/
theorem guarded {g : Bool}
    (h : g ∈ (if rule.conditionPolicyGuard then some true else none : Option Bool)) :
    g = true ∧ rule.condition.isSome = true := by
  cases hgd : rule.conditionPolicyGuard with
  | false => simp [hgd] at h
  | true =>
    rw [hgd] at h
    cases h
    exact ⟨rfl, hgd⟩

theorem ofSlots_slots : ofSlots rule.slots = .ok rule := by
  change rule.reread rule.condition ((rule.slots .conditionPolicyGuard).getD none) = _
  rw [getD_slots_guard]
  exact rule.reread_self fun g hg => rule.guarded hg

theorem deserialize_serialize {rule : AdaptationRule} (h : rule.Representable) :
    deserialize rule.serialize = .ok rule :=
  collect_bind_written (reads h) rule.ofSlots_slots

/-- A rule without one of its fields. -/
theorem ofSlots_less (i : AdaptationRuleField) (hi : (rule.slots i).isSome = true) :
    RefusedOr (ofSlots (Function.update rule.slots i none)) (· = rule) := by
  cases i with
  | condition =>
    cases hcond : rule.condition with
    | none =>
      -- a condition that was written as null is missed by nobody
      refine refusedOr_ok ?_ rfl
      change rule.reread none ((rule.slots .conditionPolicyGuard).getD none) = _
      rw [getD_slots_guard, ← hcond]
      exact rule.reread_self fun g hg => rule.guarded hg
    | some condition =>
      have hgd : rule.conditionPolicyGuard = true := by simp [conditionPolicyGuard, hcond]
      refine Or.inl ?_
      change ∃ failure, rule.reread none ((rule.slots .conditionPolicyGuard).getD none) =
        .error failure
      rw [getD_slots_guard, hgd]
      exact ⟨_, rfl⟩
  | conditionPolicyGuard =>
    refine refusedOr_ok ?_ rfl
    exact @reread_self rule none nofun
  | _ => exact Or.inl ⟨_, rfl⟩

/-- A rule with a field deleted is refused or the same. -/
theorem omitted {rule : AdaptationRule} {d : Data} (hrule : rule.Representable)
    (h : rule.serialize.Omitted d) : RefusedOr (deserialize d) (· = rule) := by
  unfold serialize at h
  cases h with
  | field h => exact collect_bind_omitted (reads hrule) h rule.ofSlots_less

end AdaptationRule

/-- **A policy is read back, and no omission broadens it.** A verification case,
a verification rule, an action, an adaptation rule and a directive that passes
its own validation are read back from what they are written as. With any one
field deleted a case or an action is refused or differs in its payload strategy
only, a rule is refused or the same, and a directive is refused. -/
theorem policy_round_trip :
    (∀ case : VerificationCase, VerificationCase.deserialize case.serialize = .ok case ∧
      ∀ d, case.serialize.Omitted d →
        RefusedOr (VerificationCase.deserialize d) case.SameAuthority) ∧
    (∀ rule : VerificationRule, rule.Representable →
      VerificationRule.deserialize rule.serialize = .ok rule ∧
      ∀ d, rule.serialize.Omitted d → RefusedOr (VerificationRule.deserialize d) (· = rule)) ∧
    (∀ action : AttackAction, action.Representable →
      AttackAction.deserialize action.serialize = .ok action ∧
      ∀ d, action.serialize.Omitted d → RefusedOr (AttackAction.deserialize d) action.SameAuthority) ∧
    (∀ rule : AdaptationRule, rule.Representable →
      AdaptationRule.deserialize rule.serialize = .ok rule ∧
      ∀ d, rule.serialize.Omitted d → RefusedOr (AdaptationRule.deserialize d) (· = rule)) ∧
    ∀ directive : PipelineDirective, directive.validate = .ok () →
      PipelineDirective.deserialize directive.serialize = .ok directive ∧
      ∀ d, directive.serialize.Omitted d → ∃ failure, PipelineDirective.deserialize d = .error failure :=
  ⟨fun case => ⟨case.deserialize_serialize, fun _ => VerificationCase.omitted⟩,
    fun _ h => ⟨VerificationRule.deserialize_serialize h, fun _ => VerificationRule.omitted h⟩,
    fun _ h => ⟨AttackAction.deserialize_serialize h, fun _ => AttackAction.omitted h⟩,
    fun _ h => ⟨AdaptationRule.deserialize_serialize h, fun _ => AdaptationRule.omitted h⟩,
    fun _ h => ⟨PipelineDirective.deserialize_serialize h, fun _ => PipelineDirective.omitted⟩⟩

/-- A rule scoped to one action and to the evidence of one case. -/
def scopedRule : VerificationRule where
  id := "token.reflected"
  stage := .active
  priority := 10
  condition := .claim .evidence tokenSelector.predicate none
  outcome := .success
  confidence := ⟨900000, by decide⟩
  rationale := "token was reflected"
  actionId := some "token.probe"
  caseCorrelatedEvidence := true
  idNotBlank := by decide
  conclusive := by decide
  negativeActive := by decide
  confident := by decide
  rationaleNotBlank := by decide
  actionIdNotBlank := by decide
  correlationOnEvidence := fun _ => by decide

/-- An action that transitions a hypothesis of its own. -/
def distinctAction : AttackAction where
  id := "token.probe"
  executor := "http"
  payloadStrategy := none
  requirements := .claim .evidence tokenSelector.predicate none
  confidenceSource := ⟨tokenSelector.predicate, .boolean true, ⟨540000, by decide⟩, .any⟩
  gain := ⟨6000, by decide⟩
  cost := ⟨3, by decide, by decide⟩
  risk := ⟨200, by decide, by decide⟩
  prerequisites := ∅
  verificationTarget :=
    .distinct ⟨tokenSelector.predicate, .boolean false, ⟨540000, by decide⟩, .strong⟩
  idNotBlank := by decide
  executorNotBlank := .refl false
  prerequisitesValid := by simp

/-- An adaptation under a condition. -/
def conditionalRule : AdaptationRule where
  id := "token.review"
  selector := ⟨.ofList [OutcomeStatus.blocked], .ofList [VerificationStage.active], by decide, by decide⟩
  priority := 10
  condition := some (.claim .evidence tokenSelector.predicate none)
  directive := .throttle 250 true
  rationale := "slow down"
  maxApplications := 5
  idNotBlank := by decide
  priorityBounded := by decide
  directiveValid := by decide
  rationaleNotBlank := by decide
  applicationsPositive := by decide
  applicationsBounded := by decide

theorem policy_round_trip_narrow :
    (scopedRule.Representable ∧
      VerificationRule.deserialize scopedRule.serialize = .ok scopedRule) ∧
    (distinctAction.Representable ∧
      AttackAction.deserialize distinctAction.serialize = .ok distinctAction) ∧
    (conditionalRule.Representable ∧
      AdaptationRule.deserialize conditionalRule.serialize = .ok conditionalRule) ∧
    PipelineDirective.deserialize (PipelineDirective.serialize (.replan true)) =
      .ok (.replan true) := by
  have hrule : scopedRule.Representable := ⟨by decide, by decide, by decide⟩
  have haction : distinctAction.Representable := ⟨by decide, by decide, by decide, by decide⟩
  have hadap : conditionalRule.Representable := by
    intro condition hcond
    cases hcond
    exact ⟨by decide, by decide⟩
  exact ⟨⟨hrule, (policy_round_trip.2.1 _ hrule).1⟩, ⟨haction, (policy_round_trip.2.2.1 _ haction).1⟩,
    ⟨hadap, (policy_round_trip.2.2.2.1 _ hadap).1⟩,
    (policy_round_trip.2.2.2.2 (.replan true) rfl).1⟩

/-- A directive can be built that does not pass its validation; it is written,
and what is written is refused. -/
theorem blank_schedule_not_read_back : ¬ ∀ directive : PipelineDirective,
    PipelineDirective.deserialize directive.serialize = .ok directive := by
  intro h
  have hblk : PipelineDirective.deserialize (PipelineDirective.serialize (.scheduleAction "")) =
      .error (.adaptive .emptyScheduledAction) := by decide
  cases hblk.symm.trans (h (.scheduleAction ""))

end Termivar
