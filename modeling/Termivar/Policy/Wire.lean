/-
# The wire form of policies

`termivar-scanner/src/{verification,payload_strategy}.rs`, `planner/model.rs`
and `adaptive/pipeline.rs`: what a verification case, a verification rule, an
action, a directive and an adaptation rule are written as, and how they are
read. A policy that is narrower than the default is written with a guard, and
reading checks the guard against the fields it stands for. Cases and actions
pass unknown fields over, unless their names are reserved.
-/
import Termivar.Experience.Wire
import Termivar.Planner.Model

namespace Termivar

open Wire

/-- The errors of a payload strategy reference. -/
inductive PayloadStrategyError where
  | emptyStrategyId
  | strategyIdTooLong (actual maximum : Nat)
  | invalidStrategyId
  | zeroRevision
  deriving DecidableEq

/-- Why a policy is not read. -/
inductive PolicyWireError where
  | wire (failure : WireError)
  | custom (message : String)
  | strategy (failure : PayloadStrategyError)
  | verification (failure : VerificationError)
  | planner (failure : PlannerError)
  | adaptive (failure : AdaptivePipelineError)
  deriving DecidableEq

namespace Wire

variable {α : Type}

/-- A reader of rules used for policies. -/
def policy (read : Data → Except WireError α) (data : Data) : Except PolicyWireError α :=
  (read data).mapError .wire

/-- An `Option` of a policy, absent where the value is null. -/
def readPolicy (read : Data → Except PolicyWireError α) :
    Data → Except PolicyWireError (Option α)
  | .null => .ok none
  | data => some <$> read data

/-- The value of a field of a policy that must be there. -/
def requirePolicy (name : String) (slot : Option α) : Except PolicyWireError α :=
  okOr slot (.wire (.missingField name))

def readU16 (data : Data) : Except WireError { n : Nat // n ≤ u16Max } := do
  let value ← readUnsigned u16Max data
  if h : value ≤ u16Max then return ⟨value, h⟩ else throw .invalidValue

/-- Whether one of the fields passed over has a reserved name. -/
def reserved (prefixes : List String) (extensions : List String) : Bool :=
  extensions.any fun name => prefixes.any fun start => start.toList.isPrefixOf name.toList

end Wire

/-! ### Payload strategies -/

inductive StrategyField where
  | id
  | revision
  deriving DecidableEq

def StrategyField.Slot : StrategyField → Type
  | .id => String
  | .revision => Nat

def strategySchema : Record.Schema StrategyField Data PolicyWireError StrategyField.Slot where
  fields := [.id, .revision]
  name
    | .id => "id"
    | .revision => "revision"
  read
    | .id => policy readText
    | .revision => policy (readUnsigned u32Max)
  duplicate := fun name => .wire (.duplicateField name)
  unknown := some fun name => .wire (.unknownField name)
  nodup := by decide
  named := by decide

namespace PayloadStrategyRef

/-- `PayloadStrategyRef::new`. -/
def new (id : String) (revision : Nat) (bounded : revision ≤ u32Max) :
    Except PayloadStrategyError PayloadStrategyRef :=
  if notBlank : isBlank id = false then
    if short : id.utf8ByteSize ≤ hardMaxPayloadStrategyIdBytes then
      if valid : identityBytes id = true then
        if positive : revision ≠ 0 then
          .ok { id, revision, notBlank, short, valid, positive, bounded }
        else .error .zeroRevision
      else .error .invalidStrategyId
    else .error (.strategyIdTooLong id.utf8ByteSize hardMaxPayloadStrategyIdBytes)
  else .error .emptyStrategyId

def rawFields (strategy : PayloadStrategyRef) : StrategyField → Option Data
  | .id => some (.text strategy.id)
  | .revision => some (writeUnsigned strategy.revision)

def serialize (strategy : PayloadStrategyRef) : Data :=
  .map (Record.encode strategySchema.fields strategySchema.name strategy.rawFields)

def ofSlots (slots : Record.Slots StrategyField.Slot) : Except PolicyWireError PayloadStrategyRef := do
  let id ← requirePolicy "id" (slots .id)
  let revision : Nat ← requirePolicy "revision" (slots .revision)
  if bounded : revision ≤ u32Max then (new id revision bounded).mapError .strategy
  else throw (.wire .invalidValue)

def deserialize : Data → Except PolicyWireError PayloadStrategyRef
  | .map entries => do ofSlots (← strategySchema.collect entries)
  | _ => .error (.wire .invalidType)

end PayloadStrategyRef

/-! ### Verification cases -/

namespace VerificationCase

/-- `VerificationCase::new`. -/
def new (id : String) (subject : EntityId) (actionId hypothesisId : String) :
    Except VerificationError VerificationCase :=
  if id_notBlank : isBlank id = false then
    if actionId_notBlank : isBlank actionId = false then
      if hypothesisId_notBlank : isBlank hypothesisId = false then
        .ok { id, subject, actionId, hypothesisId, id_notBlank, actionId_notBlank
              hypothesisId_notBlank }
      else .error (.emptyValue "verification hypothesis id")
    else .error (.emptyValue "verification action id")
  else .error (.emptyValue "verification case id")

variable (case : VerificationCase)

/-- Attaches the exact planner-selected strategy revision to this case. -/
def withPayloadStrategy (strategy : Option PayloadStrategyRef) :
    VerificationCase :=
  { case with payloadStrategy := strategy }

/-- Marks this case knowledge-only. -/
def withoutHypothesisTransition : VerificationCase :=
  { case with appliesHypothesisTransition := false }

/-- The guard of a case is set where the case is knowledge-only. -/
def claimPolicyGuard : Bool := !case.appliesHypothesisTransition

end VerificationCase

inductive CaseField where
  | id
  | subject
  | actionId
  | hypothesisId
  | payloadStrategy
  | appliesHypothesisTransition
  | payloadClaimPolicyGuard
  deriving DecidableEq

def CaseField.Slot : CaseField → Type
  | .id | .actionId | .hypothesisId => String
  | .subject => EntityId
  | .payloadStrategy => Option PayloadStrategyRef
  | .appliesHypothesisTransition | .payloadClaimPolicyGuard => Bool

def caseSchema : Record.Schema CaseField Data PolicyWireError CaseField.Slot where
  fields := [.id, .subject, .actionId, .hypothesisId, .payloadStrategy,
    .appliesHypothesisTransition, .payloadClaimPolicyGuard]
  name
    | .id => "id"
    | .subject => "subject"
    | .actionId => "action_id"
    | .hypothesisId => "hypothesis_id"
    | .payloadStrategy => "payload_strategy"
    | .appliesHypothesisTransition => "applies_hypothesis_transition"
    | .payloadClaimPolicyGuard => "payload_claim_policy_guard"
  read
    | .id => policy readText
    | .subject => policy readEntityId
    | .actionId => policy readText
    | .hypothesisId => policy readText
    | .payloadStrategy => readPolicy PayloadStrategyRef.deserialize
    | .appliesHypothesisTransition => policy readBool
    | .payloadClaimPolicyGuard => policy readBool
  duplicate := fun name => .wire (.duplicateField name)
  unknown := none
  nodup := by decide
  named := by decide

namespace VerificationCase

def rawFields (case : VerificationCase) : CaseField → Option Data
  | .id => some (.text case.id)
  | .subject => some (.text case.subject.value)
  | .actionId => some (.text case.actionId)
  | .hypothesisId => some (.text case.hypothesisId)
  | .payloadStrategy => case.payloadStrategy.map PayloadStrategyRef.serialize
  | .appliesHypothesisTransition =>
    if !case.appliesHypothesisTransition then some (.bool case.appliesHypothesisTransition) else none
  | .payloadClaimPolicyGuard =>
    if case.claimPolicyGuard then some (.bool case.claimPolicyGuard) else none

def serialize (case : VerificationCase) : Data :=
  .map (Record.encode caseSchema.fields caseSchema.name case.rawFields)

/-- The checks on the fields of a case, and on the names passed over. -/
def ofWire (id : String) (subject : EntityId) (actionId hypothesisId : String)
    (payloadStrategy : Option PayloadStrategyRef) (appliesHypothesisTransition guard : Bool)
    (extensions : List String) : Except PolicyWireError VerificationCase := do
  if reserved ["payload_", "applies_hypothesis_", "verification_"] extensions then
    throw (.custom "unknown reserved verification case field")
  if guard = appliesHypothesisTransition then
    throw (.custom "verification case compatibility guard is missing or inconsistent")
  let case ← (new id subject actionId hypothesisId).mapError .verification
  let case := case.withPayloadStrategy payloadStrategy
  return if appliesHypothesisTransition then case else case.withoutHypothesisTransition

def ofSlots (extensions : List String) (slots : Record.Slots CaseField.Slot) :
    Except PolicyWireError VerificationCase := do
  let id ← requirePolicy "id" (slots .id)
  let subject ← requirePolicy "subject" (slots .subject)
  let actionId ← requirePolicy "action_id" (slots .actionId)
  let hypothesisId ← requirePolicy "hypothesis_id" (slots .hypothesisId)
  let payloadStrategy : Option PayloadStrategyRef := (slots .payloadStrategy).getD none
  let applies : Bool := (slots .appliesHypothesisTransition).getD true
  let guard : Bool := (slots .payloadClaimPolicyGuard).getD false
  ofWire id subject actionId hypothesisId payloadStrategy applies guard extensions

def deserialize : Data → Except PolicyWireError VerificationCase
  | .map entries => do ofSlots (caseSchema.extensions entries) (← caseSchema.collect entries)
  | _ => .error (.wire .invalidType)

end VerificationCase

/-! ### Verification rules -/

inductive VerificationScopeGuard where
  | action
  | case
  | actionAndCase
  deriving DecidableEq

namespace VerificationScopeGuard

def forScope (actionId : Option String) (caseCorrelatedEvidence : Bool) :
    Option VerificationScopeGuard :=
  match actionId.isSome, caseCorrelatedEvidence with
  | true, false => some .action
  | false, true => some .case
  | true, true => some .actionAndCase
  | false, false => none

def wireName : VerificationScopeGuard → String
  | .action => "action"
  | .case => "case"
  | .actionAndCase => "action_and_case"

def deserialize : Data → Except WireError VerificationScopeGuard :=
  readVariant [.action, .case, .actionAndCase] wireName

end VerificationScopeGuard

inductive VerificationRuleField where
  | id
  | stage
  | priority
  | condition
  | outcome
  | confidence
  | rationale
  | actionId
  | caseCorrelatedEvidence
  | verificationScopeGuard
  deriving DecidableEq

def VerificationRuleField.Slot : VerificationRuleField → Type
  | .id | .rationale => String
  | .stage => VerificationStage
  | .priority => Nat
  | .condition => Expression
  | .outcome => OutcomeStatus
  | .confidence => Probability
  | .actionId => Option String
  | .caseCorrelatedEvidence => Bool
  | .verificationScopeGuard => Option VerificationScopeGuard

def verificationRuleSchema :
    Record.Schema VerificationRuleField Data PolicyWireError VerificationRuleField.Slot where
  fields := [.id, .stage, .priority, .condition, .outcome, .confidence, .rationale, .actionId,
    .caseCorrelatedEvidence, .verificationScopeGuard]
  name
    | .id => "id"
    | .stage => "stage"
    | .priority => "priority"
    | .condition => "condition"
    | .outcome => "outcome"
    | .confidence => "confidence"
    | .rationale => "rationale"
    | .actionId => "action_id"
    | .caseCorrelatedEvidence => "case_correlated_evidence"
    | .verificationScopeGuard => "verification_scope_guard"
  read
    | .id => policy readText
    | .stage => policy VerificationStage.deserialize
    | .priority => policy (readUnsigned u16Max)
    | .condition => policy Expression.deserialize
    | .outcome => policy OutcomeStatus.deserialize
    | .confidence => policy readProbability
    | .rationale => policy readText
    | .actionId => policy (readNullable readText)
    | .caseCorrelatedEvidence => policy readBool
    | .verificationScopeGuard => policy (readNullable VerificationScopeGuard.deserialize)
  duplicate := fun name => .wire (.duplicateField name)
  unknown := some fun name => .wire (.unknownField name)
  nodup := by decide
  named := by decide

namespace VerificationRule

variable (rule : VerificationRule)

/-- `refresh_scope_guard` keeps the guard in step with the scope. -/
def scopeGuard : Option VerificationScopeGuard :=
  VerificationScopeGuard.forScope rule.actionId rule.caseCorrelatedEvidence

def rawFields : VerificationRuleField → Option Data
  | .id => some (.text rule.id)
  | .stage => some (.text rule.stage.asStr)
  | .priority => some (writeUnsigned rule.priority)
  | .condition => some rule.condition.serialize
  | .outcome => some (.text rule.outcome.wireName)
  | .confidence => some rule.confidence.serialize
  | .rationale => some (.text rule.rationale)
  | .actionId => rule.actionId.map Data.text
  | .caseCorrelatedEvidence =>
    if rule.caseCorrelatedEvidence then some (.bool rule.caseCorrelatedEvidence) else none
  | .verificationScopeGuard => rule.scopeGuard.map fun guard => .text guard.wireName

def serialize : Data :=
  .map (Record.encode verificationRuleSchema.fields verificationRuleSchema.name rule.rawFields)

/-- The check of the guard, and the rule built again with its scope. -/
def ofWire (id : String) (stage : VerificationStage) (priority : Nat) (condition : Expression)
    (outcome : OutcomeStatus) (confidence : Probability) (rationale : String)
    (actionId : Option String) (caseCorrelatedEvidence : Bool)
    (guard : Option VerificationScopeGuard) : Except PolicyWireError VerificationRule := do
  if guard.isSome ∧ guard ≠ VerificationScopeGuard.forScope actionId caseCorrelatedEvidence then
    throw (.custom "verification rule scope guard is inconsistent")
  let rule ← (new id stage priority condition outcome confidence rationale).mapError .verification
  let rule ← match actionId with
    | some actionId => (rule.scopedToAction actionId).mapError .verification
    | none => .ok rule
  if caseCorrelatedEvidence then rule.withCaseCorrelatedEvidence.mapError .verification
  else return rule

def ofSlots (slots : Record.Slots VerificationRuleField.Slot) :
    Except PolicyWireError VerificationRule := do
  let id ← requirePolicy "id" (slots .id)
  let stage ← requirePolicy "stage" (slots .stage)
  let priority ← requirePolicy "priority" (slots .priority)
  let condition ← requirePolicy "condition" (slots .condition)
  let outcome ← requirePolicy "outcome" (slots .outcome)
  let confidence ← requirePolicy "confidence" (slots .confidence)
  let rationale ← requirePolicy "rationale" (slots .rationale)
  let actionId : Option String := (slots .actionId).getD none
  let correlated : Bool := (slots .caseCorrelatedEvidence).getD false
  let guard : Option VerificationScopeGuard := (slots .verificationScopeGuard).getD none
  ofWire id stage priority condition outcome confidence rationale actionId correlated guard

def deserialize : Data → Except PolicyWireError VerificationRule
  | .map entries => do ofSlots (← verificationRuleSchema.collect entries)
  | _ => .error (.wire .invalidType)

end VerificationRule

/-! ### Actions -/

def readBenefitScore (data : Data) : Except PolicyWireError BenefitScore := do
  let value ← policy (readUnsigned u16Max) data
  if inRange : value ≤ maxBasisPoints then return ⟨value, inRange⟩
  else throw (.planner (.benefitOutOfRange value))

def readRiskScore (data : Data) : Except PolicyWireError RiskScore := do
  let value ← policy (readUnsigned u16Max) data
  if h : 0 < value ∧ value ≤ maxBasisPoints then return ⟨value, h.1, h.2⟩
  else throw (.planner (.riskOutOfRange value))

def readActionCost (data : Data) : Except PolicyWireError ActionCost := do
  let value ← policy (readUnsigned u32Max) data
  if bounded : value ≤ u32Max then
    if positive : 0 < value then return ⟨value, positive, bounded⟩
    else throw (.planner .zeroCost)
  else throw (.wire .invalidValue)

def RequiredStrength.wireName : RequiredStrength → String
  | .any => "any"
  | .strong => "strong"

def RequiredStrength.deserialize : Data → Except WireError RequiredStrength :=
  readVariant [.any, .strong] RequiredStrength.wireName

inductive HypothesisSelectorField where
  | predicate
  | value
  | minimumPosterior
  | requiredStrength
  deriving DecidableEq

def HypothesisSelectorField.Slot : HypothesisSelectorField → Type
  | .predicate => KnowledgePredicate
  | .value => EvidenceValue
  | .minimumPosterior => Probability
  | .requiredStrength => RequiredStrength

def hypothesisSelectorSchema :
    Record.Schema HypothesisSelectorField Data PolicyWireError HypothesisSelectorField.Slot where
  fields := [.predicate, .value, .minimumPosterior, .requiredStrength]
  name
    | .predicate => "predicate"
    | .value => "value"
    | .minimumPosterior => "minimum_posterior"
    | .requiredStrength => "required_strength"
  read
    | .predicate => policy KnowledgePredicate.deserialize
    | .value => policy EvidenceValue.deserialize
    | .minimumPosterior => policy readProbability
    | .requiredStrength => policy RequiredStrength.deserialize
  duplicate := fun name => .wire (.duplicateField name)
  unknown := none
  nodup := by decide
  named := by decide

namespace HypothesisSelector

def rawFields (selector : HypothesisSelector) : HypothesisSelectorField → Option Data
  | .predicate => some selector.predicate.serialize
  | .value => some selector.value.serialize
  | .minimumPosterior => some selector.minimumPosterior.serialize
  | .requiredStrength => some (.text selector.requiredStrength.wireName)

def serialize (selector : HypothesisSelector) : Data :=
  .map (Record.encode hypothesisSelectorSchema.fields hypothesisSelectorSchema.name
    selector.rawFields)

def ofSlots (slots : Record.Slots HypothesisSelectorField.Slot) :
    Except PolicyWireError HypothesisSelector := do
  let predicate ← requirePolicy "predicate" (slots .predicate)
  let value ← requirePolicy "value" (slots .value)
  let minimumPosterior ← requirePolicy "minimum_posterior" (slots .minimumPosterior)
  let requiredStrength ← requirePolicy "required_strength" (slots .requiredStrength)
  return { predicate, value, minimumPosterior, requiredStrength }

def deserialize : Data → Except PolicyWireError HypothesisSelector
  | .map entries => do ofSlots (← hypothesisSelectorSchema.collect entries)
  | _ => .error (.wire .invalidType)

end HypothesisSelector

namespace VerificationTarget

def isMotivation : VerificationTarget → Bool
  | .motivation => true
  | _ => false

def serialize : VerificationTarget → Data
  | .motivation => .text "motivation"
  | .distinct selector => .map [("distinct", selector.serialize)]
  | .knowledgeOnly => .text "knowledge_only"

/-- A variant by its name, with its content where it has one. -/
def deserialize : Data → Except PolicyWireError VerificationTarget
  | .text "motivation" => .ok .motivation
  | .text "knowledge_only" => .ok .knowledgeOnly
  | .map [("motivation", .null)] => .ok .motivation
  | .map [("knowledge_only", .null)] => .ok .knowledgeOnly
  | .map [("distinct", content)] => .distinct <$> HypothesisSelector.deserialize content
  | _ => .error (.wire .invalidType)

end VerificationTarget

namespace AttackAction

/-- The check of the prerequisites, in their order. -/
def checkPrerequisites (id : String) : List String → Except PlannerError Unit
  | [] => .ok ()
  | prerequisite :: rest =>
    if isBlank prerequisite then .error (.emptyValue "action prerequisite")
    else if prerequisite = id then .error (.selfDependency id)
    else checkPrerequisites id rest

theorem checkPrerequisites_eq_ok {id : String} : ∀ {prerequisites : List String},
    checkPrerequisites id prerequisites = .ok () ↔
      ∀ prerequisite ∈ prerequisites, isBlank prerequisite = false ∧ prerequisite ≠ id
  | [] => by simp [checkPrerequisites]
  | prerequisite :: rest => by
    rw [checkPrerequisites, List.forall_mem_cons, ← @checkPrerequisites_eq_ok id rest]
    split_ifs with hblk hself
    · simp [hblk]
    · simp [hself]
    · simp [hblk, hself]

/-- `AttackAction::new`. -/
def new (id executor : String) (requirements : Expression) (confidenceSource : HypothesisSelector)
    (gain : BenefitScore) (cost : ActionCost) (risk : RiskScore) (prerequisites : BTreeSet String) :
    Except PlannerError AttackAction :=
  if idNotBlank : isBlank id = false then
    if executorNotBlank : isBlank executor = false then
      match hchecked : checkPrerequisites id prerequisites.toList with
      | .error failure => .error failure
      | .ok () =>
        .ok { id, executor, payloadStrategy := none, requirements, confidenceSource, gain, cost, risk
              prerequisites, verificationTarget := .motivation, idNotBlank, executorNotBlank
              prerequisitesValid := fun prerequisite hmem =>
                checkPrerequisites_eq_ok.mp hchecked prerequisite
                  (Std.ExtTreeSet.mem_toList.mpr hmem) }
    else .error (.emptyValue "action executor")
  else .error (.emptyValue "action id")

/-- Sets what a conclusive outcome may transition. -/
def withVerificationTarget (action : AttackAction) (target : VerificationTarget) : AttackAction :=
  { action with verificationTarget := target }

/-- Selects a versioned payload strategy. -/
def withPayloadStrategy (action : AttackAction) (strategy : PayloadStrategyRef) : AttackAction :=
  { action with payloadStrategy := some strategy }

/-- The guard of an action is set where its target is not the motivation. -/
def claimPolicyGuard (action : AttackAction) : Bool := !action.verificationTarget.isMotivation

end AttackAction

inductive ActionField where
  | id
  | executor
  | payloadStrategy
  | requirements
  | confidenceSource
  | gain
  | cost
  | risk
  | prerequisites
  | verificationTarget
  | payloadClaimPolicyGuard
  deriving DecidableEq

def ActionField.Slot : ActionField → Type
  | .id | .executor => String
  | .payloadStrategy => Option PayloadStrategyRef
  | .requirements => Expression
  | .confidenceSource => HypothesisSelector
  | .gain => BenefitScore
  | .cost => ActionCost
  | .risk => RiskScore
  | .prerequisites => BTreeSet String
  | .verificationTarget => VerificationTarget
  | .payloadClaimPolicyGuard => Bool

def actionSchema : Record.Schema ActionField Data PolicyWireError ActionField.Slot where
  fields := [.id, .executor, .payloadStrategy, .requirements, .confidenceSource, .gain, .cost, .risk,
    .prerequisites, .verificationTarget, .payloadClaimPolicyGuard]
  name
    | .id => "id"
    | .executor => "executor"
    | .payloadStrategy => "payload_strategy"
    | .requirements => "requirements"
    | .confidenceSource => "confidence_source"
    | .gain => "gain"
    | .cost => "cost"
    | .risk => "risk"
    | .prerequisites => "prerequisites"
    | .verificationTarget => "verification_target"
    | .payloadClaimPolicyGuard => "payload_claim_policy_guard"
  read
    | .id => policy readText
    | .executor => policy readText
    | .payloadStrategy => readPolicy PayloadStrategyRef.deserialize
    | .requirements => policy Expression.deserialize
    | .confidenceSource => HypothesisSelector.deserialize
    | .gain => readBenefitScore
    | .cost => readActionCost
    | .risk => readRiskScore
    | .prerequisites => policy (readSet readText)
    | .verificationTarget => VerificationTarget.deserialize
    | .payloadClaimPolicyGuard => policy readBool
  duplicate := fun name => .wire (.duplicateField name)
  unknown := none
  nodup := by decide
  named := by decide

namespace AttackAction

def rawFields (action : AttackAction) : ActionField → Option Data
  | .id => some (.text action.id)
  | .executor => some (.text action.executor)
  | .payloadStrategy => action.payloadStrategy.map PayloadStrategyRef.serialize
  | .requirements => some action.requirements.serialize
  | .confidenceSource => some action.confidenceSource.serialize
  | .gain => some (writeUnsigned action.gain.basisPoints)
  | .cost => some (writeUnsigned action.cost.units)
  | .risk => some (writeUnsigned action.risk.basisPoints)
  | .prerequisites => some (writeSet .text action.prerequisites)
  | .verificationTarget =>
    if action.verificationTarget.isMotivation then none
    else some action.verificationTarget.serialize
  | .payloadClaimPolicyGuard =>
    if action.claimPolicyGuard then some (.bool action.claimPolicyGuard) else none

def serialize (action : AttackAction) : Data :=
  .map (Record.encode actionSchema.fields actionSchema.name action.rawFields)

/-- The checks on the fields of an action, and on the names passed over. -/
def ofWire (id executor : String) (payloadStrategy : Option PayloadStrategyRef)
    (requirements : Expression) (confidenceSource : HypothesisSelector) (gain : BenefitScore)
    (cost : ActionCost) (risk : RiskScore) (prerequisites : BTreeSet String)
    (target : VerificationTarget) (guard : Bool) (extensions : List String) :
    Except PolicyWireError AttackAction := do
  if reserved ["payload_", "verification_"] extensions then
    throw (.custom "unknown reserved action field")
  if guard = target.isMotivation then
    throw (.custom "verification target compatibility guard is missing or inconsistent")
  let action ← (new id executor requirements confidenceSource gain cost risk
    prerequisites).mapError .planner
  let action := action.withVerificationTarget target
  return match payloadStrategy with
  | some strategy => action.withPayloadStrategy strategy
  | none => action

def ofSlots (extensions : List String) (slots : Record.Slots ActionField.Slot) :
    Except PolicyWireError AttackAction := do
  let id ← requirePolicy "id" (slots .id)
  let executor ← requirePolicy "executor" (slots .executor)
  let payloadStrategy : Option PayloadStrategyRef := (slots .payloadStrategy).getD none
  let requirements ← requirePolicy "requirements" (slots .requirements)
  let confidenceSource ← requirePolicy "confidence_source" (slots .confidenceSource)
  let gain ← requirePolicy "gain" (slots .gain)
  let cost ← requirePolicy "cost" (slots .cost)
  let risk ← requirePolicy "risk" (slots .risk)
  let prerequisites ← requirePolicy "prerequisites" (slots .prerequisites)
  let target : VerificationTarget := (slots .verificationTarget).getD .motivation
  let guard : Bool := (slots .payloadClaimPolicyGuard).getD false
  ofWire id executor payloadStrategy requirements confidenceSource gain cost risk prerequisites
    target guard extensions

def deserialize : Data → Except PolicyWireError AttackAction
  | .map entries => do ofSlots (actionSchema.extensions entries) (← actionSchema.collect entries)
  | _ => .error (.wire .invalidType)

end AttackAction

/-! ### Directives -/

/-- The tag of a directive. -/
inductive DirectiveTag where
  | complete
  | scheduleAction
  | replan
  | throttle
  | awaitActiveVerification
  | awaitHumanReview
  | halt
  deriving DecidableEq

namespace DirectiveTag

def wireName : DirectiveTag → String
  | .complete => "complete"
  | .scheduleAction => "schedule_action"
  | .replan => "replan"
  | .throttle => "throttle"
  | .awaitActiveVerification => "await_active_verification"
  | .awaitHumanReview => "await_human_review"
  | .halt => "halt"

def deserialize : Data → Except WireError DirectiveTag :=
  readVariant [.complete, .scheduleAction, .replan, .throttle, .awaitActiveVerification,
    .awaitHumanReview, .halt] wireName

end DirectiveTag

inductive DirectiveField where
  | actionId
  | suppressCurrentAction
  | delayMs
  | retryCurrentAction
  deriving DecidableEq

def DirectiveField.Slot : DirectiveField → Type
  | .actionId => String
  | .suppressCurrentAction | .retryCurrentAction => Bool
  | .delayMs => UInt64

def DirectiveTag.fields : DirectiveTag → List DirectiveField
  | .scheduleAction => [.actionId]
  | .replan => [.suppressCurrentAction]
  | .throttle => [.delayMs, .retryCurrentAction]
  | _ => []

def DirectiveField.name : DirectiveField → String
  | .actionId => "action_id"
  | .suppressCurrentAction => "suppress_current_action"
  | .delayMs => "delay_ms"
  | .retryCurrentAction => "retry_current_action"

def directiveSchema (tag : DirectiveTag) :
    Record.Schema DirectiveField Data PolicyWireError DirectiveField.Slot where
  fields := tag.fields
  name := DirectiveField.name
  read
    | .actionId => policy readText
    | .suppressCurrentAction => policy readBool
    | .delayMs => fun data => UInt64.ofNat <$> policy (readUnsigned u64Max) data
    | .retryCurrentAction => policy readBool
  duplicate := fun name => .wire (.duplicateField name)
  unknown := some fun name => .wire (.unknownField name)
  nodup := by cases tag <;> decide
  named := by cases tag <;> decide

namespace PipelineDirective

def tag : PipelineDirective → DirectiveTag
  | .complete => .complete
  | .scheduleAction _ => .scheduleAction
  | .replan _ => .replan
  | .throttle _ _ => .throttle
  | .awaitActiveVerification => .awaitActiveVerification
  | .awaitHumanReview => .awaitHumanReview
  | .halt => .halt

def rawFields : PipelineDirective → DirectiveField → Option Data
  | .scheduleAction actionId, .actionId => some (.text actionId)
  | .replan suppress, .suppressCurrentAction => some (.bool suppress)
  | .throttle delayMs _, .delayMs => some (writeUnsigned delayMs.toNat)
  | .throttle _ retry, .retryCurrentAction => some (.bool retry)
  | _, _ => none

def serialize (directive : PipelineDirective) : Data :=
  .map (("directive", .text directive.tag.wireName) ::
    Record.encode directive.tag.fields DirectiveField.name directive.rawFields)

def ofSlots (tag : DirectiveTag) (slots : Record.Slots DirectiveField.Slot) :
    Except PolicyWireError PipelineDirective :=
  match tag with
  | .complete => .ok .complete
  | .scheduleAction => do
    return .scheduleAction (← requirePolicy "action_id" (slots .actionId))
  | .replan => do
    return .replan (← requirePolicy "suppress_current_action" (slots .suppressCurrentAction))
  | .throttle => do
    let delayMs ← requirePolicy "delay_ms" (slots .delayMs)
    let retry ← requirePolicy "retry_current_action" (slots .retryCurrentAction)
    return .throttle delayMs retry
  | .awaitActiveVerification => .ok .awaitActiveVerification
  | .awaitHumanReview => .ok .awaitHumanReview
  | .halt => .ok .halt

def deserialize : Data → Except PolicyWireError PipelineDirective
  | .map entries => do
    let (tag, content) ← Record.takeTag "directive" (policy DirectiveTag.deserialize)
      (.wire (.duplicateField "directive")) (.wire (.missingField "directive")) entries
    let directive ← ofSlots tag (← (directiveSchema tag).collect content)
    directive.validate.mapError .adaptive
    return directive
  | _ => .error (.wire .invalidType)

end PipelineDirective

/-! ### Adaptation rules -/

inductive OutcomeSelectorField where
  | statuses
  | stages
  deriving DecidableEq

def OutcomeSelectorField.Slot : OutcomeSelectorField → Type
  | .statuses => BTreeSet OutcomeStatus
  | .stages => BTreeSet VerificationStage

def outcomeSelectorSchema :
    Record.Schema OutcomeSelectorField Data PolicyWireError OutcomeSelectorField.Slot where
  fields := [.statuses, .stages]
  name
    | .statuses => "statuses"
    | .stages => "stages"
  read
    | .statuses => policy (readSet OutcomeStatus.deserialize)
    | .stages => policy (readSet VerificationStage.deserialize)
  duplicate := fun name => .wire (.duplicateField name)
  unknown := some fun name => .wire (.unknownField name)
  nodup := by decide
  named := by decide

namespace OutcomeSelector

def rawFields (selector : OutcomeSelector) : OutcomeSelectorField → Option Data
  | .statuses => some (writeSet (fun status => .text status.wireName) selector.statuses)
  | .stages => some (writeSet (fun stage => .text stage.asStr) selector.stages)

def serialize (selector : OutcomeSelector) : Data :=
  .map (Record.encode outcomeSelectorSchema.fields outcomeSelectorSchema.name selector.rawFields)

def ofSlots (slots : Record.Slots OutcomeSelectorField.Slot) :
    Except PolicyWireError OutcomeSelector := do
  let statuses ← requirePolicy "statuses" (slots .statuses)
  let stages ← requirePolicy "stages" (slots .stages)
  (new statuses stages).mapError .adaptive

def deserialize : Data → Except PolicyWireError OutcomeSelector
  | .map entries => do ofSlots (← outcomeSelectorSchema.collect entries)
  | _ => .error (.wire .invalidType)

end OutcomeSelector

inductive AdaptationRuleField where
  | id
  | selector
  | priority
  | condition
  | conditionPolicyGuard
  | directive
  | rationale
  | maxApplications
  deriving DecidableEq

def AdaptationRuleField.Slot : AdaptationRuleField → Type
  | .id | .rationale => String
  | .selector => OutcomeSelector
  | .priority | .maxApplications => { n : Nat // n ≤ u16Max }
  | .condition => Option Expression
  | .conditionPolicyGuard => Option Bool
  | .directive => PipelineDirective

def adaptationRuleSchema :
    Record.Schema AdaptationRuleField Data PolicyWireError AdaptationRuleField.Slot where
  fields := [.id, .selector, .priority, .condition, .conditionPolicyGuard, .directive, .rationale,
    .maxApplications]
  name
    | .id => "id"
    | .selector => "selector"
    | .priority => "priority"
    | .condition => "condition"
    | .conditionPolicyGuard => "condition_policy_guard"
    | .directive => "directive"
    | .rationale => "rationale"
    | .maxApplications => "max_applications"
  read
    | .id => policy readText
    | .selector => OutcomeSelector.deserialize
    | .priority => policy readU16
    | .condition => policy (readNullable Expression.deserialize)
    | .conditionPolicyGuard => policy (readNullable readBool)
    | .directive => PipelineDirective.deserialize
    | .rationale => policy readText
    | .maxApplications => policy readU16
  duplicate := fun name => .wire (.duplicateField name)
  unknown := some fun name => .wire (.unknownField name)
  nodup := by decide
  named := by decide

namespace AdaptationRule

variable (rule : AdaptationRule)

/-- The guard of a rule is set where the rule has a condition. -/
def conditionPolicyGuard : Bool := rule.condition.isSome

def rawFields : AdaptationRuleField → Option Data
  | .id => some (.text rule.id)
  | .selector => some rule.selector.serialize
  | .priority => some (writeUnsigned rule.priority)
  | .condition => some (writeNullable Expression.serialize rule.condition)
  | .conditionPolicyGuard =>
    if rule.conditionPolicyGuard then some (.bool rule.conditionPolicyGuard) else none
  | .directive => some rule.directive.serialize
  | .rationale => some (.text rule.rationale)
  | .maxApplications => some (writeUnsigned rule.maxApplications)

def serialize : Data :=
  .map (Record.encode adaptationRuleSchema.fields adaptationRuleSchema.name rule.rawFields)

def ofWire (id : String) (selector : OutcomeSelector) (priority : { n : Nat // n ≤ u16Max })
    (condition : Option Expression) (guard : Option Bool) (directive : PipelineDirective)
    (rationale : String) (maxApplications : { n : Nat // n ≤ u16Max }) :
    Except PolicyWireError AdaptationRule := do
  if guard.any fun guard => !guard || condition.isNone then
    throw (.custom "adaptation rule condition guard is inconsistent")
  (new id selector priority condition directive rationale maxApplications).mapError .adaptive

/-- A missing condition is read as none: the wrapper of the condition is
transparent, and an `Option` field may be absent. -/
def ofSlots (slots : Record.Slots AdaptationRuleField.Slot) :
    Except PolicyWireError AdaptationRule := do
  let id ← requirePolicy "id" (slots .id)
  let selector ← requirePolicy "selector" (slots .selector)
  let priority ← requirePolicy "priority" (slots .priority)
  let condition : Option Expression := (slots .condition).getD none
  let guard : Option Bool := (slots .conditionPolicyGuard).getD none
  let directive ← requirePolicy "directive" (slots .directive)
  let rationale ← requirePolicy "rationale" (slots .rationale)
  let maxApplications ← requirePolicy "max_applications" (slots .maxApplications)
  ofWire id selector priority condition guard directive rationale maxApplications

def deserialize : Data → Except PolicyWireError AdaptationRule
  | .map entries => do ofSlots (← adaptationRuleSchema.collect entries)
  | _ => .error (.wire .invalidType)

end AdaptationRule

end Termivar
