/-
# The wire form of experience

What an outcome, a record and a store are written as, and how they are read: an
outcome is built again by its constructor, a record must carry a disposition
its outcome accepts, and a store is replayed record by record.
-/
import Termivar.Adaptive.Ledger
import Termivar.Experience.Store

namespace Termivar

open Wire Checked

/-- Why a record of experience is not read. -/
inductive ExperienceWireError where
  | wire (failure : WireError)
  | outcome (failure : OutcomeError)
  | custom (message : String)
  | store (failure : ExperienceStoreError)

namespace Wire

/-- A reader of rules used for experience. -/
def lift {α : Type} (read : Data → Except WireError α) (data : Data) : Except ExperienceWireError α :=
  (read data).mapError .wire

theorem lift_eq_ok {α : Type} {read : Data → Except WireError α} {data : Data} {value : α}
    (h : read data = .ok value) : lift read data = .ok value := by
  rw [lift, h]
  rfl

def readEntityId (data : Data) : Except WireError EntityId := do
  let value ← readText data
  if h : isBlank value = false then return ⟨value, h⟩
  else throw (.reasoning (.emptyValue "entity id"))

def readEvidenceId (data : Data) : Except WireError EvidenceId :=
  (deserializeEvidenceId data).mapError .decode

theorem readEntityId_text (id : EntityId) : readEntityId (.text id.value) = .ok id := by
  obtain ⟨value, hvalue⟩ := id
  simp [readEntityId, readText, hvalue, bind, Except.bind, pure, Except.pure]

theorem readEvidenceId_text (id : EvidenceId) : readEvidenceId (.text id.value) = .ok id := by
  obtain ⟨value, hvalue⟩ := id
  simp [readEvidenceId, deserializeEvidenceId, deserializeNonEmpty, hvalue, bind, Except.bind, pure,
    Except.pure, Except.mapError]

end Wire

def VerificationStage.deserialize : Data → Except WireError VerificationStage :=
  readVariant [.passive, .active] VerificationStage.asStr

def OutcomeStatus.wireName : OutcomeStatus → String
  | .success => "success"
  | .blocked => "blocked"
  | .unknown => "unknown"
  | .falsePositive => "false_positive"
  | .needsReview => "needs_review"
  | .confirmedNegative => "confirmed_negative"

def OutcomeStatus.deserialize : Data → Except WireError OutcomeStatus :=
  readVariant [.success, .blocked, .unknown, .falsePositive, .needsReview, .confirmedNegative]
    OutcomeStatus.wireName

def ExperienceDisposition.wireName : ExperienceDisposition → String
  | .confirmedPositive => "confirmed_positive"
  | .notApplicable => "not_applicable"
  | .blockedByTarget => "blocked_by_target"
  | .blockedByPolicy => "blocked_by_policy"
  | .transportFailure => "transport_failure"
  | .executorFailure => "executor_failure"
  | .verificationRejected => "verification_rejected"
  | .verificationInconclusive => "verification_inconclusive"
  | .confirmedNegative => "confirmed_negative"

def ExperienceDisposition.deserialize : Data → Except WireError ExperienceDisposition :=
  readVariant [.confirmedPositive, .notApplicable, .blockedByTarget, .blockedByPolicy,
    .transportFailure, .executorFailure, .verificationRejected, .verificationInconclusive,
    .confirmedNegative] ExperienceDisposition.wireName

/-! ### Outcomes -/

inductive OutcomeField where
  | caseId
  | subject
  | actionId
  | hypothesisId
  | verifierRuleId
  | stage
  | status
  | confidence
  | rationale
  | evidenceIds
  deriving DecidableEq

def OutcomeField.Slot : OutcomeField → Type
  | .caseId | .actionId | .hypothesisId | .rationale => String
  | .subject => EntityId
  | .verifierRuleId => Option String
  | .stage => VerificationStage
  | .status => OutcomeStatus
  | .confidence => Probability
  | .evidenceIds => BTreeSet EvidenceId

def outcomeSchema : Record.Schema OutcomeField Data ExperienceWireError OutcomeField.Slot where
  fields := [.caseId, .subject, .actionId, .hypothesisId, .verifierRuleId, .stage, .status,
    .confidence, .rationale, .evidenceIds]
  name
    | .caseId => "case_id"
    | .subject => "subject"
    | .actionId => "action_id"
    | .hypothesisId => "hypothesis_id"
    | .verifierRuleId => "verifier_rule_id"
    | .stage => "stage"
    | .status => "status"
    | .confidence => "confidence"
    | .rationale => "rationale"
    | .evidenceIds => "evidence_ids"
  read
    | .caseId => lift readText
    | .subject => lift readEntityId
    | .actionId => lift readText
    | .hypothesisId => lift readText
    | .verifierRuleId => lift (readNullable readText)
    | .stage => lift VerificationStage.deserialize
    | .status => lift OutcomeStatus.deserialize
    | .confidence => lift readProbability
    | .rationale => lift readText
    | .evidenceIds => lift (readSet readEvidenceId)
  duplicate := fun name => .wire (.duplicateField name)
  unknown := none
  nodup := by decide
  named := by decide

/-- The value of a field that must be there. -/
def requireField {α : Type} (name : String) (slot : Option α) : Except ExperienceWireError α :=
  okOr slot (.wire (.missingField name))

namespace VerificationOutcome

def rawFields (outcome : VerificationOutcome) : OutcomeField → Option Data
  | .caseId => some (.text outcome.caseId)
  | .subject => some (.text outcome.subject.value)
  | .actionId => some (.text outcome.actionId)
  | .hypothesisId => some (.text outcome.hypothesisId)
  | .verifierRuleId => some (writeNullable .text outcome.verifierRuleId)
  | .stage => some (.text outcome.stage.asStr)
  | .status => some (.text outcome.status.wireName)
  | .confidence => some outcome.confidence.serialize
  | .rationale => some (.text outcome.rationale)
  | .evidenceIds => some (writeSet (fun id => .text id.value) outcome.evidenceIds)

def serialize (outcome : VerificationOutcome) : Data :=
  .map (Record.encode outcomeSchema.fields outcomeSchema.name outcome.rawFields)

/-- Builds the outcome again, as its status asks. -/
def ofWire (caseId : String) (subject : EntityId) (actionId hypothesisId : String)
    (verifierRuleId : Option String) (stage : VerificationStage) (status : OutcomeStatus)
    (confidence : Probability) (rationale : String) (evidenceIds : BTreeSet EvidenceId) :
    Except ExperienceWireError VerificationOutcome := do
  if status = .unknown then
    if verifierRuleId.isSome ∨ confidence ≠ .zero ∨ !evidenceIds.isEmpty then
      throw (.outcome .invalidUnknown)
    else (unknown caseId subject actionId hypothesisId stage rationale).mapError .outcome
  else do
    let verifierRuleId ← okOr verifierRuleId (.custom "verified outcome is missing verifier rule id")
    (verified caseId subject actionId hypothesisId verifierRuleId stage status confidence rationale
      evidenceIds).mapError .outcome

def ofSlots (slots : Record.Slots OutcomeField.Slot) :
    Except ExperienceWireError VerificationOutcome := do
  let caseId ← requireField "case_id" (slots .caseId)
  let subject ← requireField "subject" (slots .subject)
  let actionId ← requireField "action_id" (slots .actionId)
  let hypothesisId ← requireField "hypothesis_id" (slots .hypothesisId)
  let verifierRuleId : Option String := (slots .verifierRuleId).getD none
  let stage ← requireField "stage" (slots .stage)
  let status ← requireField "status" (slots .status)
  let confidence ← requireField "confidence" (slots .confidence)
  let rationale ← requireField "rationale" (slots .rationale)
  let evidenceIds ← requireField "evidence_ids" (slots .evidenceIds)
  ofWire caseId subject actionId hypothesisId verifierRuleId stage status confidence rationale
    evidenceIds

def deserialize : Data → Except ExperienceWireError VerificationOutcome
  | .map entries => do ofSlots (← outcomeSchema.collect entries)
  | _ => .error (.wire .invalidType)

end VerificationOutcome

/-! ### Records -/

inductive ExperienceField where
  | sequence
  | outcome
  | disposition
  deriving DecidableEq

def ExperienceField.Slot : ExperienceField → Type
  | .sequence => Nat
  | .outcome => VerificationOutcome
  | .disposition => Option ExperienceDisposition

def experienceSchema : Record.Schema ExperienceField Data ExperienceWireError ExperienceField.Slot where
  fields := [.sequence, .outcome, .disposition]
  name
    | .sequence => "sequence"
    | .outcome => "outcome"
    | .disposition => "disposition"
  read
    | .sequence => lift (readUnsigned u64Max)
    | .outcome => VerificationOutcome.deserialize
    | .disposition => lift (readNullable ExperienceDisposition.deserialize)
  duplicate := fun name => .wire (.duplicateField name)
  unknown := none
  nodup := by decide
  named := by decide

namespace ExperienceRecord

def rawFields (record : ExperienceRecord) : ExperienceField → Option Data
  | .sequence => some (writeUnsigned record.sequence)
  | .outcome => some record.outcome.serialize
  | .disposition => some (.text record.disposition.wireName)

def serialize (record : ExperienceRecord) : Data :=
  .map (Record.encode experienceSchema.fields experienceSchema.name record.rawFields)

def ofSlots (slots : Record.Slots ExperienceField.Slot) :
    Except ExperienceWireError ExperienceRecord := do
  let sequence ← requireField "sequence" (slots .sequence)
  let outcome : VerificationOutcome ← requireField "outcome" (slots .outcome)
  let disposition : Option ExperienceDisposition := (slots .disposition).getD none
  let disposition := disposition.getD (.fromOutcome outcome)
  (validateDisposition outcome disposition).mapError .store
  return { sequence, outcome, disposition }

def deserialize : Data → Except ExperienceWireError ExperienceRecord
  | .map entries => do ofSlots (← experienceSchema.collect entries)
  | _ => .error (.wire .invalidType)

end ExperienceRecord

/-! ### Stores -/

inductive StoreField where
  | nextSequence
  | records
  deriving DecidableEq

def StoreField.Slot : StoreField → Type
  | .nextSequence => Nat
  | .records => List ExperienceRecord

def readRecords : Data → Except ExperienceWireError (List ExperienceRecord)
  | .seq items => items.mapM ExperienceRecord.deserialize
  | _ => .error (.wire .invalidType)

def storeSchema : Record.Schema StoreField Data ExperienceWireError StoreField.Slot where
  fields := [.nextSequence, .records]
  name
    | .nextSequence => "next_sequence"
    | .records => "records"
  read
    | .nextSequence => lift (readUnsigned u64Max)
    | .records => readRecords
  duplicate := fun name => .wire (.duplicateField name)
  unknown := none
  nodup := by decide
  named := by decide

/-- The persisted order numbers count from zero. -/
def checkSequences : List ExperienceRecord → Nat → Except ExperienceStoreError Unit
  | [], _ => .ok ()
  | record :: records, expected =>
    if record.sequence ≠ expected then .error (.invalidSequence expected record.sequence)
    else checkSequences records (expected + 1)

namespace ExperienceStore

def rawFields (store : ExperienceStore) : StoreField → Option Data
  | .nextSequence => some (writeUnsigned store.nextSequence)
  | .records => some (.seq (store.records.map ExperienceRecord.serialize))

def serialize (store : ExperienceStore) : Data :=
  .map (Record.encode storeSchema.fields storeSchema.name store.rawFields)

/-- Observes persisted records again. -/
def replay : List ExperienceRecord → Command ExperienceStore ExperienceStoreError Unit
  | [] => return ()
  | record :: records => do
    let write ← observeWithDisposition record.outcome record.disposition
    if write = .unchanged then throw .duplicateObservation
    replay records

def ofSlots (slots : Record.Slots StoreField.Slot) :
    Except ExperienceWireError (Nat × List ExperienceRecord) := do
  let nextSequence ← requireField "next_sequence" (slots .nextSequence)
  let records ← requireField "records" (slots .records)
  return (nextSequence, records)

def readWire : Data → Except ExperienceWireError (Nat × List ExperienceRecord)
  | .map entries => do ofSlots (← storeSchema.collect entries)
  | _ => .error (.wire .invalidType)

def deserialize (data : Data) : Command Unit ExperienceWireError ExperienceStore := do
  let wire ← readWire data
  (checkSequences wire.2 0).mapError ExperienceWireError.store
  if wire.1 ≠ wire.2.length then
    throw (ExperienceWireError.store (.invalidNextSequence wire.2.length wire.1))
  let replayed ← Command.mapErr ExperienceWireError.store
    (Command.locally ExperienceStore.new (replay wire.2))
  return replayed.2

end ExperienceStore

/-! ### Reading back -/

theorem VerificationStage.round_trip (stage : VerificationStage) :
    VerificationStage.deserialize (.text stage.asStr) = .ok stage := by
  cases stage <;> rfl

theorem OutcomeStatus.round_trip (status : OutcomeStatus) :
    OutcomeStatus.deserialize (.text status.wireName) = .ok status := by
  cases status <;> rfl

theorem ExperienceDisposition.round_trip (disposition : ExperienceDisposition) :
    ExperienceDisposition.deserialize (.text disposition.wireName) = .ok disposition := by
  cases disposition <;> rfl

theorem Wire.readNullable_text (value : Option String) :
    readNullable readText (writeNullable .text value) = .ok value := by
  cases value <;> rfl

theorem VerificationOutcome.verified_eq (caseId : String) (subject : EntityId)
    (actionId hypothesisId verifierRuleId : String) (stage : VerificationStage)
    (status : OutcomeStatus) (confidence : Probability) (rationale : String)
    (evidenceIds : BTreeSet EvidenceId) :
    wp (verified caseId subject actionId hypothesisId verifierRuleId stage status confidence
        rationale evidenceIds)
      (fun outcome => status ≠ .unknown ∧ outcome = ⟨caseId, subject, actionId, hypothesisId,
        some verifierRuleId, stage, status, confidence, rationale, evidenceIds⟩) fun _ => True := by
  simp only [verified, requireText, wp_rules, implies_true, true_and, and_true]
  exact fun hstat _ _ _ _ _ _ _ _ => hstat

theorem VerificationOutcome.unknown_eq (caseId : String) (subject : EntityId)
    (actionId hypothesisId : String) (stage : VerificationStage) (rationale : String) :
    wp (unknown caseId subject actionId hypothesisId stage rationale)
      (fun outcome => outcome = ⟨caseId, subject, actionId, hypothesisId, none, stage, .unknown,
        .zero, rationale, ∅⟩) fun _ => True := by
  simp only [unknown, requireText, wp_rules, implies_true, and_true]

/-- An outcome that exists is built again. -/
theorem VerificationOutcome.Constructed.ofWire_eq {outcome : VerificationOutcome}
    (h : outcome.Constructed) : VerificationOutcome.ofWire outcome.caseId outcome.subject
      outcome.actionId outcome.hypothesisId outcome.verifierRuleId outcome.stage outcome.status
      outcome.confidence outcome.rationale outcome.evidenceIds = .ok outcome := by
  cases h with
  | @verified caseId subject actionId hypothesisId verifierRuleId stage status confidence rationale
      evidenceIds _ h =>
    have hwp := VerificationOutcome.verified_eq caseId subject actionId hypothesisId
      verifierRuleId stage status confidence rationale evidenceIds
    rw [h] at hwp
    obtain ⟨hstat, rfl⟩ := hwp
    simp only [ofWire, if_neg hstat, okOr]
    exact congrArg (Except.mapError ExperienceWireError.outcome) h
  | @unknown caseId subject actionId hypothesisId stage rationale _ h =>
    have hwp := VerificationOutcome.unknown_eq caseId subject actionId hypothesisId stage rationale
    rw [h] at hwp
    obtain rfl := hwp
    simp [ofWire, h, Except.mapError]

/-- An outcome that exists is read back. -/
theorem VerificationOutcome.round_trip {outcome : VerificationOutcome} (h : outcome.Constructed) :
    VerificationOutcome.deserialize outcome.serialize = .ok outcome := by
  have hrd : Record.Reads outcomeSchema outcome.rawFields (fun
      | .caseId => some outcome.caseId
      | .subject => some outcome.subject
      | .actionId => some outcome.actionId
      | .hypothesisId => some outcome.hypothesisId
      | .verifierRuleId => some outcome.verifierRuleId
      | .stage => some outcome.stage
      | .status => some outcome.status
      | .confidence => some outcome.confidence
      | .rationale => some outcome.rationale
      | .evidenceIds => some outcome.evidenceIds) := by
    intro field
    refine Or.inr ⟨by cases field <;> decide, ?_⟩
    cases field with
    | caseId => exact ⟨_, _, rfl, rfl, rfl⟩
    | subject => exact ⟨_, _, rfl, rfl, lift_eq_ok (readEntityId_text _)⟩
    | actionId => exact ⟨_, _, rfl, rfl, rfl⟩
    | hypothesisId => exact ⟨_, _, rfl, rfl, rfl⟩
    | verifierRuleId => exact ⟨_, _, rfl, rfl, lift_eq_ok (readNullable_text _)⟩
    | stage => exact ⟨_, _, rfl, rfl, lift_eq_ok (VerificationStage.round_trip _)⟩
    | status => exact ⟨_, _, rfl, rfl, lift_eq_ok (OutcomeStatus.round_trip _)⟩
    | confidence => exact ⟨_, _, rfl, rfl, lift_eq_ok (readProbability_serialize _)⟩
    | rationale => exact ⟨_, _, rfl, rfl, rfl⟩
    | evidenceIds =>
      exact ⟨_, _, rfl, rfl, lift_eq_ok (readSet_writeSet fun id _ =>
        readEvidenceId_text id)⟩
  simp only [serialize, deserialize, Record.collect_encode hrd]
  exact h.ofWire_eq

/-- A record of an outcome that exists is read back. -/
theorem ExperienceRecord.round_trip {record : ExperienceRecord} (h : record.outcome.Constructed)
    (haccepts : record.disposition.accepts record.outcome.status = true)
    (hsequence : record.sequence ≤ u64Max) :
    ExperienceRecord.deserialize record.serialize = .ok record := by
  have hdisp : readNullable ExperienceDisposition.deserialize
      (.text record.disposition.wireName) = .ok (some record.disposition) := by
    show some <$> ExperienceDisposition.deserialize (.text record.disposition.wireName) = _
    rw [ExperienceDisposition.round_trip]
    rfl
  have hrd : Record.Reads experienceSchema record.rawFields (fun
      | .sequence => some record.sequence
      | .outcome => some record.outcome
      | .disposition => some (some record.disposition)) := by
    intro field
    refine Or.inr ⟨by cases field <;> decide, ?_⟩
    cases field with
    | sequence =>
      exact ⟨_, _, rfl, rfl, lift_eq_ok (readUnsigned_writeUnsigned hsequence)⟩
    | outcome => exact ⟨_, _, rfl, rfl, VerificationOutcome.round_trip h⟩
    | disposition => exact ⟨_, _, rfl, rfl, lift_eq_ok hdisp⟩
  have hvalid : validateDisposition record.outcome record.disposition = .ok () := by
    rw [validateDisposition, if_pos haccepts]
  simp only [serialize, deserialize, Record.collect_encode hrd]
  show ((validateDisposition record.outcome record.disposition).mapError ExperienceWireError.store >>=
    fun _ => pure record) = .ok record
  rw [hvalid]
  rfl

/-- The persisted form of records that are read back. -/
theorem ExperienceStore.readWire_serialize {store : ExperienceStore}
    (hnext : store.nextSequence ≤ u64Max)
    (hrecs : ∀ record ∈ store.records, ExperienceRecord.deserialize record.serialize = .ok record) :
    ExperienceStore.readWire store.serialize = .ok (store.nextSequence, store.records) := by
  have hmap : (store.records.map ExperienceRecord.serialize).mapM ExperienceRecord.deserialize =
      .ok store.records := by
    refine mapM_eq_ok_iff.mpr (List.forall₂_map_left_iff.mpr ?_)
    exact List.forall₂_same.mpr hrecs
  have hrd : Record.Reads storeSchema store.rawFields (fun
      | .nextSequence => some store.nextSequence
      | .records => some store.records) := by
    intro field
    refine Or.inr ⟨by cases field <;> decide, ?_⟩
    cases field with
    | nextSequence =>
      exact ⟨_, _, rfl, rfl, lift_eq_ok (readUnsigned_writeUnsigned hnext)⟩
    | records => exact ⟨_, _, rfl, rfl, hmap⟩
  simp only [serialize, readWire, Record.collect_encode hrd]
  rfl

end Termivar
