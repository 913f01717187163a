/-
# Rules on the wire

A condition is read back from what it is written as, by induction over its
tree, and so are a conclusion and a rule. What is read as a condition is well
formed, so the check of a rule's condition never fails.
-/
import Termivar.Rules.CalibrationWire

namespace Termivar

open List

/-! ### Conditions -/

namespace Expression

/-- A value with what it is read as. -/
def rawValue (data : Data) : RawValue := ⟨data, deserialize data, deserializeAll data⟩

theorem deserializeValues_eq : ∀ entries : List (String × Data),
    deserializeValues entries = entries.map fun entry => (entry.1, rawValue entry.2)
  | [] => rfl
  | (name, data) :: entries => by
    rw [deserializeValues, deserializeValues_eq entries]
    rfl

theorem deserializeItems_eq : ∀ items : List Data, deserializeItems items = items.mapM deserialize
  | [] => rfl
  | item :: items => by
    rw [deserializeItems, deserializeItems_eq items, mapM_cons]

theorem serializeEach_eq : ∀ es : List Expression, serializeEach es = es.map serialize
  | [] => rfl
  | e :: es => by
    rw [serializeEach, serializeEach_eq es]
    rfl

theorem name_ne_op (i : ExpressionField) : i.name ≠ "op" := by
  cases i <;> decide

/-- A node is read back if its fields are. -/
theorem deserialize_writeNode {op : ExpressionOp} {raw : ExpressionField → Option Data}
    {slots : Record.Slots ExpressionField.Slot} {e : Expression}
    (hrd : Record.Reads (expressionSchema op) (fun i => (raw i).map rawValue) slots)
    (h : ofSlots op slots = .ok e) : deserialize (writeNode op raw) = .ok e := by
  have hns : ∀ entry ∈ Record.encode op.fields ExpressionField.name fun i => (raw i).map rawValue,
      entry.1 ≠ "op" := by
    intro entry hmem
    obtain ⟨i, -, hi⟩ := mem_filterMap.mp hmem
    obtain ⟨r, -, rfl⟩ := Option.map_eq_some_iff.mp hi
    exact name_ne_op i
  have htag := Record.takeTag_cons "op" (fun raw : RawValue => ExpressionOp.deserialize raw.data)
    (.duplicateField "op") (.missingField "op") (r := rawValue (.text op.wireName))
    (ExpressionOp.deserialize_wireName op) hns
  have hcoll : (expressionSchema op).collect
      (Record.encode op.fields ExpressionField.name fun i => (raw i).map rawValue) = .ok slots :=
    Record.collect_encode hrd
  rw [writeNode, deserialize, deserializeValues_eq, map_cons, Record.map_encode, readNode, htag]
  simp only [bind, Except.bind, hcoll]
  exact h

/-- Whether the integers of a condition are those of the source's types. -/
def inRange (e : Expression) : Bool :=
  e.every fun
    | .claim _ _ value => value.all EvidenceValue.inRange
    | _ => true

theorem deserialize_claim (layer : KnowledgeLayer) (predicate : KnowledgePredicate)
    {value : Option EvidenceValue} (h : value.all EvidenceValue.inRange = true) :
    deserialize (serialize (.claim layer predicate value)) = .ok (.claim layer predicate value) := by
  have hvalue : Wire.readNullable EvidenceValue.deserialize
      (Wire.writeNullable EvidenceValue.serialize value) = .ok value := by
    refine readNullable_writeNullable (by rintro - ⟨⟩) fun v hmem => ?_
    exact EvidenceValue.deserialize_serialize (by simpa [Option.mem_def.mp hmem] using h)
  let slots : Record.Slots ExpressionField.Slot :=
    Function.update (Function.update (Function.update (fun _ => none) .layer (some layer))
      .predicate (some predicate)) .claimed (some value)
  refine @deserialize_writeNode .claim _ slots _ (fun i => ?_) rfl
  cases i with
  | layer => exact Or.inr ⟨by decide, _, _, rfl, rfl, layer.deserialize_wireName⟩
  | predicate => exact Or.inr ⟨by decide, _, _, rfl, rfl, predicate.deserialize_serialize⟩
  | claimed => exact Or.inr ⟨by decide, _, _, rfl, rfl, hvalue⟩
  | _ => exact Or.inl ⟨rfl, rfl⟩

theorem deserialize_textContains (layer : KnowledgeLayer) (predicate : KnowledgePredicate)
    {needle : String} (insensitive : Bool) (h : isBlank needle = false) :
    deserialize (serialize (.textContains layer predicate needle insensitive)) =
      .ok (.textContains layer predicate needle insensitive) := by
  let slots : Record.Slots ExpressionField.Slot :=
    Function.update (Function.update (Function.update (Function.update (fun _ => none)
      .layer (some layer)) .predicate (some predicate)) .needle (some needle)) .asciiCaseInsensitive (some insensitive)
  have hbuild : ofSlots .textContains slots =
      .ok (.textContains layer predicate needle insensitive) := by
    change (textMatch layer predicate needle insensitive).mapError WireError.rule = _
    simp [textMatch, nonEmpty, h, bind, Except.bind, pure, Except.pure, Except.mapError]
  refine @deserialize_writeNode .textContains _ slots _ (fun i => ?_) hbuild
  cases i with
  | layer => exact Or.inr ⟨by decide, _, _, rfl, rfl, layer.deserialize_wireName⟩
  | predicate => exact Or.inr ⟨by decide, _, _, rfl, rfl, predicate.deserialize_serialize⟩
  | needle => exact Or.inr ⟨by decide, _, _, rfl, rfl, rfl⟩
  | asciiCaseInsensitive => exact Or.inr ⟨by decide, _, _, rfl, rfl, rfl⟩
  | _ => exact Or.inl ⟨rfl, rfl⟩

theorem deserialize_textListContainsExact (layer : KnowledgeLayer) (predicate : KnowledgePredicate)
    {value : String} (h : isBlank value = false) :
    deserialize (serialize (.textListContainsExact layer predicate value)) =
      .ok (.textListContainsExact layer predicate value) := by
  let slots : Record.Slots ExpressionField.Slot :=
    Function.update (Function.update (Function.update (fun _ => none) .layer (some layer))
      .predicate (some predicate)) .exact (some value)
  have hbuild : ofSlots .textListContainsExact slots =
      .ok (.textListContainsExact layer predicate value) := by
    change (textListMatch layer predicate value).mapError WireError.rule = _
    simp [textListMatch, nonEmpty, h, bind, Except.bind, pure, Except.pure, Except.mapError]
  refine @deserialize_writeNode .textListContainsExact _ slots _ (fun i => ?_) hbuild
  cases i with
  | layer => exact Or.inr ⟨by decide, _, _, rfl, rfl, layer.deserialize_wireName⟩
  | predicate => exact Or.inr ⟨by decide, _, _, rfl, rfl, predicate.deserialize_serialize⟩
  | exact => exact Or.inr ⟨by decide, _, _, rfl, rfl, rfl⟩
  | _ => exact Or.inl ⟨rfl, rfl⟩

theorem deserialize_ontologyRelation (subject : ConceptId) (relation : RelationTypeId)
    (object : ConceptId) : deserialize (serialize (.ontologyRelation subject relation object)) =
      .ok (.ontologyRelation subject relation object) := by
  let slots : Record.Slots ExpressionField.Slot :=
    Function.update (Function.update (Function.update (fun _ => none) .subject (some subject))
      .relation (some relation)) .object (some object)
  refine @deserialize_writeNode .ontologyRelation _ slots _ (fun i => ?_) rfl
  cases i with
  | subject => exact Or.inr ⟨by decide, _, _, rfl, rfl, deserializeOntologyId_value _ subject⟩
  | relation => exact Or.inr ⟨by decide, _, _, rfl, rfl, deserializeOntologyId_value _ relation⟩
  | object => exact Or.inr ⟨by decide, _, _, rfl, rfl, deserializeOntologyId_value _ object⟩
  | _ => exact Or.inl ⟨rfl, rfl⟩

/-- The operands of a group are read back if each is. -/
theorem deserializeAll_serializeEach {es : List Expression}
    (h : ∀ e ∈ es, deserialize (serialize e) = .ok e) :
    deserializeAll (.seq (serializeEach es)) = .ok es := by
  rw [deserializeAll, deserializeItems_eq, serializeEach_eq]
  exact mapM_map_ok h

/-- **A condition is read back.** -/
theorem deserialize_serialize (e : Expression) (hformed : e.wellFormed = true)
    (hrg : e.inRange = true) : deserialize e.serialize = .ok e := by
  induction e using inductionOn with
  | all es ih =>
    obtain ⟨hsome, hformed⟩ := every_all.mp hformed
    have hes := deserializeAll_serializeEach fun e he =>
      ih e he (hformed e he) ((every_all.mp hrg).2 e he)
    let slots : Record.Slots ExpressionField.Slot :=
      Function.update (fun _ => none) .expressions (some es)
    have hbuild : ofSlots .all slots = .ok (.all es) := by
      change (allOf es).mapError WireError.rule = _
      have hne : es.isEmpty = false := by simpa [admitted] using hsome
      simp [allOf, hne, Except.mapError]
    rw [serialize]
    refine @deserialize_writeNode .all _ slots _ (fun i => ?_) hbuild
    cases i with
    | expressions => exact Or.inr ⟨by decide, _, _, rfl, rfl, hes⟩
    | _ => exact Or.inl ⟨rfl, rfl⟩
  | any es ih =>
    obtain ⟨hsome, hformed⟩ := every_any.mp hformed
    have hes := deserializeAll_serializeEach fun e he =>
      ih e he (hformed e he) ((every_any.mp hrg).2 e he)
    let slots : Record.Slots ExpressionField.Slot :=
      Function.update (fun _ => none) .expressions (some es)
    have hbuild : ofSlots .any slots = .ok (.any es) := by
      change (anyOf es).mapError WireError.rule = _
      have hne : es.isEmpty = false := by simpa [admitted] using hsome
      simp [anyOf, hne, Except.mapError]
    rw [serialize]
    refine @deserialize_writeNode .any _ slots _ (fun i => ?_) hbuild
    cases i with
    | expressions => exact Or.inr ⟨by decide, _, _, rfl, rfl, hes⟩
    | _ => exact Or.inl ⟨rfl, rfl⟩
  | negate e ih =>
    have he := ih (every_negate.mp hformed).2 (every_negate.mp hrg).2
    let slots : Record.Slots ExpressionField.Slot :=
      Function.update (fun _ => none) .expression (some e)
    rw [serialize]
    refine @deserialize_writeNode .negate _ slots _ (fun i => ?_) rfl
    cases i with
    | expression => exact Or.inr ⟨by decide, _, _, rfl, rfl, he⟩
    | _ => exact Or.inl ⟨rfl, rfl⟩
  | claim layer predicate value => exact deserialize_claim layer predicate hrg
  | textContains layer predicate needle insensitive =>
    exact deserialize_textContains layer predicate insensitive (by
      simpa [wellFormed, every, admitted] using hformed)
  | textListContainsExact layer predicate value =>
    exact deserialize_textListContainsExact layer predicate (by
      simpa [wellFormed, every, admitted] using hformed)
  | ontologyRelation subject relation object =>
    exact deserialize_ontologyRelation subject relation object

/-! ### What is read is well formed -/

/-- A value is read as well-formed conditions only. -/
structure Formed (raw : RawValue) : Prop where
  expression : ∀ e, raw.expression = .ok e → e.wellFormed = true
  expressions : ∀ es, raw.expressions = .ok es → ∀ e ∈ es, e.wellFormed = true

theorem require_eq_ok {α : Type} {name : String} {slot : Option α} {x : α} :
    Wire.require name slot = .ok x ↔ slot = some x := by
  cases slot <;> simp [Wire.require, okOr]

theorem mapError_eq_ok {ε ε' α : Type} {f : ε → ε'} {x : Except ε α} {a : α} :
    x.mapError f = .ok a ↔ x = .ok a := by
  cases x <;> simp [Except.mapError]

theorem ofSlots_wellFormed {op : ExpressionOp} {slots : Record.Slots ExpressionField.Slot}
    (hone : ∀ child : Expression, slots .expression = some child → child.wellFormed = true)
    (hmany : ∀ es : List Expression, slots .expressions = some es →
      ∀ child ∈ es, child.wellFormed = true) (h : ofSlots op slots = .ok e) :
    e.wellFormed = true := by
  cases op with
  | all =>
    obtain ⟨es, hes, h⟩ := bind_ok h
    have hall := mapError_eq_ok.mp h
    unfold allOf at hall
    split at hall
    · cases hall
    · rename_i hsome
      cases hall
      exact every_all.mpr ⟨by simpa [admitted] using hsome, hmany es (require_eq_ok.mp hes)⟩
  | any =>
    obtain ⟨es, hes, h⟩ := bind_ok h
    have hany := mapError_eq_ok.mp h
    unfold anyOf at hany
    split at hany
    · cases hany
    · rename_i hsome
      cases hany
      exact every_any.mpr ⟨by simpa [admitted] using hsome, hmany es (require_eq_ok.mp hes)⟩
  | negate =>
    obtain ⟨child, hch, h⟩ := bind_ok h
    cases h
    exact every_negate.mpr ⟨rfl, hone child (require_eq_ok.mp hch)⟩
  | claim =>
    obtain ⟨layer, -, h⟩ := bind_ok h
    obtain ⟨predicate, -, h⟩ := bind_ok h
    cases hvalue : slots .claimed with
    | none =>
      rw [hvalue] at h
      cases h
    | some value =>
      rw [hvalue] at h
      cases h
      rfl
  | textContains =>
    obtain ⟨layer, -, h⟩ := bind_ok h
    obtain ⟨predicate, -, h⟩ := bind_ok h
    obtain ⟨needle, -, h⟩ := bind_ok h
    obtain ⟨insensitive, -, h⟩ := bind_ok h
    obtain ⟨text, -, h⟩ := bind_ok (mapError_eq_ok.mp h)
    cases h
    simp [wellFormed, every, admitted, text.2]
  | textListContainsExact =>
    obtain ⟨layer, -, h⟩ := bind_ok h
    obtain ⟨predicate, -, h⟩ := bind_ok h
    obtain ⟨value, -, h⟩ := bind_ok h
    obtain ⟨text, -, h⟩ := bind_ok (mapError_eq_ok.mp h)
    cases h
    simp [wellFormed, every, admitted, text.2]
  | ontologyRelation =>
    obtain ⟨subject, -, h⟩ := bind_ok h
    obtain ⟨relation, -, h⟩ := bind_ok h
    obtain ⟨object, -, h⟩ := bind_ok h
    cases h
    rfl

theorem readNode_wellFormed {entries : List (String × RawValue)}
    (hformed : ∀ entry ∈ entries, Formed entry.2) (h : readNode entries = .ok e) :
    e.wellFormed = true := by
  obtain ⟨⟨op, content⟩, htag, h⟩ := bind_ok h
  obtain ⟨slots, hcoll, h⟩ := bind_ok h
  have hcont := Record.takeTag_mem _ _ _ _ htag
  refine ofSlots_wellFormed (fun child hch => ?_) (fun es hes => ?_) h
  · obtain ⟨entry, hmem, hread⟩ := Record.collect_mem hcoll hch
    exact (hformed entry (hcont entry hmem)).expression child hread
  · obtain ⟨entry, hmem, hread⟩ := Record.collect_mem hcoll hes
    exact (hformed entry (hcont entry hmem)).expressions es hread

mutual

theorem deserialize_wellFormed : ∀ (d : Data) {e : Expression}, deserialize d = .ok e →
    e.wellFormed = true
  | .map entries, e, h => by
    rw [deserialize] at h
    exact readNode_wellFormed (deserializeValues_formed entries) h
  | .null, _, h => by cases h
  | .bool _, _, h => by cases h
  | .integer _, _, h => by cases h
  | .text _, _, h => by cases h
  | .seq _, _, h => by cases h

theorem deserializeAll_wellFormed : ∀ (d : Data) {es : List Expression},
    deserializeAll d = .ok es → ∀ e ∈ es, e.wellFormed = true
  | .seq items, es, h => by
    rw [deserializeAll] at h
    exact deserializeItems_wellFormed items h
  | .null, _, h => by cases h
  | .bool _, _, h => by cases h
  | .integer _, _, h => by cases h
  | .text _, _, h => by cases h
  | .map _, _, h => by cases h

theorem deserializeItems_wellFormed : ∀ (items : List Data) {es : List Expression},
    deserializeItems items = .ok es → ∀ e ∈ es, e.wellFormed = true
  | [], es, h => by
    cases h
    simp
  | item :: items, es, h => by
    rw [deserializeItems] at h
    obtain ⟨first, hfirst, h⟩ := bind_ok h
    obtain ⟨rest, hrest, h⟩ := bind_ok h
    cases h
    exact forall_mem_cons.mpr
      ⟨deserialize_wellFormed item hfirst, deserializeItems_wellFormed items hrest⟩

theorem deserializeValues_formed : ∀ entries : List (String × Data),
    ∀ entry ∈ deserializeValues entries, Formed entry.2
  | [] => by simp [deserializeValues]
  | (name, data) :: entries => by
    rw [deserializeValues]
    exact forall_mem_cons.mpr
      ⟨⟨fun _ h => deserialize_wellFormed data h, fun _ h => deserializeAll_wellFormed data h⟩,
        deserializeValues_formed entries⟩

end

end Expression

/-! ### Rules -/

/-- The check of a condition that was read never fails. -/
theorem readCondition_eq {data : Data} {e : Expression} (h : Expression.deserialize data = .ok e) :
    readCondition data = .ok ⟨e, Expression.deserialize_wellFormed data h⟩ := by
  simp [readCondition, h, bind, Except.bind, pure, Except.pure,
    Expression.deserialize_wellFormed data h]

namespace HypothesisConclusion

def inRange (conclusion : HypothesisConclusion) : Bool :=
  conclusion.value.inRange && conclusion.calibrations.all EvidenceCalibration.inRange

def slots (conclusion : HypothesisConclusion) : Record.Slots ConclusionField.Slot
  | .predicate => some conclusion.predicate
  | .value => some conclusion.value
  | .prior => some conclusion.prior
  | .strength => some conclusion.strength
  | .state => some conclusion.state
  | .calibrations => some conclusion.calibrations

theorem reads {conclusion : HypothesisConclusion} (h : conclusion.inRange = true) :
    Record.Reads conclusionSchema conclusion.rawFields conclusion.slots := by
  obtain ⟨hvalue, hcal⟩ := Bool.and_eq_true_iff.mp h
  have hread : readCalibrations (.seq (conclusion.calibrations.map EvidenceCalibration.serialize)) =
      .ok conclusion.calibrations :=
    mapM_map_ok fun calibration hmem =>
      EvidenceCalibration.deserialize_serialize (all_eq_true.mp hcal calibration hmem)
  intro i
  cases i with
  | predicate =>
    exact Or.inr ⟨by decide, _, _, rfl, rfl, conclusion.predicate.deserialize_serialize⟩
  | value => exact Or.inr ⟨by decide, _, _, rfl, rfl, EvidenceValue.deserialize_serialize hvalue⟩
  | prior => exact Or.inr ⟨by decide, _, _, rfl, rfl, readProbability_serialize _⟩
  | strength => exact Or.inr ⟨by decide, _, _, rfl, rfl, conclusion.strength.deserialize_wireName⟩
  | state => exact Or.inr ⟨by decide, _, _, rfl, rfl, conclusion.state.deserialize_wireName⟩
  | calibrations => exact Or.inr ⟨by decide, _, _, rfl, rfl, hread⟩

theorem ofSlots_slots (conclusion : HypothesisConclusion) :
    ofSlots conclusion.slots = .ok conclusion := by
  change (HypothesisConclusion.new conclusion.predicate conclusion.value conclusion.prior
    conclusion.strength conclusion.state conclusion.calibrations).mapError WireError.rule = _
  simp [HypothesisConclusion.new, conclusion.calibrated, conclusion.stateOpen, Except.mapError]

theorem deserialize_serialize {conclusion : HypothesisConclusion} (h : conclusion.inRange = true) :
    deserialize conclusion.serialize = .ok conclusion :=
  collect_bind_encode (reads h) conclusion.ofSlots_slots

end HypothesisConclusion

namespace ReasoningRule

variable (rule : ReasoningRule)

def inRange : Bool := rule.condition.inRange && rule.conclusion.inRange

def slots : Record.Slots RuleField.Slot
  | .id => some rule.id
  | .condition => some ⟨rule.condition, rule.conditionWellFormed⟩
  | .conclusion => some rule.conclusion

theorem reads {rule : ReasoningRule} (h : rule.inRange = true) :
    Record.Reads ruleSchema rule.rawFields rule.slots := by
  obtain ⟨hcond, hconc⟩ := Bool.and_eq_true_iff.mp h
  intro i
  cases i with
  | id => exact Or.inr ⟨by decide, _, _, rfl, rfl, rfl⟩
  | condition =>
    exact Or.inr ⟨by decide, _, _, rfl, rfl, readCondition_eq
      (rule.condition.deserialize_serialize rule.conditionWellFormed hcond)⟩
  | conclusion =>
    exact Or.inr ⟨by decide, _, _, rfl, rfl, HypothesisConclusion.deserialize_serialize hconc⟩

theorem ofSlots_slots : ofSlots rule.slots = .ok rule := by
  change (ReasoningRule.new rule.id ⟨rule.condition, rule.conditionWellFormed⟩
    rule.conclusion).mapError WireError.rule = _
  simp [ReasoningRule.new, nonEmpty, rule.idNotBlank, bind, Except.bind, pure, Except.pure,
    Except.mapError]

theorem deserialize_serialize {rule : ReasoningRule} (h : rule.inRange = true) :
    deserialize rule.serialize = .ok rule :=
  collect_bind_encode (reads h) rule.ofSlots_slots

end ReasoningRule

/-- **What is written is read back, and a lost field is noticed.** Conditions,
selectors, calibrations, conclusions and rules are read back from what they are
written as. A selector or a calibration with a field deleted, at any depth, is
refused or the same. -/
theorem wire_round_trip :
    (∀ e : Expression, e.wellFormed = true → e.inRange = true →
      Expression.deserialize e.serialize = .ok e) ∧
    (∀ selector : EvidenceSelector, selector.inRange = true →
      EvidenceSelector.deserialize selector.serialize = .ok selector ∧
      ∀ d, selector.serialize.Dropped d → RefusedOrSame (EvidenceSelector.deserialize d) selector) ∧
    (∀ calibration : EvidenceCalibration, calibration.inRange = true →
      EvidenceCalibration.deserialize calibration.serialize = .ok calibration ∧
      ∀ d, calibration.serialize.Dropped d →
        RefusedOrSame (EvidenceCalibration.deserialize d) calibration) ∧
    (∀ conclusion : HypothesisConclusion, conclusion.inRange = true →
      HypothesisConclusion.deserialize conclusion.serialize = .ok conclusion) ∧
    ∀ rule : ReasoningRule, rule.inRange = true →
      ReasoningRule.deserialize rule.serialize = .ok rule :=
  ⟨Expression.deserialize_serialize,
    fun _ h => ⟨EvidenceSelector.deserialize_serialize h, fun _ => EvidenceSelector.dropped h⟩,
    fun _ h => ⟨EvidenceCalibration.deserialize_serialize h, fun _ => EvidenceCalibration.dropped h⟩,
    fun _ => HypothesisConclusion.deserialize_serialize, fun _ => ReasoningRule.deserialize_serialize⟩

/-- A selector of one text. -/
def tokenSelector : EvidenceSelector :=
  .equals ⟨"form", "field", by decide, by decide⟩ (.text "_token")

theorem wire_round_trip_tokenSelector :
    EvidenceSelector.deserialize tokenSelector.serialize = .ok tokenSelector ∧
      RefusedOrSame (EvidenceSelector.deserialize (.map
        [("predicate", tokenSelector.predicate.serialize), ("matcher_policy_guard", .bool true)]))
        tokenSelector := by
  obtain ⟨hread, hless⟩ := wire_round_trip.2.1 tokenSelector (by decide)
  exact ⟨hread, hless _ (.field (.entry [_] ("value", _) [_]))⟩

end Termivar
