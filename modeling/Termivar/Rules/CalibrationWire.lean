/-
# Selectors and calibrations on the wire

Predicates, evidence values, selectors and calibrations are read back from
what they are written as. A selector or a calibration with a field deleted
anywhere in its wire form is refused or read as before: the explicit `null`
and the guards keep a lost constraint from being read as none.
-/
import Termivar.Reasoning.Replay
import Termivar.Rules.Wire

namespace Termivar

open Function

/-- A value with one field deleted, at any depth. -/
inductive Data.Dropped : Data → Data → Prop
  | field {entries entries' : List (String × Data)}
      (h : Record.DroppedIn Data.Dropped entries entries') : Dropped (.map entries) (.map entries')
  | item (front : List Data) {d d' : Data} (back : List Data) (h : Dropped d d') :
      Dropped (.seq (front ++ d :: back)) (.seq (front ++ d' :: back))

/-- A reading fails, or it gives the value. -/
def RefusedOrSame {ε α : Type} (result : Except ε α) (x : α) : Prop :=
  (∃ failure, result = .error failure) ∨ result = .ok x

section Records

variable {ι α : Type} [DecidableEq ι] {T : ι → Type} {schema : Record.Schema ι Data WireError T}
  {raw : ι → Option Data} {slots : Record.Slots T} {build : Record.Slots T → Except WireError α}
  {x : α}

theorem collect_bind_encode (hrd : Record.Reads schema raw slots) (hbuild : build slots = .ok x) :
    (schema.collect (Record.encode schema.fields schema.name raw) >>= build) = .ok x := by
  rw [Record.collect_encode hrd]
  exact hbuild

theorem collect_bind_dropped {entries : List (String × Data)} (hrd : Record.Reads schema raw slots)
    (hbuild : build slots = .ok x)
    (hinside : ∀ i r r' v, raw i = some r → slots i = some v → Data.Dropped r r' →
      RefusedOrSame (schema.read i r') v)
    (hless : ∀ i, (slots i).isSome = true → RefusedOrSame (build (update slots i none)) x)
    (h : Record.DroppedIn Data.Dropped (Record.encode schema.fields schema.name raw) entries) :
    RefusedOrSame (schema.collect entries >>= build) x := by
  obtain ⟨failure, hfail⟩ | hsame | ⟨i, hi, hone⟩ := Record.collect_dropped hrd hinside h
  · rw [hfail]
    exact Or.inl ⟨failure, rfl⟩
  · rw [hsame]
    exact Or.inr hbuild
  · rw [hone]
    exact hless i hi

end Records

/-! ### Values -/

theorem readVariant_wireName {α : Type} {variants : List α} {wireName : α → String} {variant : α}
    (h : (variants.find? fun other => wireName other = wireName variant) = some variant) :
    Wire.readVariant variants wireName (.text (wireName variant)) = .ok variant := by
  simp [Wire.readVariant, h, okOr]

theorem KnowledgeLayer.deserialize_wireName (layer : KnowledgeLayer) :
    KnowledgeLayer.deserialize (.text layer.wireName) = .ok layer :=
  readVariant_wireName (by cases layer <;> decide)

theorem HypothesisState.deserialize_wireName (state : HypothesisState) :
    HypothesisState.deserialize (.text state.wireName) = .ok state :=
  readVariant_wireName (by cases state <;> decide)

theorem HypothesisStrength.deserialize_wireName (strength : HypothesisStrength) :
    HypothesisStrength.deserialize (.text strength.wireName) = .ok strength :=
  readVariant_wireName (by cases strength <;> decide)

theorem EvidenceValueType.deserialize_wireName (type : EvidenceValueType) :
    EvidenceValueType.deserialize (.text type.wireName) = .ok type :=
  readVariant_wireName (by cases type <;> decide)

theorem ExpressionOp.deserialize_wireName (op : ExpressionOp) :
    ExpressionOp.deserialize (.text op.wireName) = .ok op :=
  readVariant_wireName (by cases op <;> decide)

theorem deserializeOntologyId_value {kind : IdKind} (field : String) (id : Identifier kind) :
    deserializeOntologyId field (.text id.value) = .ok id := by
  simp [deserializeOntologyId, Wire.readText, id.notBlank, bind, Except.bind, pure, Except.pure]

theorem readProbability_serialize (p : Probability) :
    Wire.readProbability p.serialize = .ok p := by
  simp [Wire.readProbability, Except.mapError]

theorem readNullable_writeNullable {α : Type} {read : Data → Except WireError α} {write : α → Data}
    (hnull : ∀ value, write value ≠ .null) {value : Option α}
    (h : ∀ x ∈ value, read (write x) = .ok x) :
    Wire.readNullable read (Wire.writeNullable write value) = .ok value := by
  cases value with
  | none => rfl
  | some x =>
    have hread := h x rfl
    simp only [Wire.writeNullable]
    cases hwr : write x with
    | null => exact absurd hwr (hnull x)
    | _ => simp [Wire.readNullable, ← hwr, hread]

/-- A text that is skipped where it is absent. -/
theorem optionalText_reads (value : Option String) :
    (value.map Data.text = none ∧ value.map some = none) ∨ ∃ r x, value.map Data.text = some r ∧
      value.map some = some x ∧ Wire.readNullable Wire.readText r = .ok x := by
  cases value with
  | none => exact Or.inl ⟨rfl, rfl⟩
  | some value => exact Or.inr ⟨_, _, rfl, rfl, rfl⟩

/-- A guard that is skipped where it is false. -/
theorem guard_reads (guard : Bool) :
    ((if guard then some (Data.bool true) else none) = none ∧
      (if guard then some (some true) else none) = none) ∨
    ∃ r x, (if guard then some (Data.bool true) else none) = some r ∧
      (if guard then some (some true) else none) = some x ∧
      Wire.readNullable Wire.readBool r = .ok x := by
  cases guard with
  | false => exact Or.inl ⟨rfl, rfl⟩
  | true => exact Or.inr ⟨_, _, rfl, rfl, rfl⟩

/-- A list is read back if its elements are. -/
theorem mapM_map_ok {α : Type} {read : Data → Except WireError α} {write : α → Data} {xs : List α}
    (h : ∀ x ∈ xs, read (write x) = .ok x) : (xs.map write).mapM read = .ok xs := by
  rw [Checked.mapM_eq_ok_iff, List.forall₂_map_left_iff, List.forall₂_same]
  exact h

/-! ### Predicates and evidence values -/

namespace KnowledgePredicate

def slots (predicate : KnowledgePredicate) : Record.Slots fun _ : PredicateField => String
  | .namespaceName => some predicate.namespaceName
  | .name => some predicate.name

variable (predicate : KnowledgePredicate)

theorem reads :
    Record.Reads predicateSchema predicate.rawFields predicate.slots := by
  intro i
  cases i <;> exact Or.inr ⟨by decide, _, _, rfl, rfl, rfl⟩

theorem ofSlots_slots :
    ofSlots predicate.slots = .ok predicate := by
  simp [ofSlots, slots, Wire.require, okOr, KnowledgePredicate.new, predicate.namespaceNotBlank,
    predicate.nameNotBlank, bind, Except.bind, Except.mapError]

theorem deserialize_serialize :
    deserialize predicate.serialize = .ok predicate :=
  collect_bind_encode predicate.reads predicate.ofSlots_slots

theorem dropped {predicate : KnowledgePredicate} {d : Data} (h : predicate.serialize.Dropped d) :
    RefusedOrSame (deserialize d) predicate := by
  unfold serialize at h
  cases h with
  | field h =>
    refine collect_bind_dropped predicate.reads predicate.ofSlots_slots ?_ ?_ h
    · intro i r r' v hr _ hdrop
      cases i <;> cases hr <;> cases hdrop
    · intro i _
      cases i <;> exact Or.inl ⟨_, rfl⟩

end KnowledgePredicate

namespace EvidenceValue

def slots (value : EvidenceValue) : Record.Slots ValueField.Slot
  | .type => some value.wireType
  | .value => some value.content

theorem reads (value : EvidenceValue) : Record.Reads valueSchema value.rawFields value.slots := by
  intro i
  cases i with
  | type =>
    exact Or.inr ⟨by decide, _, _, rfl, rfl, EvidenceValueType.deserialize_wireName value.wireType⟩
  | value => exact Or.inr ⟨by decide, _, _, rfl, rfl, rfl⟩

theorem readContent_content {value : EvidenceValue} (h : value.inRange = true) :
    readContent value.wireType value.content = .ok value := by
  cases value with
  | boolean value => rfl
  | signed value =>
    have hrg : i64Min ≤ value ∧ value ≤ i64Max := by simpa [inRange] using h
    simp [wireType, content, readContent, Wire.readInteger, hrg]
  | unsigned value =>
    have hrg : value ≤ u64Max := of_decide_eq_true h
    simp [wireType, content, readContent, Wire.readInteger, hrg]
  | text value => rfl
  | textList values =>
    have hread := @mapM_map_ok _ Wire.readText Data.text values fun _ _ => rfl
    simp [wireType, content, readContent, Wire.readTexts, hread]

theorem ofSlots_slots {value : EvidenceValue} (h : value.inRange = true) :
    ofSlots value.slots = .ok value := readContent_content h

theorem deserialize_serialize {value : EvidenceValue} (h : value.inRange = true) :
    deserialize value.serialize = .ok value :=
  collect_bind_encode value.reads (ofSlots_slots h)

variable {d : Data}

/-- Nothing can be deleted inside of the content of a value. -/
theorem not_dropped_content {value : EvidenceValue} : ¬ value.content.Dropped d := by
  intro h
  cases value with
  | textList values =>
    generalize hseq : content (.textList values) = seq at h
    cases h with
    | field h => cases hseq
    | @item front item _ back h =>
      have hit : values.map Data.text = front ++ item :: back := Data.seq.inj hseq
      have hmem : item ∈ values.map Data.text := by simp [hit]
      obtain ⟨text, -, rfl⟩ := List.mem_map.mp hmem
      cases h
  | _ => cases h

theorem dropped {value : EvidenceValue} (hrg : value.inRange = true)
    (h : value.serialize.Dropped d) : RefusedOrSame (deserialize d) value := by
  unfold serialize at h
  cases h with
  | field h =>
    refine collect_bind_dropped value.reads (ofSlots_slots hrg) ?_ ?_ h
    · intro i r r' v hr _ hdrop
      cases i with
      | type =>
        cases hr
        cases hdrop
      | value =>
        cases hr
        exact absurd hdrop not_dropped_content
    · intro i _
      cases i <;> exact Or.inl ⟨_, rfl⟩

theorem dropped_nullable {value : Option EvidenceValue} (hrg : ∀ v ∈ value, v.inRange = true)
    (h : (Wire.writeNullable serialize value).Dropped d) :
    RefusedOrSame (Wire.readNullable deserialize d) value := by
  cases value with
  | none => cases h
  | some v =>
    obtain ⟨failure, hfail⟩ | hsame := dropped (hrg v rfl) h
    all_goals
      simp only [Wire.writeNullable, serialize] at h
      cases h
      simp only [Wire.readNullable]
    · rw [hfail]
      exact Or.inl ⟨failure, rfl⟩
    · rw [hsame]
      exact Or.inr rfl

end EvidenceValue

/-! ### Selectors -/

namespace EvidenceSelector

/-- Whether the integers of a selector are those of the source's types. -/
def inRange (selector : EvidenceSelector) : Bool := selector.value.all EvidenceValue.inRange

def slots (selector : EvidenceSelector) : Record.Slots SelectorField.Slot
  | .predicate => some selector.predicate
  | .value => some selector.value
  | .textContainsAsciiCaseInsensitive => selector.textContainsAsciiCaseInsensitive.map some
  | .textListContainsExact => selector.textListContainsExact.map some
  | .matcherPolicyGuard => if selector.matcherPolicyGuard then some (some true) else none

theorem reads {selector : EvidenceSelector} (h : selector.inRange = true) :
    Record.Reads selectorSchema selector.rawFields selector.slots := by
  have hvalue : Wire.readNullable EvidenceValue.deserialize
      (Wire.writeNullable EvidenceValue.serialize selector.value) = .ok selector.value := by
    refine readNullable_writeNullable nofun fun value hmem => ?_
    exact EvidenceValue.deserialize_serialize (by simpa [inRange, Option.mem_def.mp hmem] using h)
  intro i
  cases i with
  | predicate =>
    exact Or.inr ⟨by decide, _, _, rfl, rfl, selector.predicate.deserialize_serialize⟩
  | value => exact Or.inr ⟨by decide, _, _, rfl, rfl, hvalue⟩
  | textContainsAsciiCaseInsensitive =>
    exact (optionalText_reads selector.textContainsAsciiCaseInsensitive).imp id fun h => ⟨by decide, h⟩
  | textListContainsExact =>
    exact (optionalText_reads selector.textListContainsExact).imp id fun h => ⟨by decide, h⟩
  | matcherPolicyGuard =>
    exact (guard_reads selector.matcherPolicyGuard).imp id fun h => ⟨by decide, h⟩

variable (selector : EvidenceSelector)

/-- A selector passes the checks with its guard or with none. -/
theorem ofWire_self {guard : Option Bool}
    (h : ∀ g ∈ guard, g = true ∧ selector.matcherPolicyGuard = true) :
    ofWire selector.predicate selector.value selector.textContainsAsciiCaseInsensitive
      selector.textListContainsExact guard = .ok selector := by
  have hgd : (guard.any fun guard => !guard || matcherCount selector.value
      selector.textContainsAsciiCaseInsensitive selector.textListContainsExact ≠ 1) = false := by
    cases guard with
    | none => rfl
    | some g =>
      obtain ⟨rfl, hg⟩ := h g rfl
      have hcnt := selector.guarded.symm.trans hg
      simpa using hcnt
  unfold ofWire
  rw [dif_pos selector.single, hgd, dif_pos selector.needleNotBlank,
    dif_pos selector.listValueNotBlank]
  have hself := selector.guarded
  cases selector
  simp_all

/-- The slots of a selector as its checks see them. -/
theorem ofSlots_eq {slots : Record.Slots SelectorField.Slot} {predicate : KnowledgePredicate}
    {value : Option EvidenceValue} (hpred : slots .predicate = some predicate)
    (hvalue : slots .value = some value) :
    ofSlots slots = ofWire predicate value ((slots .textContainsAsciiCaseInsensitive).getD none)
      ((slots .textListContainsExact).getD none) ((slots .matcherPolicyGuard).getD none) := by
  simp only [ofSlots, hpred, hvalue]
  rfl

theorem getD_slots_needle :
    (selector.slots .textContainsAsciiCaseInsensitive).getD none =
      selector.textContainsAsciiCaseInsensitive := by
  cases h : selector.textContainsAsciiCaseInsensitive <;> simp only [slots, h] <;> rfl

theorem getD_slots_listValue :
    (selector.slots .textListContainsExact).getD none = selector.textListContainsExact := by
  cases h : selector.textListContainsExact <;> simp only [slots, h] <;> rfl

theorem getD_slots_guard :
    (selector.slots .matcherPolicyGuard).getD none =
      (if selector.matcherPolicyGuard then some true else none : Option Bool) := by
  cases h : selector.matcherPolicyGuard <;> simp only [slots, h] <;> rfl

theorem ofSlots_slots : ofSlots selector.slots = .ok selector := by
  rw [ofSlots_eq rfl rfl, getD_slots_needle, getD_slots_listValue, getD_slots_guard]
  refine selector.ofWire_self fun g hg => ?_
  cases h : selector.matcherPolicyGuard <;> simp_all

theorem deserialize_serialize {selector : EvidenceSelector} (h : selector.inRange = true) :
    deserialize selector.serialize = .ok selector :=
  collect_bind_encode (reads h) selector.ofSlots_slots

/-- A selector with one constraint has no other, and is guarded. -/
theorem only_needle {selector : EvidenceSelector} {needle : String}
    (h : selector.textContainsAsciiCaseInsensitive = some needle) :
    selector.value = none ∧ selector.textListContainsExact = none ∧
      selector.matcherPolicyGuard = true := by
  have hsingle := selector.single
  have hguar := selector.guarded
  cases hvalue : selector.value <;> cases hlist : selector.textListContainsExact <;>
    simp_all [matcherCount]

theorem only_listValue {selector : EvidenceSelector} {value : String}
    (h : selector.textListContainsExact = some value) :
    selector.value = none ∧ selector.textContainsAsciiCaseInsensitive = none ∧
      selector.matcherPolicyGuard = true := by
  have hsingle := selector.single
  have hguar := selector.guarded
  cases hvalue : selector.value <;> cases hneedle : selector.textContainsAsciiCaseInsensitive <;>
    simp_all [matcherCount]

/-- Without its one constraint a guarded selector is refused. -/
theorem ofWire_unconstrained (predicate : KnowledgePredicate) :
    ∃ failure, ofWire predicate none none none (some true) = .error failure :=
  ⟨_, rfl⟩

/-- A selector without one of its fields. -/
theorem ofSlots_less (i : SelectorField) (hi : (selector.slots i).isSome = true) :
    RefusedOrSame (ofSlots (update selector.slots i none)) selector := by
  cases i with
  | predicate => exact Or.inl ⟨_, rfl⟩
  | value => exact Or.inl ⟨_, rfl⟩
  | textContainsAsciiCaseInsensitive =>
    cases hneedle : selector.textContainsAsciiCaseInsensitive with
    | none =>
      rw [slots, hneedle] at hi
      cases hi
    | some needle =>
      obtain ⟨hvalue, hlist, hgd⟩ := only_needle hneedle
      refine Or.inl ?_
      rw [ofSlots_eq rfl rfl]
      simp only [update_self, ne_eq, reduceCtorEq, not_false_eq_true,
        update_of_ne, getD_slots_listValue, getD_slots_guard, hvalue, hlist, hgd]
      exact ofWire_unconstrained selector.predicate
  | textListContainsExact =>
    cases hlist : selector.textListContainsExact with
    | none =>
      rw [slots, hlist] at hi
      cases hi
    | some value =>
      obtain ⟨hvalue, hneedle, hgd⟩ := only_listValue hlist
      refine Or.inl ?_
      rw [ofSlots_eq rfl rfl]
      simp only [update_self, ne_eq, reduceCtorEq, not_false_eq_true,
        update_of_ne, getD_slots_needle, getD_slots_guard, hvalue, hneedle, hgd]
      exact ofWire_unconstrained selector.predicate
  | matcherPolicyGuard =>
    refine Or.inr ?_
    rw [ofSlots_eq rfl rfl]
    simp only [update_self, ne_eq, reduceCtorEq, not_false_eq_true,
      update_of_ne, getD_slots_needle, getD_slots_listValue]
    exact selector.ofWire_self nofun

/-- A selector with a field deleted is refused or the same. -/
theorem dropped {selector : EvidenceSelector} {d : Data} (hrg : selector.inRange = true)
    (h : selector.serialize.Dropped d) : RefusedOrSame (deserialize d) selector := by
  unfold serialize at h
  cases h with
  | field h =>
    refine collect_bind_dropped (reads hrg) selector.ofSlots_slots ?_ selector.ofSlots_less h
    intro i r r' v hr hv hdrop
    cases i with
    | predicate =>
      cases hr
      cases hv
      exact KnowledgePredicate.dropped hdrop
    | value =>
      cases hr
      cases hv
      refine EvidenceValue.dropped_nullable (fun value hvalue => ?_) hdrop
      simpa [inRange, Option.mem_def.mp hvalue] using hrg
    | textContainsAsciiCaseInsensitive =>
      obtain ⟨text, -, rfl⟩ := Option.map_eq_some_iff.mp hr
      cases hdrop
    | textListContainsExact =>
      obtain ⟨text, -, rfl⟩ := Option.map_eq_some_iff.mp hr
      cases hdrop
    | matcherPolicyGuard =>
      simp only [rawFields] at hr
      split at hr <;> cases hr
      cases hdrop

end EvidenceSelector

/-! ### Calibrations -/

namespace EvidenceAggregation

theorem deserialize_serialize (aggregation : EvidenceAggregation) :
    deserialize aggregation.serialize = .ok aggregation := by
  cases aggregation with
  | independent => rfl
  | maxContributions limit positive bounded =>
    have hread : readLimit (.integer limit) = .ok ⟨limit, positive, bounded⟩ := by
      simp [readLimit, Wire.readInteger, positive, bounded, bind, Except.bind, pure, Except.pure]
    have hrd : Record.Reads limitSchema (fun _ => some (.integer limit))
        fun _ => some ⟨limit, positive, bounded⟩ :=
      fun i => Or.inr ⟨by cases i; decide, _, _, rfl, rfl, hread⟩
    have hcoll : limitSchema.collect [("limit", .integer limit)] =
        .ok fun _ => some ⟨limit, positive, bounded⟩ := Record.collect_encode hrd
    have htag : Record.takeTag "mode" AggregationMode.deserialize (.duplicateField "mode")
        (.missingField "mode") [("mode", .text "max_contributions"), ("limit", .integer limit)] =
        .ok (.maxContributions, [("limit", .integer limit)]) := rfl
    simp only [serialize, deserialize, htag, bind, Except.bind, ofContent, hcoll]
    rfl

/-- A policy with a field deleted is refused. -/
theorem dropped {aggregation : EvidenceAggregation} {d : Data} (h : aggregation.serialize.Dropped d) :
    ∃ failure, deserialize d = .error failure := by
  cases aggregation with
  | independent =>
    cases h with
    | field h =>
      obtain rfl | ⟨value', hdrop, -⟩ | ⟨rest', -, hrest⟩ := Record.droppedIn_cons h
      · exact ⟨_, rfl⟩
      · cases hdrop
      · exact absurd hrest Record.not_droppedIn_nil
  | maxContributions limit _ _ =>
    cases h with
    | field h =>
      obtain rfl | ⟨value', hdrop, -⟩ | ⟨rest', rfl, hrest⟩ := Record.droppedIn_cons h
      · exact ⟨_, rfl⟩
      · cases hdrop
      · obtain rfl | ⟨value', hdrop, -⟩ | ⟨rest', -, hrest⟩ := Record.droppedIn_cons hrest
        · exact ⟨_, rfl⟩
        · cases hdrop
        · exact absurd hrest Record.not_droppedIn_nil

end EvidenceAggregation

namespace EvidenceCalibration

def inRange (calibration : EvidenceCalibration) : Bool := calibration.selector.inRange

def slots (calibration : EvidenceCalibration) : Record.Slots CalibrationField.Slot
  | .selector => some calibration.selector
  | .likelihoodIfTrue => some calibration.likelihoodIfTrue
  | .likelihoodIfFalse => some calibration.likelihoodIfFalse
  | .rationale => some calibration.rationale
  | .aggregation =>
    if calibration.aggregation.isIndependent then none else some calibration.aggregation
  | .aggregationPolicyGuard =>
    if calibration.aggregationPolicyGuard then some (some true) else none

theorem reads {calibration : EvidenceCalibration} (h : calibration.inRange = true) :
    Record.Reads calibrationSchema calibration.rawFields calibration.slots := by
  intro i
  cases i with
  | selector =>
    exact Or.inr ⟨by decide, _, _, rfl, rfl, EvidenceSelector.deserialize_serialize h⟩
  | likelihoodIfTrue => exact Or.inr ⟨by decide, _, _, rfl, rfl, readProbability_serialize _⟩
  | likelihoodIfFalse => exact Or.inr ⟨by decide, _, _, rfl, rfl, readProbability_serialize _⟩
  | rationale => exact Or.inr ⟨by decide, _, _, rfl, rfl, rfl⟩
  | aggregation =>
    cases hind : calibration.aggregation.isIndependent with
    | true => exact Or.inl ⟨if_pos hind, if_pos hind⟩
    | false =>
      have hne : ¬ calibration.aggregation.isIndependent = true := by simp [hind]
      exact Or.inr ⟨by decide, _, _, if_neg hne, if_neg hne,
        calibration.aggregation.deserialize_serialize⟩
  | aggregationPolicyGuard =>
    exact (guard_reads calibration.aggregationPolicyGuard).imp id fun h => ⟨by decide, h⟩

variable (calibration : EvidenceCalibration)

theorem withAggregation_self :
    calibration.withAggregation calibration.aggregation = calibration := by
  have hguar := calibration.guarded
  cases calibration
  simp_all [withAggregation]

/-- A calibration passes the checks with its guard or with none. -/
theorem ofWire_self {guard : Option Bool}
    (h : ∀ g ∈ guard, g = true ∧ calibration.aggregationPolicyGuard = true) :
    ofWire calibration.selector calibration.likelihoodIfTrue calibration.likelihoodIfFalse
      calibration.rationale calibration.aggregation guard = .ok calibration := by
  have hgd : (guard.any fun guard => !guard || calibration.aggregation.isIndependent) = false := by
    cases guard with
    | none => rfl
    | some g =>
      obtain ⟨rfl, hg⟩ := h g rfl
      simpa [calibration.guarded] using hg
  have hself := calibration.withAggregation_self
  simp only [ofWire, hgd, EvidenceCalibration.new, nonEmpty, calibration.rationaleNotBlank, bind,
    Except.bind, pure, Except.pure, Except.mapError]
  exact congrArg Except.ok hself

/-- Without its policy a guarded calibration is refused. -/
theorem ofWire_unbounded (selector : EvidenceSelector) (likelihoodIfTrue likelihoodIfFalse : Probability)
    (rationale : String) : ∃ failure, ofWire selector likelihoodIfTrue likelihoodIfFalse rationale
      .independent (some true) = .error failure :=
  ⟨_, rfl⟩

theorem getD_slots_aggregation :
    (calibration.slots .aggregation).getD .independent = calibration.aggregation := by
  cases h : calibration.aggregation <;> simp only [slots, h] <;> rfl

theorem getD_slots_guard :
    (calibration.slots .aggregationPolicyGuard).getD none =
      (if calibration.aggregationPolicyGuard then some true else none : Option Bool) := by
  cases h : calibration.aggregationPolicyGuard <;> simp only [slots, h] <;> rfl

theorem ofSlots_slots :
    ofSlots calibration.slots = .ok calibration := by
  change ofWire calibration.selector calibration.likelihoodIfTrue calibration.likelihoodIfFalse
    calibration.rationale ((calibration.slots .aggregation).getD .independent)
    ((calibration.slots .aggregationPolicyGuard).getD none) = _
  rw [getD_slots_aggregation, getD_slots_guard]
  refine calibration.ofWire_self fun g hg => ?_
  cases h : calibration.aggregationPolicyGuard <;> simp_all

theorem deserialize_serialize {calibration : EvidenceCalibration} (h : calibration.inRange = true) :
    deserialize calibration.serialize = .ok calibration :=
  collect_bind_encode (reads h) calibration.ofSlots_slots

/-- A calibration without one of its fields. -/
theorem ofSlots_less (i : CalibrationField) (hi : (calibration.slots i).isSome = true) :
    RefusedOrSame (ofSlots (update calibration.slots i none)) calibration := by
  cases i with
  | aggregation =>
    -- only a bounded policy is written, and it is guarded
    have hbdd : calibration.aggregation.isIndependent = false := by
      by_contra hne
      rw [Bool.not_eq_false] at hne
      simp only [slots, hne] at hi
      cases hi
    have hgd : calibration.aggregationPolicyGuard = true := by
      rw [calibration.guarded, hbdd]
      rfl
    refine Or.inl ?_
    change ∃ failure, ofWire calibration.selector calibration.likelihoodIfTrue
      calibration.likelihoodIfFalse calibration.rationale .independent
      ((calibration.slots .aggregationPolicyGuard).getD none) = .error failure
    rw [getD_slots_guard, hgd]
    exact ofWire_unbounded _ _ _ _
  | aggregationPolicyGuard =>
    refine Or.inr ?_
    change ofWire calibration.selector calibration.likelihoodIfTrue calibration.likelihoodIfFalse
      calibration.rationale ((calibration.slots .aggregation).getD .independent) none = _
    rw [getD_slots_aggregation]
    exact calibration.ofWire_self nofun
  | _ => exact Or.inl ⟨_, rfl⟩

/-- A calibration with a field deleted is refused or the same. -/
theorem dropped {calibration : EvidenceCalibration} {d : Data} (hrg : calibration.inRange = true)
    (h : calibration.serialize.Dropped d) : RefusedOrSame (deserialize d) calibration := by
  unfold serialize at h
  cases h with
  | field h =>
    refine collect_bind_dropped (reads hrg) calibration.ofSlots_slots ?_ calibration.ofSlots_less h
    intro i r r' v hr hv hdrop
    cases i with
    | selector =>
      cases hr
      cases hv
      exact EvidenceSelector.dropped hrg hdrop
    | aggregation =>
      simp only [rawFields] at hr
      split at hr <;> cases hr
      exact Or.inl (EvidenceAggregation.dropped hdrop)
    | aggregationPolicyGuard =>
      simp only [rawFields] at hr
      split at hr <;> cases hr
      cases hdrop
    | _ =>
      cases hr
      cases hdrop

end EvidenceCalibration

end Termivar
