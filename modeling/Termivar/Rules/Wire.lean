/-
# The wire form of rules

`termivar-scanner/src/rules/{expression,registry}.rs` and the records of
`termivar-core` they are made of: what a condition, a selector, a calibration,
a conclusion and a rule are written as, and how they are read. A claim and a
selector have an explicit `null` where they ask for existence only; a selector
with a constraint and a bounded calibration carry a guard. Only the form with
named fields is modelled, and an error keeps its cause in place of its text.
-/
import Termivar.Record
import Termivar.Rules.Registry

namespace Termivar

/-- Why a record of a rule is not read. -/
inductive WireError where
  | decode (failure : DecodeError)
  | unknownField (name : String)
  | unknownVariant (name : String)
  | reasoning (failure : ReasoningModelError)
  | ontology (failure : OntologyError)
  | rule (failure : RuleEngineError)
  deriving DecidableEq

namespace WireError

def invalidType : WireError := .decode .invalidType

def invalidValue : WireError := .decode .invalidValue

def missingField (name : String) : WireError := .decode (.missingField name)

def duplicateField (name : String) : WireError := .decode (.duplicateField name)

def custom (message : String) : WireError := .decode (.custom message)

end WireError

/-! ### Values -/

namespace Wire

def readText : Data → Except WireError String
  | .text value => .ok value
  | _ => .error .invalidType

def readBool : Data → Except WireError Bool
  | .bool value => .ok value
  | _ => .error .invalidType

/-- An integer of a machine type. -/
def readInteger (low high : Int) : Data → Except WireError Int
  | .integer value => if low ≤ value ∧ value ≤ high then .ok value else .error .invalidValue
  | _ => .error .invalidType

def readTexts : Data → Except WireError (List String)
  | .seq items => items.mapM readText
  | _ => .error .invalidType

/-- An `Option`, absent where the value is null. -/
def readNullable {α : Type} (read : Data → Except WireError α) : Data → Except WireError (Option α)
  | .null => .ok none
  | data => some <$> read data

def writeNullable {α : Type} (write : α → Data) : Option α → Data
  | none => .null
  | some value => write value

/-- A variant without content, by its name. -/
def readVariant {α : Type} (variants : List α) (wireName : α → String) :
    Data → Except WireError α
  | .text name => okOr (variants.find? fun variant => wireName variant = name) (.unknownVariant name)
  | _ => .error .invalidType

/-- The value of a field that must be there. -/
def require {α : Type} (name : String) (slot : Option α) : Except WireError α :=
  okOr slot (.missingField name)

def readProbability (data : Data) : Except WireError Probability :=
  (Probability.deserialize data).mapError .decode

end Wire

def KnowledgeLayer.wireName : KnowledgeLayer → String
  | .evidence => "evidence"
  | .fact => "fact"
  | .hypothesis => "hypothesis"

def KnowledgeLayer.deserialize : Data → Except WireError KnowledgeLayer :=
  Wire.readVariant [.evidence, .fact, .hypothesis] KnowledgeLayer.wireName

def HypothesisState.wireName : HypothesisState → String
  | .proposed => "proposed"
  | .supported => "supported"
  | .contradicted => "contradicted"
  | .confirmed => "confirmed"
  | .rejected => "rejected"

def HypothesisState.deserialize : Data → Except WireError HypothesisState :=
  Wire.readVariant [.proposed, .supported, .contradicted, .confirmed, .rejected]
    HypothesisState.wireName

def HypothesisStrength.wireName : HypothesisStrength → String
  | .weak => "weak"
  | .strong => "strong"

def HypothesisStrength.deserialize : Data → Except WireError HypothesisStrength :=
  Wire.readVariant [.weak, .strong] HypothesisStrength.wireName

/-- `ConceptId` and `RelationTypeId`: a text that is not blank. -/
def deserializeOntologyId {kind : IdKind} (field : String) (data : Data) :
    Except WireError (Identifier kind) := do
  let value ← Wire.readText data
  if h : isBlank value = false then return ⟨value, h⟩
  else throw (.ontology (.emptyValue field))

def ConceptId.deserialize : Data → Except WireError ConceptId := deserializeOntologyId "concept id"

def RelationTypeId.deserialize : Data → Except WireError RelationTypeId :=
  deserializeOntologyId "relation type id"

/-! ### Predicates -/

inductive PredicateField where
  | namespaceName
  | name
  deriving DecidableEq

def predicateSchema : Record.Schema PredicateField Data WireError fun _ => String where
  fields := [.namespaceName, .name]
  name
    | .namespaceName => "namespace"
    | .name => "name"
  read _ := Wire.readText
  duplicate := .duplicateField
  unknown := none
  nodup := by decide
  named := by decide

namespace KnowledgePredicate

/-- `KnowledgePredicate::new`. -/
def new (namespaceName name : String) : Except ReasoningModelError KnowledgePredicate :=
  if namespaceNotBlank : isBlank namespaceName = false then
    if nameNotBlank : isBlank name = false then
      .ok { namespaceName, name, namespaceNotBlank, nameNotBlank }
    else .error (.emptyValue "predicate name")
  else .error (.emptyValue "predicate namespace")

def rawFields (predicate : KnowledgePredicate) : PredicateField → Option Data
  | .namespaceName => some (.text predicate.namespaceName)
  | .name => some (.text predicate.name)

def serialize (predicate : KnowledgePredicate) : Data :=
  .map (Record.encode predicateSchema.fields predicateSchema.name predicate.rawFields)

def ofSlots (slots : Record.Slots fun _ : PredicateField => String) :
    Except WireError KnowledgePredicate := do
  let namespaceName ← Wire.require "namespace" (slots .namespaceName)
  let name ← Wire.require "name" (slots .name)
  (KnowledgePredicate.new namespaceName name).mapError .reasoning

def deserialize : Data → Except WireError KnowledgePredicate
  | .map entries => do ofSlots (← predicateSchema.collect entries)
  | _ => .error .invalidType

end KnowledgePredicate

/-! ### Evidence values -/

/-- The tag of an evidence value. -/
inductive EvidenceValueType where
  | boolean
  | signed
  | unsigned
  | text
  | textList
  deriving DecidableEq

def EvidenceValueType.wireName : EvidenceValueType → String
  | .boolean => "boolean"
  | .signed => "signed"
  | .unsigned => "unsigned"
  | .text => "text"
  | .textList => "text_list"

def EvidenceValueType.deserialize : Data → Except WireError EvidenceValueType :=
  Wire.readVariant [.boolean, .signed, .unsigned, .text, .textList] EvidenceValueType.wireName

inductive ValueField where
  | type
  | value
  deriving DecidableEq

/-- The content of a value is kept until its tag is known. -/
def ValueField.Slot : ValueField → Type
  | .type => EvidenceValueType
  | .value => Data

def valueSchema : Record.Schema ValueField Data WireError ValueField.Slot where
  fields := [.type, .value]
  name
    | .type => "type"
    | .value => "value"
  read
    | .type => EvidenceValueType.deserialize
    | .value => Except.ok
  duplicate := .duplicateField
  unknown := none
  nodup := by decide
  named := by decide

def i64Min : Int := -2 ^ 63

def i64Max : Int := 2 ^ 63 - 1

namespace EvidenceValue

def wireType : EvidenceValue → EvidenceValueType
  | .boolean _ => .boolean
  | .signed _ => .signed
  | .unsigned _ => .unsigned
  | .text _ => .text
  | .textList _ => .textList

def content : EvidenceValue → Data
  | .boolean value => .bool value
  | .signed value => .integer value
  | .unsigned value => .integer value
  | .text value => .text value
  | .textList values => .seq (values.map .text)

/-- Whether the integers are those of the source's types. -/
def inRange : EvidenceValue → Bool
  | .signed value => i64Min ≤ value && value ≤ i64Max
  | .unsigned value => value ≤ u64Max
  | _ => true

def rawFields (value : EvidenceValue) : ValueField → Option Data
  | .type => some (.text value.wireType.wireName)
  | .value => some value.content

def serialize (value : EvidenceValue) : Data :=
  .map (Record.encode valueSchema.fields valueSchema.name value.rawFields)

def readContent : EvidenceValueType → Data → Except WireError EvidenceValue
  | .boolean, data => .boolean <$> Wire.readBool data
  | .signed, data => .signed <$> Wire.readInteger i64Min i64Max data
  | .unsigned, data => (fun value => .unsigned value.toNat) <$> Wire.readInteger 0 u64Max data
  | .text, data => .text <$> Wire.readText data
  | .textList, data => .textList <$> Wire.readTexts data

def ofSlots (slots : Record.Slots ValueField.Slot) : Except WireError EvidenceValue := do
  let type ← Wire.require "type" (slots .type)
  let content ← Wire.require "value" (slots .value)
  readContent type content

def deserialize : Data → Except WireError EvidenceValue
  | .map entries => do ofSlots (← valueSchema.collect entries)
  | _ => .error .invalidType

end EvidenceValue

/-! ### Conditions -/

/-- The operation of a node. -/
inductive ExpressionOp where
  | all
  | any
  | negate
  | claim
  | textContains
  | textListContainsExact
  | ontologyRelation
  deriving DecidableEq

def ExpressionOp.wireName : ExpressionOp → String
  | .all => "all"
  | .any => "any"
  | .negate => "not"
  | .claim => "claim"
  | .textContains => "text_contains"
  | .textListContainsExact => "text_list_contains_exact"
  | .ontologyRelation => "ontology_relation"

def ExpressionOp.deserialize : Data → Except WireError ExpressionOp :=
  Wire.readVariant [.all, .any, .negate, .claim, .textContains, .textListContainsExact,
    .ontologyRelation] ExpressionOp.wireName

/-- The fields of all operations. Two of them have a field `value`. -/
inductive ExpressionField where
  | expressions
  | expression
  | layer
  | predicate
  | claimed
  | needle
  | asciiCaseInsensitive
  | exact
  | subject
  | relation
  | object
  deriving DecidableEq

def ExpressionField.name : ExpressionField → String
  | .expressions => "expressions"
  | .expression => "expression"
  | .layer => "layer"
  | .predicate => "predicate"
  | .claimed => "value"
  | .needle => "needle"
  | .asciiCaseInsensitive => "ascii_case_insensitive"
  | .exact => "value"
  | .subject => "subject"
  | .relation => "relation"
  | .object => "object"

def ExpressionField.Slot : ExpressionField → Type
  | .expressions => List Expression
  | .expression => Expression
  | .layer => KnowledgeLayer
  | .predicate => KnowledgePredicate
  | .claimed => Option EvidenceValue
  | .needle => String
  | .asciiCaseInsensitive => Bool
  | .exact => String
  | .subject => ConceptId
  | .relation => RelationTypeId
  | .object => ConceptId

/-- The fields of an operation. -/
def ExpressionOp.fields : ExpressionOp → List ExpressionField
  | .all => [.expressions]
  | .any => [.expressions]
  | .negate => [.expression]
  | .claim => [.layer, .predicate, .claimed]
  | .textContains => [.layer, .predicate, .needle, .asciiCaseInsensitive]
  | .textListContainsExact => [.layer, .predicate, .exact]
  | .ontologyRelation => [.subject, .relation, .object]

/-- A value, with what it is read as if it stands for a condition or for a list
of conditions. -/
structure RawValue where
  data : Data
  expression : Except WireError Expression
  expressions : Except WireError (List Expression)

def ExpressionField.read : (i : ExpressionField) → RawValue → Except WireError i.Slot
  | .expressions, raw => raw.expressions
  | .expression, raw => raw.expression
  | .layer, raw => KnowledgeLayer.deserialize raw.data
  | .predicate, raw => KnowledgePredicate.deserialize raw.data
  | .claimed, raw => Wire.readNullable EvidenceValue.deserialize raw.data
  | .needle, raw => Wire.readText raw.data
  | .asciiCaseInsensitive, raw => Wire.readBool raw.data
  | .exact, raw => Wire.readText raw.data
  | .subject, raw => ConceptId.deserialize raw.data
  | .relation, raw => RelationTypeId.deserialize raw.data
  | .object, raw => ConceptId.deserialize raw.data

def expressionSchema (op : ExpressionOp) :
    Record.Schema ExpressionField RawValue WireError ExpressionField.Slot where
  fields := op.fields
  name := ExpressionField.name
  read := ExpressionField.read
  duplicate := .duplicateField
  unknown := some .unknownField
  nodup := by cases op <;> decide
  named := by cases op <;> decide

namespace Expression

def op : Expression → ExpressionOp
  | .all _ => .all
  | .any _ => .any
  | .negate _ => .negate
  | .claim _ _ _ => .claim
  | .textContains _ _ _ _ => .textContains
  | .textListContainsExact _ _ _ => .textListContainsExact
  | .ontologyRelation _ _ _ => .ontologyRelation

/-- The fields of a leaf. -/
def rawLeaf : Expression → ExpressionField → Option Data
  | .claim layer _ _, .layer => some (.text layer.wireName)
  | .claim _ predicate _, .predicate => some predicate.serialize
  | .claim _ _ value, .claimed => some (Wire.writeNullable EvidenceValue.serialize value)
  | .textContains layer _ _ _, .layer => some (.text layer.wireName)
  | .textContains _ predicate _ _, .predicate => some predicate.serialize
  | .textContains _ _ needle _, .needle => some (.text needle)
  | .textContains _ _ _ insensitive, .asciiCaseInsensitive => some (.bool insensitive)
  | .textListContainsExact layer _ _, .layer => some (.text layer.wireName)
  | .textListContainsExact _ predicate _, .predicate => some predicate.serialize
  | .textListContainsExact _ _ value, .exact => some (.text value)
  | .ontologyRelation subject _ _, .subject => some (.text subject.value)
  | .ontologyRelation _ relation _, .relation => some (.text relation.value)
  | .ontologyRelation _ _ object, .object => some (.text object.value)
  | _, _ => none

/-- A node: its operation and its fields. -/
def writeNode (op : ExpressionOp) (raw : ExpressionField → Option Data) : Data :=
  .map (("op", .text op.wireName) :: Record.encode op.fields ExpressionField.name raw)

mutual

def serialize : Expression → Data
  | .all es => writeNode .all fun
      | .expressions => some (.seq (serializeEach es))
      | _ => none
  | .any es => writeNode .any fun
      | .expressions => some (.seq (serializeEach es))
      | _ => none
  | .negate e => writeNode .negate fun
      | .expression => some (serialize e)
      | _ => none
  | e => writeNode e.op e.rawLeaf

def serializeEach : List Expression → List Data
  | [] => []
  | e :: es => serialize e :: serializeEach es

end

def ofSlots (op : ExpressionOp) (slots : Record.Slots ExpressionField.Slot) :
    Except WireError Expression :=
  match op with
  | .all => do
    let expressions ← Wire.require "expressions" (slots .expressions)
    (allOf expressions).mapError .rule
  | .any => do
    let expressions ← Wire.require "expressions" (slots .expressions)
    (anyOf expressions).mapError .rule
  | .negate => do return .negate (← Wire.require "expression" (slots .expression))
  | .claim => do
    let layer ← Wire.require "layer" (slots .layer)
    let predicate ← Wire.require "predicate" (slots .predicate)
    match slots .claimed with
    | some value => return .claim layer predicate value
    | none => throw (.custom "claim expression value field must be present; use null for existence")
  | .textContains => do
    let layer ← Wire.require "layer" (slots .layer)
    let predicate ← Wire.require "predicate" (slots .predicate)
    let needle ← Wire.require "needle" (slots .needle)
    let insensitive ← Wire.require "ascii_case_insensitive" (slots .asciiCaseInsensitive)
    (textMatch layer predicate needle insensitive).mapError .rule
  | .textListContainsExact => do
    let layer ← Wire.require "layer" (slots .layer)
    let predicate ← Wire.require "predicate" (slots .predicate)
    let value ← Wire.require "value" (slots .exact)
    (textListMatch layer predicate value).mapError .rule
  | .ontologyRelation => do
    let subject ← Wire.require "subject" (slots .subject)
    let relation ← Wire.require "relation" (slots .relation)
    let object ← Wire.require "object" (slots .object)
    return .ontologyRelation subject relation object

/-- A node, with its values read where they stand for conditions. -/
def readNode (entries : List (String × RawValue)) : Except WireError Expression := do
  let (op, content) ← Record.takeTag "op" (fun raw => ExpressionOp.deserialize raw.data)
    (.duplicateField "op") (.missingField "op") entries
  ofSlots op (← (expressionSchema op).collect content)

mutual

def deserialize : Data → Except WireError Expression
  | .map entries => readNode (deserializeValues entries)
  | _ => .error .invalidType

def deserializeAll : Data → Except WireError (List Expression)
  | .seq items => deserializeItems items
  | _ => .error .invalidType

def deserializeItems : List Data → Except WireError (List Expression)
  | [] => .ok []
  | item :: items => do
    let e ← deserialize item
    let es ← deserializeItems items
    return e :: es

def deserializeValues : List (String × Data) → List (String × RawValue)
  | [] => []
  | (name, data) :: entries =>
    (name, ⟨data, deserialize data, deserializeAll data⟩) :: deserializeValues entries

end

end Expression

/-! ### Selectors -/

inductive SelectorField where
  | predicate
  | value
  | textContainsAsciiCaseInsensitive
  | textListContainsExact
  | matcherPolicyGuard
  deriving DecidableEq

def SelectorField.Slot : SelectorField → Type
  | .predicate => KnowledgePredicate
  | .value => Option EvidenceValue
  | .textContainsAsciiCaseInsensitive => Option String
  | .textListContainsExact => Option String
  | .matcherPolicyGuard => Option Bool

def selectorSchema : Record.Schema SelectorField Data WireError SelectorField.Slot where
  fields := [.predicate, .value, .textContainsAsciiCaseInsensitive, .textListContainsExact,
    .matcherPolicyGuard]
  name
    | .predicate => "predicate"
    | .value => "value"
    | .textContainsAsciiCaseInsensitive => "text_contains_ascii_case_insensitive"
    | .textListContainsExact => "text_list_contains_exact"
    | .matcherPolicyGuard => "matcher_policy_guard"
  read
    | .predicate => KnowledgePredicate.deserialize
    | .value => Wire.readNullable EvidenceValue.deserialize
    | .textContainsAsciiCaseInsensitive => Wire.readNullable Wire.readText
    | .textListContainsExact => Wire.readNullable Wire.readText
    | .matcherPolicyGuard => Wire.readNullable Wire.readBool
  duplicate := .duplicateField
  unknown := some .unknownField
  nodup := by decide
  named := by decide

namespace EvidenceSelector

def rawFields (selector : EvidenceSelector) : SelectorField → Option Data
  | .predicate => some selector.predicate.serialize
  | .value => some (Wire.writeNullable EvidenceValue.serialize selector.value)
  | .textContainsAsciiCaseInsensitive => selector.textContainsAsciiCaseInsensitive.map .text
  | .textListContainsExact => selector.textListContainsExact.map .text
  | .matcherPolicyGuard => if selector.matcherPolicyGuard then some (.bool true) else none

def serialize (selector : EvidenceSelector) : Data :=
  .map (Record.encode selectorSchema.fields selectorSchema.name selector.rawFields)

/-- The checks of a selector that was read. -/
def ofWire (predicate : KnowledgePredicate) (value : Option EvidenceValue)
    (needle listValue : Option String) (guard : Option Bool) : Except WireError EvidenceSelector :=
  if single : matcherCount value needle listValue ≤ 1 then
    if guard.any fun guard => !guard || matcherCount value needle listValue ≠ 1 then
      .error (.custom "evidence selector matcher compatibility guard is inconsistent")
    else if needleNotBlank : needle.all (!isBlank ·) = true then
      if listValueNotBlank : listValue.all (!isBlank ·) = true then
        .ok { predicate, value
              textContainsAsciiCaseInsensitive := needle
              textListContainsExact := listValue
              matcherPolicyGuard := matcherCount value needle listValue = 1
              single, guarded := rfl, needleNotBlank, listValueNotBlank }
      else .error (.rule (.emptyValue "evidence-selector text-list exact value"))
    else .error (.rule (.emptyValue "evidence-selector text needle"))
  else .error (.custom "evidence selector cannot combine exact, text, and text-list matching")

def ofSlots (slots : Record.Slots SelectorField.Slot) : Except WireError EvidenceSelector := do
  let predicate ← Wire.require "predicate" (slots .predicate)
  match slots .value with
  | none =>
    throw (.custom
      "evidence selector value field must be present; use null for predicate existence")
  | some value =>
    ofWire predicate value ((slots .textContainsAsciiCaseInsensitive).getD none)
      ((slots .textListContainsExact).getD none) ((slots .matcherPolicyGuard).getD none)

def deserialize : Data → Except WireError EvidenceSelector
  | .map entries => do ofSlots (← selectorSchema.collect entries)
  | _ => .error .invalidType

end EvidenceSelector

/-! ### Calibrations -/

inductive AggregationMode where
  | independent
  | maxContributions

def AggregationMode.wireName : AggregationMode → String
  | .independent => "independent"
  | .maxContributions => "max_contributions"

def AggregationMode.deserialize : Data → Except WireError AggregationMode :=
  Wire.readVariant [.independent, .maxContributions] AggregationMode.wireName

/-- A non-zero `u32`. -/
def readLimit (data : Data) : Except WireError { n : Nat // 0 < n ∧ n ≤ u32Max } := do
  let value ← Wire.readInteger 0 u32Max data
  if h : 0 < value.toNat ∧ value.toNat ≤ u32Max then return ⟨value.toNat, h⟩
  else throw .invalidValue

def limitSchema : Record.Schema Unit Data WireError fun _ => { n : Nat // 0 < n ∧ n ≤ u32Max } where
  fields := [()]
  name _ := "limit"
  read _ := readLimit
  duplicate := .duplicateField
  unknown := some .unknownField
  nodup := by decide
  named := by decide

namespace EvidenceAggregation

def serialize : EvidenceAggregation → Data
  | .independent => .map [("mode", .text "independent")]
  | .maxContributions limit _ _ => .map [("mode", .text "max_contributions"), ("limit", .integer limit)]

/-- Other fields of the independent mode are passed over. -/
def ofContent : AggregationMode → List (String × Data) → Except WireError EvidenceAggregation
  | .independent, _ => .ok .independent
  | .maxContributions, content => do
    let slots ← limitSchema.collect content
    let limit ← Wire.require "limit" (slots ())
    return .maxContributions limit.1 limit.2.1 limit.2.2

def deserialize : Data → Except WireError EvidenceAggregation
  | .map entries => do
    let (mode, content) ← Record.takeTag "mode" AggregationMode.deserialize
      (.duplicateField "mode") (.missingField "mode") entries
    ofContent mode content
  | _ => .error .invalidType

end EvidenceAggregation

inductive CalibrationField where
  | selector
  | likelihoodIfTrue
  | likelihoodIfFalse
  | rationale
  | aggregation
  | aggregationPolicyGuard
  deriving DecidableEq

def CalibrationField.Slot : CalibrationField → Type
  | .selector => EvidenceSelector
  | .likelihoodIfTrue => Probability
  | .likelihoodIfFalse => Probability
  | .rationale => String
  | .aggregation => EvidenceAggregation
  | .aggregationPolicyGuard => Option Bool

def calibrationSchema : Record.Schema CalibrationField Data WireError CalibrationField.Slot where
  fields := [.selector, .likelihoodIfTrue, .likelihoodIfFalse, .rationale, .aggregation,
    .aggregationPolicyGuard]
  name
    | .selector => "selector"
    | .likelihoodIfTrue => "likelihood_if_true"
    | .likelihoodIfFalse => "likelihood_if_false"
    | .rationale => "rationale"
    | .aggregation => "aggregation"
    | .aggregationPolicyGuard => "aggregation_policy_guard"
  read
    | .selector => EvidenceSelector.deserialize
    | .likelihoodIfTrue => Wire.readProbability
    | .likelihoodIfFalse => Wire.readProbability
    | .rationale => Wire.readText
    | .aggregation => EvidenceAggregation.deserialize
    | .aggregationPolicyGuard => Wire.readNullable Wire.readBool
  duplicate := .duplicateField
  unknown := some .unknownField
  nodup := by decide
  named := by decide

namespace EvidenceCalibration

def rawFields (calibration : EvidenceCalibration) : CalibrationField → Option Data
  | .selector => some calibration.selector.serialize
  | .likelihoodIfTrue => some calibration.likelihoodIfTrue.serialize
  | .likelihoodIfFalse => some calibration.likelihoodIfFalse.serialize
  | .rationale => some (.text calibration.rationale)
  | .aggregation =>
    if calibration.aggregation.isIndependent then none else some calibration.aggregation.serialize
  | .aggregationPolicyGuard =>
    if calibration.aggregationPolicyGuard then some (.bool true) else none

def serialize (calibration : EvidenceCalibration) : Data :=
  .map (Record.encode calibrationSchema.fields calibrationSchema.name calibration.rawFields)

/-- The checks of a calibration that was read. -/
def ofWire (selector : EvidenceSelector) (likelihoodIfTrue likelihoodIfFalse : Probability)
    (rationale : String) (aggregation : EvidenceAggregation) (guard : Option Bool) :
    Except WireError EvidenceCalibration := do
  if guard.any fun guard => !guard || aggregation.isIndependent then
    throw (.custom "evidence aggregation compatibility guard is inconsistent")
  let calibration ← (EvidenceCalibration.new selector likelihoodIfTrue likelihoodIfFalse
    rationale).mapError .rule
  return calibration.withAggregation aggregation

def ofSlots (slots : Record.Slots CalibrationField.Slot) : Except WireError EvidenceCalibration := do
  let selector ← Wire.require "selector" (slots .selector)
  let likelihoodIfTrue ← Wire.require "likelihood_if_true" (slots .likelihoodIfTrue)
  let likelihoodIfFalse ← Wire.require "likelihood_if_false" (slots .likelihoodIfFalse)
  let rationale ← Wire.require "rationale" (slots .rationale)
  ofWire selector likelihoodIfTrue likelihoodIfFalse rationale
    ((slots .aggregation).getD .independent) ((slots .aggregationPolicyGuard).getD none)

def deserialize : Data → Except WireError EvidenceCalibration
  | .map entries => do ofSlots (← calibrationSchema.collect entries)
  | _ => .error .invalidType

end EvidenceCalibration

/-! ### Rules -/

inductive ConclusionField where
  | predicate
  | value
  | prior
  | strength
  | state
  | calibrations
  deriving DecidableEq

def ConclusionField.Slot : ConclusionField → Type
  | .predicate => KnowledgePredicate
  | .value => EvidenceValue
  | .prior => Probability
  | .strength => HypothesisStrength
  | .state => HypothesisState
  | .calibrations => List EvidenceCalibration

def readCalibrations : Data → Except WireError (List EvidenceCalibration)
  | .seq items => items.mapM EvidenceCalibration.deserialize
  | _ => .error .invalidType

def conclusionSchema : Record.Schema ConclusionField Data WireError ConclusionField.Slot where
  fields := [.predicate, .value, .prior, .strength, .state, .calibrations]
  name
    | .predicate => "predicate"
    | .value => "value"
    | .prior => "prior"
    | .strength => "strength"
    | .state => "state"
    | .calibrations => "calibrations"
  read
    | .predicate => KnowledgePredicate.deserialize
    | .value => EvidenceValue.deserialize
    | .prior => Wire.readProbability
    | .strength => HypothesisStrength.deserialize
    | .state => HypothesisState.deserialize
    | .calibrations => readCalibrations
  duplicate := .duplicateField
  unknown := some .unknownField
  nodup := by decide
  named := by decide

namespace HypothesisConclusion

def rawFields (conclusion : HypothesisConclusion) : ConclusionField → Option Data
  | .predicate => some conclusion.predicate.serialize
  | .value => some conclusion.value.serialize
  | .prior => some conclusion.prior.serialize
  | .strength => some (.text conclusion.strength.wireName)
  | .state => some (.text conclusion.state.wireName)
  | .calibrations => some (.seq (conclusion.calibrations.map EvidenceCalibration.serialize))

def serialize (conclusion : HypothesisConclusion) : Data :=
  .map (Record.encode conclusionSchema.fields conclusionSchema.name conclusion.rawFields)

def ofSlots (slots : Record.Slots ConclusionField.Slot) : Except WireError HypothesisConclusion := do
  let predicate ← Wire.require "predicate" (slots .predicate)
  let value ← Wire.require "value" (slots .value)
  let prior ← Wire.require "prior" (slots .prior)
  let strength ← Wire.require "strength" (slots .strength)
  let state ← Wire.require "state" (slots .state)
  let calibrations ← Wire.require "calibrations" (slots .calibrations)
  (HypothesisConclusion.new predicate value prior strength state calibrations).mapError .rule

def deserialize : Data → Except WireError HypothesisConclusion
  | .map entries => do ofSlots (← conclusionSchema.collect entries)
  | _ => .error .invalidType

end HypothesisConclusion

inductive RuleField where
  | id
  | condition
  | conclusion
  deriving DecidableEq

def RuleField.Slot : RuleField → Type
  | .id => String
  | .condition => { e : Expression // e.wellFormed = true }
  | .conclusion => HypothesisConclusion

/-- A condition that was read is well formed. -/
def readCondition (data : Data) : Except WireError { e : Expression // e.wellFormed = true } := do
  let e ← Expression.deserialize data
  if h : e.wellFormed = true then return ⟨e, h⟩ else throw .invalidValue

def ruleSchema : Record.Schema RuleField Data WireError RuleField.Slot where
  fields := [.id, .condition, .conclusion]
  name
    | .id => "id"
    | .condition => "condition"
    | .conclusion => "conclusion"
  read
    | .id => Wire.readText
    | .condition => readCondition
    | .conclusion => HypothesisConclusion.deserialize
  duplicate := .duplicateField
  unknown := some .unknownField
  nodup := by decide
  named := by decide

namespace ReasoningRule

def rawFields (rule : ReasoningRule) : RuleField → Option Data
  | .id => some (.text rule.id)
  | .condition => some rule.condition.serialize
  | .conclusion => some rule.conclusion.serialize

def serialize (rule : ReasoningRule) : Data :=
  .map (Record.encode ruleSchema.fields ruleSchema.name rule.rawFields)

def ofSlots (slots : Record.Slots RuleField.Slot) : Except WireError ReasoningRule := do
  let id ← Wire.require "id" (slots .id)
  let condition ← Wire.require "condition" (slots .condition)
  let conclusion ← Wire.require "conclusion" (slots .conclusion)
  (ReasoningRule.new id condition conclusion).mapError .rule

def deserialize : Data → Except WireError ReasoningRule
  | .map entries => do ofSlots (← ruleSchema.collect entries)
  | _ => .error .invalidType

end ReasoningRule

end Termivar
