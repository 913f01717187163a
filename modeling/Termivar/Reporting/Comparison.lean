/-
# Comparing two reports

`termivar-scanner/src/reporting/comparison.rs`: two imported reports are
compared item by item, by their fingerprints. Items that both reports have are
pairs, unless the contexts of the supplied sessions differ; a pair is changed
or not. The components and advisories of two WordPress audits are compared in
the same way.

The comparison of the audits themselves is a parameter: it cannot fail, and no
item depends on it. JSON values are a type with an equality.

The loop over the items computes the pairs and the items without a partner
(`compareDocuments_eq`), from which the laws of a comparison follow.
-/
import Termivar.MapDiff

namespace Termivar.Reporting

open MapDiff Option

/-! ### Items -/

structure RemediationProjection where
  (id summary : String)
  deriving DecidableEq

structure EvidenceMetadata where
  (evidenceCount evidenceReferenceCount controlReferenceCount candidateReferenceCount : Nat)
  (casePresent outcomePresent : Bool)
  verificationStage : Option String
  deriving DecidableEq

structure ItemProjection where
  (title category disposition claimBasis : String)
  (severity cwe : Option String)
  confidencePpm : Nat
  redactedSummary : String
  remediation : RemediationProjection
  evidence : EvidenceMetadata

structure ImportedItem where
  capabilityId : String
  projection : ItemProjection

structure ComparisonItem where
  (fingerprint capabilityId : String)
  (before after : Option ItemProjection)
  changedFields : List String

inductive ComparisonError where
  | ambiguousIdentity

def changedFields (before after : ItemProjection) : List String :=
  [("title", decide (before.title ≠ after.title)),
    ("category", decide (before.category ≠ after.category)),
    ("disposition", decide (before.disposition ≠ after.disposition)),
    ("claim_basis", decide (before.claimBasis ≠ after.claimBasis)),
    ("severity", decide (before.severity ≠ after.severity)),
    ("cwe", decide (before.cwe ≠ after.cwe)),
    ("confidence_ppm", decide (before.confidencePpm ≠ after.confidencePpm)),
    ("redacted_summary", decide (before.redactedSummary ≠ after.redactedSummary)),
    ("remediation", decide (before.remediation ≠ after.remediation)),
    ("evidence", decide (before.evidence ≠ after.evidence))].filterMap
    fun (name, changed) => if changed then some name else none

/-! ### Documents -/

/-- The supplied session of a report: what decides whether items may be
paired. -/
structure ImportedSuppliedSessionAudit (Value : Type) where
  context : Value

/-- An imported report: what is known of its source, its items, its supplied
session, and the other audits. -/
structure ImportedDocument (Value Metadata Audits : Type) where
  metadata : Metadata
  items : BTreeMap String ImportedItem
  suppliedSession : Option (ImportedSuppliedSessionAudit Value)
  audits : Audits

structure ComparisonDocument (Metadata Comparisons : Type) where
  (before after : Metadata)
  auditComparisons : Comparisons
  (onlyInAfter onlyInBefore changed unchanged : List ComparisonItem)

variable {Value Metadata Audits Comparisons : Type} [DecidableEq Value]

def suppliedSessionContextAllowsItemPairing :
    Option (ImportedSuppliedSessionAudit Value) → Option (ImportedSuppliedSessionAudit Value) → Bool
  | none, none => true
  | some before, some after => before.context = after.context
  | some _, none => false
  | none, some _ => false

variable (document : ComparisonDocument Metadata Comparisons)

/-- Both reports have the fingerprint. -/
def comparePair (fingerprint : String)
    (old new : ImportedItem) :
    Except ComparisonError (ComparisonDocument Metadata Comparisons) :=
  if old.capabilityId ≠ new.capabilityId then .error .ambiguousIdentity
  else
    let item : ComparisonItem := ⟨fingerprint, old.capabilityId, some old.projection,
      some new.projection, changedFields old.projection new.projection⟩
    if item.changedFields.isEmpty then
      .ok { document with unchanged := document.unchanged ++ [item] }
    else .ok { document with changed := document.changed ++ [item] }

/-- Only the report before has the fingerprint. -/
def pushOnlyInBefore (fingerprint : String)
    (old : ImportedItem) : ComparisonDocument Metadata Comparisons :=
  { document with onlyInBefore := document.onlyInBefore ++
    [⟨fingerprint, old.capabilityId, some old.projection, none, []⟩] }

/-- Only the report after has the fingerprint. -/
def pushOnlyInAfter (entry : String × ImportedItem) : ComparisonDocument Metadata Comparisons :=
  { document with onlyInAfter := document.onlyInAfter ++
    [⟨entry.1, entry.2.capabilityId, none, some entry.2.projection, []⟩] }

/-- `compare_documents`. -/
def compareDocuments (compareAudits : Audits → Audits → Comparisons)
    (before after : ImportedDocument Value Metadata Audits) :
    Except ComparisonError (ComparisonDocument Metadata Comparisons) := do
  let allowed := suppliedSessionContextAllowsItemPairing before.suppliedSession after.suppliedSession
  let document : ComparisonDocument Metadata Comparisons :=
    ⟨before.metadata, after.metadata, compareAudits before.audits after.audits, [], [], [], []⟩
  let (document, remaining) ← before.items.toList.foldlM
    (consume allowed comparePair pushOnlyInBefore) (document, after.items)
  return remaining.toList.foldl pushOnlyInAfter document

/-! ### Components and advisories of a WordPress audit -/

abbrev EntityContent (Value : Type) : Type := BTreeMap String Value

structure WordPressEntityChange (K Value : Type) where
  key : K
  changedDimensions : List String
  (before after : EntityContent Value)

structure WordPressOneSidedEntity (K Value : Type) where
  key : K
  content : EntityContent Value
  interpretation : String

structure WordPressEntityChanges (K Value : Type) where
  pairedUnchangedCount : Nat
  pairedChanged : List (WordPressEntityChange K Value)
  (onlyInBefore onlyInAfter : List (WordPressOneSidedEntity K Value))

/-- The dimensions in which two contents differ, in ascending order. -/
def changedDimensions (before after : EntityContent Value) : List String :=
  (Std.ExtTreeSet.ofList (before.keys ++ after.keys) compare).toList.filter
    fun dimension => before[dimension]? ≠ after[dimension]?

variable {K : Type}

variable (allowed : Bool) (result : WordPressEntityChanges K Value)

/-- Both audits have the key. -/
def compareEntityPair (key : K)
    (before after : EntityContent Value) : WordPressEntityChanges K Value :=
  let dimensions := changedDimensions before after
  if dimensions.isEmpty then { result with pairedUnchangedCount := result.pairedUnchangedCount + 1 }
  else { result with pairedChanged := result.pairedChanged ++ [⟨key, dimensions, before, after⟩] }

/-- Only the audit before has the key. -/
def pushEntityOnlyInBefore (key : K)
    (content : EntityContent Value) : WordPressEntityChanges K Value :=
  { result with onlyInBefore := result.onlyInBefore ++ [⟨key, content,
    "present_only_in_the_supplied_before_audit_not_verified_remediation"⟩] }

/-- Only the audit after has the key. -/
def pushEntityOnlyInAfter (entry : K × EntityContent Value) : WordPressEntityChanges K Value :=
  { result with onlyInAfter := result.onlyInAfter ++ [⟨entry.1, entry.2,
    "present_only_in_the_supplied_after_audit_not_verified_newness"⟩] }

/-- `compare_wordpress_entities`. -/
def compareWordpressEntities [Ord K] [Std.TransOrd K]
    (before after : BTreeMap K (EntityContent Value)) : WordPressEntityChanges K Value :=
  let (result, remaining) := Id.run (before.toList.foldlM (consume true
    (fun result key old new => pure (compareEntityPair result key old new)) pushEntityOnlyInBefore)
    (⟨0, [], [], []⟩, after))
  remaining.toList.foldl pushEntityOnlyInAfter result

/-! ### The fields of a projection -/

/-- The value of a field. -/
inductive FieldValue where
  | text (value : String)
  | optional (value : Option String)
  | count (value : Nat)
  | remediation (value : RemediationProjection)
  | evidence (value : EvidenceMetadata)

/-- All fields of a projection with their names. -/
def ItemProjection.fields (projection : ItemProjection) : List (String × FieldValue) :=
  [("title", .text projection.title), ("category", .text projection.category),
    ("disposition", .text projection.disposition), ("claim_basis", .text projection.claimBasis),
    ("severity", .optional projection.severity), ("cwe", .optional projection.cwe),
    ("confidence_ppm", .count projection.confidencePpm),
    ("redacted_summary", .text projection.redactedSummary),
    ("remediation", .remediation projection.remediation), ("evidence", .evidence projection.evidence)]

/-- **The changed fields are the fields that differ.** -/
theorem mem_changedFields {before after : ItemProjection} {name : String} :
    name ∈ changedFields before after ↔ ∃ value value', (name, value) ∈ before.fields ∧
      (name, value') ∈ after.fields ∧ value ≠ value' := by
  constructor
  · intro h
    simp only [changedFields, List.mem_filterMap, List.mem_cons, List.not_mem_nil, or_false] at h
    obtain ⟨⟨name', changed⟩, hmem, hname⟩ := h
    simp only [ite_none_right_eq_some, some.injEq] at hname
    obtain ⟨rfl, rfl⟩ := hname
    rcases hmem with h | h | h | h | h | h | h | h | h | h <;>
      · obtain ⟨rfl, hdiffer⟩ := Prod.mk.inj h
        have hne := of_decide_eq_true hdiffer.symm
        simp [ItemProjection.fields, hne]
  · rintro ⟨value, value', hvalue, hvalue', hne⟩
    simp only [ItemProjection.fields, List.mem_cons, Prod.mk.injEq, List.not_mem_nil,
      or_false] at hvalue hvalue'
    rcases hvalue with ⟨rfl, rfl⟩ | ⟨rfl, rfl⟩ | ⟨rfl, rfl⟩ | ⟨rfl, rfl⟩ | ⟨rfl, rfl⟩ | ⟨rfl, rfl⟩ |
      ⟨rfl, rfl⟩ | ⟨rfl, rfl⟩ | ⟨rfl, rfl⟩ | ⟨rfl, rfl⟩ <;>
      · simp at hvalue'
        subst hvalue'
        simp at hne
        simp [changedFields, hne]

theorem changedFields_eq_nil {before after : ItemProjection} :
    changedFields before after = [] ↔ before = after := by
  rcases before with ⟨⟩
  rcases after with ⟨⟩
  simp [changedFields, List.filterMap_eq_nil_iff]

theorem changedFields_comm (before after : ItemProjection) :
    changedFields before after = changedFields after before := by
  simp only [changedFields, ne_comm]

/-! ### What the loop computes -/

section

variable {before after : BTreeMap String ImportedItem}

/-- The pairs of two reports. -/
def pairsOf (allowed : Bool) (before after : BTreeMap String ImportedItem) :
    List (String × ImportedItem × ImportedItem) :=
  if allowed then pairedEntries before after else []

/-- The items without a partner. -/
def aloneOf (allowed : Bool) (items others : BTreeMap String ImportedItem) :
    List (String × ImportedItem) :=
  if allowed then onlyEntries items others else items.toList

/-- The item of a pair. -/
def pairItem (pair : String × ImportedItem × ImportedItem) : ComparisonItem :=
  ⟨pair.1, pair.2.1.capabilityId, some pair.2.1.projection, some pair.2.2.projection,
    changedFields pair.2.1.projection pair.2.2.projection⟩

/-- The item of an entry that only the report before has. -/
def beforeItem (entry : String × ImportedItem) : ComparisonItem :=
  ⟨entry.1, entry.2.capabilityId, some entry.2.projection, none, []⟩

/-- The item of an entry that only the report after has. -/
def afterItem (entry : String × ImportedItem) : ComparisonItem :=
  ⟨entry.1, entry.2.capabilityId, none, some entry.2.projection, []⟩

/-- Whether a pair has two capability ids. -/
def isAmbiguous (pair : String × ImportedItem × ImportedItem) : Bool :=
  pair.2.1.capabilityId ≠ pair.2.2.capabilityId

omit [DecidableEq Value] in
/-- The loop over the items, with all items of the other report to look in. -/
theorem foldlM_lookup (allowed : Bool) (after : BTreeMap String ImportedItem) :
    ∀ (entries : List (String × ImportedItem)) (document : ComparisonDocument Metadata Comparisons),
    let found := entries.filterMap fun e =>
      (if allowed then after[e.1]? else none).map fun other => (e.1, e.2, other)
    let alone := entries.filter fun e => (if allowed then after[e.1]? else none).isNone
    entries.foldlM (lookup allowed comparePair pushOnlyInBefore after) document =
      if found.any isAmbiguous then .error .ambiguousIdentity
      else .ok { document with
        onlyInBefore := document.onlyInBefore ++ alone.map beforeItem
        changed := document.changed ++
          (found.map pairItem).filter fun item => !item.changedFields.isEmpty
        unchanged := document.unchanged ++
          (found.map pairItem).filter fun item => item.changedFields.isEmpty }
  | [], document => by simp [pure, Except.pure]
  | (fingerprint, old) :: entries, document => by
    have ih := foldlM_lookup allowed after entries
    simp only at ih ⊢
    rw [List.foldlM_cons, lookup]
    cases hlook : (if allowed then after[fingerprint]? else none) with
    | none =>
      simp only [pure_bind, List.filterMap_cons, List.filter_cons, hlook, map_none,
        isNone_none, if_true]
      rw [ih]
      simp [pushOnlyInBefore, beforeItem]
    | some new =>
      simp only [List.filterMap_cons, List.filter_cons, hlook, map_some, isNone_some,
        Bool.false_eq_true, if_false, List.any_cons, List.map_cons]
      by_cases hcap : old.capabilityId ≠ new.capabilityId
      · simp [comparePair, isAmbiguous, hcap, bind, Except.bind]
      · have hfalse : isAmbiguous (fingerprint, old, new) = false := by
          simpa [isAmbiguous] using hcap
        rw [comparePair, if_neg hcap, hfalse, Bool.false_or]
        by_cases hfields : (changedFields old.projection new.projection).isEmpty = true
        · simp only [hfields, if_true, pairItem, Bool.not_true, Bool.false_eq_true, if_false]
          refine (ih _).trans ?_
          simp
        · simp only [hfields, pairItem, Bool.false_eq_true, if_false]
          refine (ih _).trans ?_
          simp

theorem foldl_pushOnlyInAfter : ∀ (entries : List (String × ImportedItem))
    (document : ComparisonDocument Metadata Comparisons),
    entries.foldl pushOnlyInAfter document =
      { document with onlyInAfter := document.onlyInAfter ++ entries.map afterItem }
  | [], document => by simp
  | entry :: entries, document => by
    rw [List.foldl_cons, foldl_pushOnlyInAfter entries]
    simp [pushOnlyInAfter, afterItem]

/-- **The loop computes the pairs and the items without a partner.** It fails
exactly if a pair has two capability ids. -/
theorem compareDocuments_eq (compareAudits : Audits → Audits → Comparisons)
    (before after : ImportedDocument Value Metadata Audits) :
    let allowed := suppliedSessionContextAllowsItemPairing before.suppliedSession after.suppliedSession
    let pairs := pairsOf allowed before.items after.items
    compareDocuments compareAudits before after =
      if pairs.any isAmbiguous then .error .ambiguousIdentity
      else .ok {
        before := before.metadata
        after := after.metadata
        auditComparisons := compareAudits before.audits after.audits
        onlyInAfter := (aloneOf allowed after.items before.items).map afterItem
        onlyInBefore := (aloneOf allowed before.items after.items).map beforeItem
        changed := (pairs.map pairItem).filter fun item => !item.changedFields.isEmpty
        unchanged := (pairs.map pairItem).filter fun item => item.changedFields.isEmpty } := by
  intro allowed pairs
  have hprs : (before.items.toList.filterMap fun e =>
      (if allowed then after.items[e.1]? else none).map fun other => (e.1, e.2, other)) = pairs := by
    cases hallowed : allowed <;> simp [pairs, hallowed, pairsOf, pairedEntries]
  have halone : (before.items.toList.filter fun e =>
      (if allowed then after.items[e.1]? else none).isNone) =
      aloneOf allowed before.items after.items := by
    cases hallowed : allowed
    · simp [aloneOf]
    · simp only [aloneOf, onlyEntries, if_true]
      refine List.filter_congr fun e _ => ?_
      rw [contains_eq_isSome, not_isSome]
  have hleft : (without after.items ((before.items.toList.map Prod.fst).filter fun k =>
      allowed && after.items.contains k)).toList = aloneOf allowed after.items before.items := by
    cases hallowed : allowed
    · simp [aloneOf, without]
    · simp only [Bool.true_and, aloneOf, if_true]
      exact toList_without before.items after.items
  have hloop := @foldlM_lookup Metadata Comparisons allowed after.items before.items.toList
    ⟨before.metadata, after.metadata, compareAudits before.audits after.audits, [], [], [], []⟩
  simp only [hprs, halone] at hloop
  unfold compareDocuments
  simp only
  rw [foldlM_consume (keys_nodup before.items) fun _ _ => rfl, hloop]
  by_cases hamb : pairs.any isAmbiguous = true
  · rw [if_pos hamb, if_pos hamb]
    rfl
  · rw [if_neg hamb, if_neg hamb]
    simp only [Functor.map, Except.map, bind, Except.bind, pure, Except.pure, foldl_pushOnlyInAfter,
      List.nil_append]
    rw [hleft]

end

/-! ### What the loop over components computes -/

section

variable [Ord K] [Std.TransOrd K] [Std.LawfulEqOrd K] [DecidableEq K]

/-- The pairs whose contents differ. -/
def changedEntities (pairs : List (K × EntityContent Value × EntityContent Value)) :
    List (WordPressEntityChange K Value) :=
  (pairs.map fun p => (⟨p.1, changedDimensions p.2.1 p.2.2, p.2.1, p.2.2⟩ :
    WordPressEntityChange K Value)).filter fun change => !change.changedDimensions.isEmpty

omit [Ord K] [Std.TransOrd K] [Std.LawfulEqOrd K] [DecidableEq K] [DecidableEq Value] in
theorem foldl_pushEntityOnlyInAfter : ∀ (entries : List (K × EntityContent Value))
    (result : WordPressEntityChanges K Value), entries.foldl pushEntityOnlyInAfter result =
      { result with onlyInAfter := result.onlyInAfter ++ entries.map fun e =>
        ⟨e.1, e.2, "present_only_in_the_supplied_after_audit_not_verified_newness"⟩ }
  | [], result => by simp
  | entry :: entries, result => by
    rw [List.foldl_cons, foldl_pushEntityOnlyInAfter entries]
    simp [pushEntityOnlyInAfter]

omit [Std.LawfulEqOrd K] [DecidableEq K] in
/-- The loop over the entries, with all entries of the other audit to look in. -/
theorem foldlM_lookup_entities (after : BTreeMap K (EntityContent Value)) :
    ∀ (entries : List (K × EntityContent Value)) (result : WordPressEntityChanges K Value),
    let found := entries.filterMap fun e => after[e.1]?.map fun other => (e.1, e.2, other)
    let alone := entries.filter fun e => after[e.1]?.isNone
    Id.run (entries.foldlM (lookup true
      (fun result key old new => pure (compareEntityPair result key old new)) pushEntityOnlyInBefore
      after) result) =
      { result with
        pairedUnchangedCount := result.pairedUnchangedCount +
          found.countP fun p => (changedDimensions p.2.1 p.2.2).isEmpty
        pairedChanged := result.pairedChanged ++ changedEntities found
        onlyInBefore := result.onlyInBefore ++ alone.map fun e =>
          ⟨e.1, e.2, "present_only_in_the_supplied_before_audit_not_verified_remediation"⟩ }
  | [], result => by simp [changedEntities]
  | (key, old) :: entries, result => by
    have ih := foldlM_lookup_entities after entries
    simp only at ih ⊢
    rw [List.foldlM_cons, lookup]
    cases hlook : after[key]? with
    | none =>
      simp only [if_true, hlook, pure_bind, List.filterMap_cons, List.filter_cons, map_none,
        isNone_none]
      rw [ih]
      simp [pushEntityOnlyInBefore]
    | some new =>
      simp only [if_true, hlook, pure_bind, List.filterMap_cons, List.filter_cons, map_some,
        isNone_some, Bool.false_eq_true, if_false, List.countP_cons]
      rw [ih, compareEntityPair]
      by_cases hdim : (changedDimensions old new).isEmpty = true
      · simp only [hdim, if_true, changedEntities, List.map_cons, List.filter_cons, Bool.not_true,
          Bool.false_eq_true, if_false, WordPressEntityChanges.mk.injEq, and_true]
        omega
      · simp [hdim, changedEntities]

theorem compareWordpressEntities_eq (before after : BTreeMap K (EntityContent Value)) :
    compareWordpressEntities before after = {
      pairedUnchangedCount := (pairedEntries before after).countP fun p =>
        (changedDimensions p.2.1 p.2.2).isEmpty
      pairedChanged := changedEntities (pairedEntries before after)
      onlyInBefore := (onlyEntries before after).map fun e =>
        ⟨e.1, e.2, "present_only_in_the_supplied_before_audit_not_verified_remediation"⟩
      onlyInAfter := (onlyEntries after before).map fun e =>
        ⟨e.1, e.2, "present_only_in_the_supplied_after_audit_not_verified_newness"⟩ } := by
  have hloop := foldlM_lookup_entities after before.toList ⟨0, [], [], []⟩
  have halone : (before.toList.filter fun e => after[e.1]?.isNone) = onlyEntries before after := by
    refine List.filter_congr fun e _ => ?_
    rw [contains_eq_isSome, not_isSome]
  have hleft := toList_without before after
  simp only [halone] at hloop
  unfold compareWordpressEntities
  rw [foldlM_consume (keys_nodup before) fun _ _ => rfl]
  simp only [Bool.true_and, Id.run_map, hloop, foldl_pushEntityOnlyInAfter, List.nil_append, hleft,
    Nat.zero_add]
  rfl

theorem mem_changedDimensions {before after : EntityContent Value} {dimension : String} :
    dimension ∈ changedDimensions before after ↔ before[dimension]? ≠ after[dimension]? := by
  unfold changedDimensions
  rw [List.mem_filter, Std.ExtTreeSet.mem_toList, Std.ExtTreeSet.mem_ofList, decide_eq_true_eq]
  refine ⟨fun h => h.2, fun h => ⟨?_, h⟩⟩
  rw [List.contains_iff_mem, List.mem_append, Std.ExtTreeMap.mem_keys, Std.ExtTreeMap.mem_keys,
    Std.ExtTreeMap.mem_iff_isSome_getElem?, Std.ExtTreeMap.mem_iff_isSome_getElem?]
  cases hbef : before[dimension]? with
  | some _ => exact Or.inl rfl
  | none =>
    rw [hbef] at h
    exact Or.inr (isSome_iff_ne_none.mpr (Ne.symm h))

theorem changedDimensions_eq_nil {before after : EntityContent Value} :
    changedDimensions before after = [] ↔ before = after := by
  rw [List.eq_nil_iff_forall_not_mem]
  simp only [mem_changedDimensions, not_not]
  refine ⟨fun h => Std.ExtTreeMap.ext_getElem? h, ?_⟩
  rintro rfl _
  rfl

theorem changedDimensions_comm (before after : EntityContent Value) :
    changedDimensions before after = changedDimensions after before := by
  unfold changedDimensions
  have hset : Std.ExtTreeSet.ofList (before.keys ++ after.keys) compare =
      Std.ExtTreeSet.ofList (after.keys ++ before.keys) compare := by
    refine Std.ExtTreeSet.ext_mem fun k => ?_
    rw [Std.ExtTreeSet.mem_ofList, Std.ExtTreeSet.mem_ofList, List.contains_iff_mem,
      List.contains_iff_mem, List.mem_append, List.mem_append, or_comm]
  rw [hset]
  exact List.filter_congr fun _ _ => by simp only [ne_comm]

end

/-! ### The laws of a comparison -/

/-- All items of a comparison. -/
def ComparisonDocument.items (document : ComparisonDocument Metadata Comparisons) : List ComparisonItem :=
  document.onlyInAfter ++ document.onlyInBefore ++ document.changed ++ document.unchanged

/-- How often a fingerprint appears in a comparison. -/
def ComparisonDocument.occurrences (document : ComparisonDocument Metadata Comparisons)
    (fingerprint : String) : Nat :=
  (document.items.map ComparisonItem.fingerprint).count fingerprint

/-- The item of the comparison the other way. -/
def ComparisonItem.swap (item : ComparisonItem) : ComparisonItem :=
  { item with before := item.after, after := item.before }

theorem allows_comm (before after : Option (ImportedSuppliedSessionAudit Value)) :
    suppliedSessionContextAllowsItemPairing before after =
      suppliedSessionContextAllowsItemPairing after before := by
  cases before <;> cases after <;> simp [suppliedSessionContextAllowsItemPairing, eq_comm]

theorem allows_self (session : Option (ImportedSuppliedSessionAudit Value)) :
    suppliedSessionContextAllowsItemPairing session session = true := by
  cases session <;> simp [suppliedSessionContextAllowsItemPairing]

theorem pairsOf_swap (before after : BTreeMap String ImportedItem) :
    pairsOf allowed after before =
      (pairsOf allowed before after).map fun p => (p.1, p.2.2, p.2.1) := by
  unfold pairsOf
  split_ifs
  · exact pairedEntries_swap before after
  · rfl

theorem any_isAmbiguous_swap (before after : BTreeMap String ImportedItem) :
    (pairsOf allowed after before).any isAmbiguous = (pairsOf allowed before after).any isAmbiguous := by
  rw [pairsOf_swap, List.any_map]
  congr 1
  funext pair
  simp [isAmbiguous, eq_comm]

/-- A pair that is not ambiguous is the swapped pair. -/
theorem pairItem_swap {pair : String × ImportedItem × ImportedItem} (h : isAmbiguous pair = false) :
    pairItem (pair.1, pair.2.2, pair.2.1) = (pairItem pair).swap := by
  have hcap : pair.2.1.capabilityId = pair.2.2.capabilityId := by
    simpa [isAmbiguous] using h
  simp [pairItem, ComparisonItem.swap, hcap, changedFields_comm pair.2.1.projection]

theorem mem_pairsOf {allowed : Bool} {before after : BTreeMap String ImportedItem} {fingerprint : String}
    {old new : ImportedItem} : (fingerprint, old, new) ∈ pairsOf allowed before after ↔
      allowed = true ∧ before[fingerprint]? = some old ∧ after[fingerprint]? = some new := by
  cases allowed <;> simp [pairsOf, mem_pairedEntries]

theorem pairs_nodup (before after : BTreeMap String ImportedItem) :
    ((pairsOf allowed before after).map Prod.fst).Nodup := by
  unfold pairsOf
  split_ifs
  · refine List.pairwise_map.mpr ((pairwise_pairedEntries before after).imp ?_)
    intro a b hlt heq
    rw [heq] at hlt
    simp at hlt
  · exact List.nodup_nil

theorem alone_nodup (items others : BTreeMap String ImportedItem) :
    ((aloneOf allowed items others).map Prod.fst).Nodup := by
  unfold aloneOf
  split_ifs
  · exact (keys_nodup items).sublist (List.filter_sublist.map _)
  · exact keys_nodup items

section

variable {compareAudits : Audits → Audits → Comparisons}
  {before after : ImportedDocument Value Metadata Audits}

variable {document : ComparisonDocument Metadata Comparisons}

/-- The comparison of two documents, when it succeeds. -/
theorem compareDocuments_ok {allowed : Bool}
    (hallowed : suppliedSessionContextAllowsItemPairing before.suppliedSession after.suppliedSession =
      allowed) (h : compareDocuments compareAudits before after = .ok document) :
    (∀ pair ∈ pairsOf allowed before.items after.items, isAmbiguous pair = false) ∧
      document.onlyInAfter = (aloneOf allowed after.items before.items).map afterItem ∧
      document.onlyInBefore = (aloneOf allowed before.items after.items).map beforeItem ∧
      document.changed = ((pairsOf allowed before.items after.items).map pairItem).filter
        (fun item => !item.changedFields.isEmpty) ∧
      document.unchanged = ((pairsOf allowed before.items after.items).map pairItem).filter
        (fun item => item.changedFields.isEmpty) := by
  subst hallowed
  have heq := compareDocuments_eq compareAudits before after
  rw [h] at heq
  simp only at heq
  split_ifs at heq with hamb
  cases heq
  refine ⟨?_, rfl, rfl, rfl, rfl⟩
  simpa using hamb

/-- The fingerprints of a comparison are those of the groups. -/
theorem occurrences_eq {allowed : Bool}
    (hallowed : suppliedSessionContextAllowsItemPairing before.suppliedSession after.suppliedSession =
      allowed) (h : compareDocuments compareAudits before after = .ok document) (fingerprint : String) :
    document.occurrences fingerprint =
      ((aloneOf allowed after.items before.items).map Prod.fst).count fingerprint +
      ((aloneOf allowed before.items after.items).map Prod.fst).count fingerprint +
      ((pairsOf allowed before.items after.items).map Prod.fst).count fingerprint := by
  obtain ⟨-, haft, hbef, hchan, hunch⟩ := compareDocuments_ok hallowed h
  have hspl : ∀ items : List ComparisonItem,
      ((items.filter fun item => !item.changedFields.isEmpty).map ComparisonItem.fingerprint).count
          fingerprint +
        ((items.filter fun item => item.changedFields.isEmpty).map ComparisonItem.fingerprint).count
          fingerprint = (items.map ComparisonItem.fingerprint).count fingerprint := by
    intro items
    induction items with
    | nil => rfl
    | cons item items ih =>
      cases hfields : item.changedFields.isEmpty <;>
        · simp only [List.filter_cons, hfields, Bool.not_true, Bool.not_false, Bool.false_eq_true,
            if_true, if_false, List.map_cons, List.count_cons]
          omega
  rw [ComparisonDocument.occurrences, ComparisonDocument.items, haft, hbef, hchan, hunch]
  simp only [List.map_append, List.count_append, List.map_map]
  have hprs := hspl ((pairsOf allowed before.items after.items).map pairItem)
  rw [List.map_map] at hprs
  have hfirst : ∀ {α : Type} (xs : List (String × α)), xs.map (fun e => e.1) = xs.map Prod.fst :=
    fun _ => rfl
  simp only [Function.comp_def, afterItem, beforeItem, pairItem, hfirst] at hprs ⊢
  omega

/-- With pairing every fingerprint of one of the documents appears once. -/
theorem occurrences_of_allowed (hallowed : suppliedSessionContextAllowsItemPairing before.suppliedSession after.suppliedSession =
      true) (h : compareDocuments compareAudits before after = .ok document) (fingerprint : String) :
    document.occurrences fingerprint =
      if fingerprint ∈ before.items ∨ fingerprint ∈ after.items then 1 else 0 := by
  have hmem : ∀ {items others : BTreeMap String ImportedItem},
      fingerprint ∈ (aloneOf true items others).map Prod.fst ↔
        items[fingerprint]?.isSome = true ∧ others[fingerprint]? = none := by
    intro items others
    simp only [aloneOf, if_true, List.mem_map, Prod.exists, exists_and_right, exists_eq_right,
      mem_onlyEntries, isSome_iff_exists]
  have hprs : fingerprint ∈ (pairsOf true before.items after.items).map Prod.fst ↔
      before.items[fingerprint]?.isSome = true ∧ after.items[fingerprint]?.isSome = true := by
    simp only [List.mem_map, Prod.exists, mem_pairsOf, true_and, exists_eq_right,
      isSome_iff_exists, exists_and_right, exists_and_left]
  rw [occurrences_eq hallowed h, (alone_nodup _ _ _).count, (alone_nodup _ _ _).count,
    (pairs_nodup _ _ _).count]
  simp only [hmem, hprs, Std.ExtTreeMap.mem_iff_isSome_getElem?]
  cases before.items[fingerprint]? <;> cases after.items[fingerprint]? <;> simp

/-- What a pair of the comparison is. -/
theorem pair_of_mem (h : compareDocuments compareAudits before after = .ok document) {item : ComparisonItem}
    (hitem : item ∈ document.changed ++ document.unchanged) :
    suppliedSessionContextAllowsItemPairing before.suppliedSession after.suppliedSession = true ∧
      ∃ old new, before.items[item.fingerprint]? = some old ∧
        after.items[item.fingerprint]? = some new ∧ item = pairItem (item.fingerprint, old, new) := by
  obtain ⟨-, -, -, hchan, hunch⟩ := compareDocuments_ok rfl h
  have hmem : item ∈ (pairsOf (suppliedSessionContextAllowsItemPairing before.suppliedSession
      after.suppliedSession) before.items after.items).map pairItem := by
    rw [hchan, hunch] at hitem
    rcases List.mem_append.mp hitem with hitem | hitem <;> exact (List.mem_filter.mp hitem).1
  obtain ⟨⟨fingerprint, old, new⟩, hpair, rfl⟩ := List.mem_map.mp hmem
  obtain ⟨hallowed, hold, hnew⟩ := mem_pairsOf.mp hpair
  exact ⟨hallowed, old, new, hold, hnew, rfl⟩

/-- An item is unchanged if both documents have it with the same projection. -/
theorem mem_unchanged (h : compareDocuments compareAudits before after = .ok document) (fingerprint : String) :
    (∃ item ∈ document.unchanged, item.fingerprint = fingerprint) ↔
      suppliedSessionContextAllowsItemPairing before.suppliedSession after.suppliedSession = true ∧
      ∃ old new, before.items[fingerprint]? = some old ∧ after.items[fingerprint]? = some new ∧
        old.projection = new.projection := by
  obtain ⟨-, -, -, -, hunch⟩ := compareDocuments_ok rfl h
  rw [hunch]
  constructor
  · rintro ⟨item, hitem, rfl⟩
    obtain ⟨hitem, hfields⟩ := List.mem_filter.mp hitem
    obtain ⟨⟨fingerprint, old, new⟩, hpair, rfl⟩ := List.mem_map.mp hitem
    obtain ⟨hallowed, hold, hnew⟩ := mem_pairsOf.mp hpair
    exact ⟨hallowed, old, new, hold, hnew, changedFields_eq_nil.mp (List.isEmpty_iff.mp hfields)⟩
  · rintro ⟨hallowed, old, new, hold, hnew, hsame⟩
    refine ⟨pairItem (fingerprint, old, new), List.mem_filter.mpr ⟨List.mem_map_of_mem
      (mem_pairsOf.mpr ⟨hallowed, hold, hnew⟩), ?_⟩, rfl⟩
    exact List.isEmpty_iff.mpr (changedFields_eq_nil.mpr hsame)

/-- The comparison the other way swaps the groups. -/
theorem compareDocuments_swap {document document' : ComparisonDocument Metadata Comparisons}
    (h : compareDocuments compareAudits before after = .ok document)
    (h' : compareDocuments compareAudits after before = .ok document') :
    document'.onlyInAfter = document.onlyInBefore.map ComparisonItem.swap ∧
      document'.onlyInBefore = document.onlyInAfter.map ComparisonItem.swap ∧
      document'.changed = document.changed.map ComparisonItem.swap ∧
      document'.unchanged = document.unchanged.map ComparisonItem.swap := by
  obtain ⟨hclear, haft, hbef, hchan, hunch⟩ := compareDocuments_ok rfl h
  obtain ⟨-, haft', hbef', hchan', hunch'⟩ :=
    compareDocuments_ok (allows_comm after.suppliedSession before.suppliedSession) h'
  generalize suppliedSessionContextAllowsItemPairing before.suppliedSession after.suppliedSession =
    allowed at *
  have hprs : (pairsOf allowed after.items before.items).map pairItem =
      ((pairsOf allowed before.items after.items).map pairItem).map ComparisonItem.swap := by
    rw [pairsOf_swap, List.map_map, List.map_map]
    exact List.map_congr_left fun pair hpair => pairItem_swap (hclear pair hpair)
  refine ⟨?_, ?_, ?_, ?_⟩
  · rw [haft', hbef, List.map_map]
    rfl
  · rw [hbef', haft, List.map_map]
    rfl
  · rw [hchan', hchan, hprs, List.filter_map]
    rfl
  · rw [hunch', hunch, hprs, List.filter_map]
    rfl

/-- A document compared with itself has unchanged items only. -/
theorem compareDocuments_self (compareAudits : Audits → Audits → Comparisons)
    (before : ImportedDocument Value Metadata Audits) : ∃ document,
    compareDocuments compareAudits before before = .ok document ∧ document.onlyInAfter = [] ∧
      document.onlyInBefore = [] ∧ document.changed = [] ∧
      document.unchanged.map ComparisonItem.fingerprint = before.items.keys := by
  have hself : ∀ pair ∈ pairsOf true before.items before.items, pair.2.1 = pair.2.2 := by
    rintro ⟨fingerprint, old, new⟩ hpair
    obtain ⟨-, hold, hnew⟩ := mem_pairsOf.mp hpair
    exact some.inj (hold.symm.trans hnew)
  have hclear : (pairsOf true before.items before.items).any isAmbiguous = false := by
    rw [List.any_eq_false]
    intro pair hpair
    simp [isAmbiguous, hself pair hpair]
  have hnone : aloneOf true before.items before.items = [] := by
    rw [aloneOf, if_pos rfl, onlyEntries, List.filter_eq_nil_iff]
    rintro ⟨fingerprint, item⟩ hent
    rw [contains_eq_isSome, mem_toList.mp hent]
    simp
  have hprs : (pairsOf true before.items before.items).map Prod.fst = before.items.keys := by
    rw [pairsOf, if_pos rfl, pairedEntries, ← Std.ExtTreeMap.map_fst_toList_eq_keys,
      List.map_filterMap]
    have hall : ∀ e ∈ before.items.toList, (before.items[e.1]?.map fun other =>
        (e.1, e.2, other)).map Prod.fst = some e.1 := by
      intro e he
      rw [mem_toList.mp he]
      rfl
    rw [List.filterMap_congr hall, List.filterMap_eq_map']
  have heq := compareDocuments_eq compareAudits before before
  simp only [allows_self, hclear, hnone, Bool.false_eq_true, if_false, List.map_nil] at heq
  have hunch : ∀ item ∈ (pairsOf true before.items before.items).map pairItem,
      item.changedFields.isEmpty = true := by
    intro item hitem
    obtain ⟨pair, hpair, rfl⟩ := List.mem_map.mp hitem
    rw [pairItem, hself pair hpair]
    exact List.isEmpty_iff.mpr (changedFields_eq_nil.mpr rfl)
  refine ⟨_, heq, rfl, rfl, ?_, ?_⟩
  · exact List.filter_eq_nil_iff.mpr fun item hitem => by simp [hunch item hitem]
  · simp only
    rw [List.filter_eq_self.mpr hunch, List.map_map, ← hprs]
    rfl

end

section

variable [Ord K] [Std.TransOrd K] [Std.LawfulEqOrd K] [DecidableEq K]
  {before after : BTreeMap K (EntityContent Value)}

/-- The keys whose contents are the same in both audits. -/
def unchangedKeys (before after : BTreeMap K (EntityContent Value)) : List K :=
  ((pairedEntries before after).filter fun p =>
    (changedDimensions p.2.1 p.2.2).isEmpty).map Prod.fst

omit [DecidableEq K] in
theorem mem_unchangedKeys {key : K} : key ∈ unchangedKeys before after ↔
    ∃ content, before[key]? = some content ∧ after[key]? = some content := by
  unfold unchangedKeys
  rw [List.mem_map]
  constructor
  · rintro ⟨⟨k, old, new⟩, hpair, rfl⟩
    obtain ⟨hpair, hsame⟩ := List.mem_filter.mp hpair
    obtain ⟨hold, hnew⟩ := mem_pairedEntries.mp hpair
    have heq : old = new := changedDimensions_eq_nil.mp (List.isEmpty_iff.mp hsame)
    exact ⟨old, hold, heq ▸ hnew⟩
  · rintro ⟨content, hold, hnew⟩
    exact ⟨(key, content, content), List.mem_filter.mpr ⟨mem_pairedEntries.mpr ⟨hold, hnew⟩,
      List.isEmpty_iff.mpr (changedDimensions_eq_nil.mpr rfl)⟩, rfl⟩

omit [DecidableEq Value] [Std.LawfulEqOrd K] [DecidableEq K] in
theorem paired_keys_nodup (before after : BTreeMap K (EntityContent Value)) :
    ((pairedEntries before after).map Prod.fst).Nodup := by
  refine List.pairwise_map.mpr ((pairwise_pairedEntries before after).imp ?_)
  intro a b hlt heq
  rw [heq] at hlt
  simp at hlt

/-- Every key of one of the audits is in one group. -/
theorem entity_occurrences (before after : BTreeMap K (EntityContent Value)) (key : K) :
    let result := compareWordpressEntities before after
    (result.onlyInBefore.map WordPressOneSidedEntity.key).count key +
      (result.onlyInAfter.map WordPressOneSidedEntity.key).count key +
      (result.pairedChanged.map WordPressEntityChange.key).count key +
      (unchangedKeys before after).count key =
    if key ∈ before ∨ key ∈ after then 1 else 0 := by
  simp only [compareWordpressEntities_eq, List.map_map, changedEntities]
  have hprs : (((pairedEntries before after).map fun p =>
        (⟨p.1, changedDimensions p.2.1 p.2.2, p.2.1, p.2.2⟩ : WordPressEntityChange K Value)).filter
        fun change => !change.changedDimensions.isEmpty).map WordPressEntityChange.key =
      ((pairedEntries before after).filter fun p =>
        !(changedDimensions p.2.1 p.2.2).isEmpty).map Prod.fst := by
    rw [List.filter_map, List.map_map]
    rfl
  have hspl : ∀ pairs : List (K × EntityContent Value × EntityContent Value),
      ((pairs.filter fun p => !(changedDimensions p.2.1 p.2.2).isEmpty).map Prod.fst).count key +
        ((pairs.filter fun p => (changedDimensions p.2.1 p.2.2).isEmpty).map Prod.fst).count key =
      (pairs.map Prod.fst).count key := by
    intro pairs
    induction pairs with
    | nil => rfl
    | cons p pairs ih =>
      cases hemp : (changedDimensions p.2.1 p.2.2).isEmpty <;>
        · simp only [List.filter_cons, hemp, Bool.not_true, Bool.not_false, Bool.false_eq_true,
            if_true, if_false, List.map_cons, List.count_cons]
          omega
  have honly : ∀ (items others : BTreeMap K (EntityContent Value)),
      ((onlyEntries items others).map Prod.fst).count key =
        if items[key]?.isSome = true ∧ others[key]? = none then 1 else 0 := by
    intro items others
    have hnd : ((onlyEntries items others).map Prod.fst).Nodup :=
      (keys_nodup items).sublist (List.filter_sublist.map _)
    have hmem : key ∈ (onlyEntries items others).map Prod.fst ↔
        items[key]?.isSome = true ∧ others[key]? = none := by
      simp only [List.mem_map, Prod.exists, exists_and_right, exists_eq_right, mem_onlyEntries,
        isSome_iff_exists]
    rw [hnd.count]
    exact if_congr hmem rfl rfl
  have hboth : ((pairedEntries before after).map Prod.fst).count key =
      if before[key]?.isSome = true ∧ after[key]?.isSome = true then 1 else 0 := by
    have hmem : key ∈ (pairedEntries before after).map Prod.fst ↔
        before[key]?.isSome = true ∧ after[key]?.isSome = true := by
      simp only [List.mem_map, Prod.exists, exists_and_right, exists_and_left, exists_eq_right,
        mem_pairedEntries, isSome_iff_exists]
    rw [(paired_keys_nodup before after).count]
    exact if_congr hmem rfl rfl
  rw [hprs, unchangedKeys, Nat.add_assoc, hspl, hboth]
  have hfirst : ∀ (xs : List (K × EntityContent Value)), xs.map (fun e => e.1) = xs.map Prod.fst :=
    fun _ => rfl
  simp only [Function.comp_def, hfirst, honly, Std.ExtTreeMap.mem_iff_isSome_getElem?]
  cases before[key]? <;> cases after[key]? <;> simp

/-- An entity of the comparison the other way. -/
def WordPressEntityChange.swap (change : WordPressEntityChange K Value) :
    WordPressEntityChange K Value :=
  { change with before := change.after, after := change.before }

theorem compareWordpressEntities_swap (before after : BTreeMap K (EntityContent Value)) :
    let result := compareWordpressEntities before after
    let result' := compareWordpressEntities after before
    result'.onlyInAfter.map (fun e => (e.key, e.content)) =
        result.onlyInBefore.map (fun e => (e.key, e.content)) ∧
      result'.onlyInBefore.map (fun e => (e.key, e.content)) =
        result.onlyInAfter.map (fun e => (e.key, e.content)) ∧
      result'.pairedChanged = result.pairedChanged.map WordPressEntityChange.swap ∧
      result'.pairedUnchangedCount = result.pairedUnchangedCount := by
  simp only [compareWordpressEntities_eq, List.map_map, changedEntities]
  refine ⟨rfl, rfl, ?_, ?_⟩
  · rw [pairedEntries_swap before after, List.map_map, List.filter_map, List.filter_map,
      List.map_map]
    simp only [Function.comp_def, WordPressEntityChange.swap, changedDimensions_comm]
  · rw [pairedEntries_swap before after, List.countP_map]
    refine List.countP_congr fun p _ => ?_
    simp only [Function.comp_apply, changedDimensions_comm p.2.2]

omit [DecidableEq Value] [DecidableEq K] in
theorem onlyEntries_self (entries : BTreeMap K (EntityContent Value)) :
    onlyEntries entries entries = [] := by
  rw [onlyEntries, List.filter_eq_nil_iff]
  rintro ⟨key, content⟩ hent
  rw [contains_eq_isSome, mem_toList.mp hent]
  simp

/-- Audits compared with themselves have unchanged entities only. -/
theorem compareWordpressEntities_self (before : BTreeMap K (EntityContent Value)) :
    compareWordpressEntities before before = ⟨before.size, [], [], []⟩ := by
  have hsame : ∀ p ∈ pairedEntries before before,
      (changedDimensions p.2.1 p.2.2).isEmpty = true := by
    rintro ⟨key, old, new⟩ hpair
    obtain ⟨hold, hnew⟩ := mem_pairedEntries.mp hpair
    obtain rfl := some.inj (hold.symm.trans hnew)
    exact List.isEmpty_iff.mpr (changedDimensions_eq_nil.mpr rfl)
  have hchan : changedEntities (pairedEntries before before) = [] := by
    rw [changedEntities, List.filter_eq_nil_iff]
    intro change hchange
    obtain ⟨p, hp, rfl⟩ := List.mem_map.mp hchange
    simp [hsame p hp]
  have hlength : (pairedEntries before before).length = before.size := by
    have hall : ∀ e ∈ before.toList, (before[e.1]?.map fun other => (e.1, e.2, other)) =
        some (e.1, e.2, e.2) := by
      intro e he
      rw [mem_toList.mp he]
      rfl
    rw [pairedEntries, List.filterMap_congr hall, List.filterMap_eq_map', List.length_map,
      Std.ExtTreeMap.length_toList]
  rw [compareWordpressEntities_eq, onlyEntries_self, hchan, List.countP_eq_length.mpr hsame, hlength]
  rfl

/-- Every change says in which dimensions the contents differ. -/
theorem mem_pairedChanged {change : WordPressEntityChange K Value}
    (h : change ∈ (compareWordpressEntities before after).pairedChanged) :
    before[change.key]? = some change.before ∧ after[change.key]? = some change.after ∧
      ∀ dimension, dimension ∈ change.changedDimensions ↔
        change.before[dimension]? ≠ change.after[dimension]? := by
  rw [compareWordpressEntities_eq, changedEntities] at h
  obtain ⟨p, hp, rfl⟩ := List.mem_map.mp (List.mem_filter.mp h).1
  obtain ⟨hold, hnew⟩ := mem_pairedEntries.mp hp
  exact ⟨hold, hnew, fun dimension => mem_changedDimensions⟩

/-- The laws of a comparison of components or advisories. -/
structure EntityLaws (before after : BTreeMap K (EntityContent Value)) : Prop where
  once : ∀ key, ((compareWordpressEntities before after).onlyInBefore.map
        WordPressOneSidedEntity.key).count key +
      ((compareWordpressEntities before after).onlyInAfter.map WordPressOneSidedEntity.key).count key +
      ((compareWordpressEntities before after).pairedChanged.map WordPressEntityChange.key).count key +
      (unchangedKeys before after).count key = if key ∈ before ∨ key ∈ after then 1 else 0
  unchanged : (compareWordpressEntities before after).pairedUnchangedCount =
      (unchangedKeys before after).length ∧
    ∀ key, key ∈ unchangedKeys before after ↔
      ∃ content, before[key]? = some content ∧ after[key]? = some content
  changed : ∀ change ∈ (compareWordpressEntities before after).pairedChanged,
    before[change.key]? = some change.before ∧ after[change.key]? = some change.after ∧
      ∀ dimension, dimension ∈ change.changedDimensions ↔
        change.before[dimension]? ≠ change.after[dimension]?
  swap : (compareWordpressEntities after before).onlyInAfter.map (fun e => (e.key, e.content)) =
        (compareWordpressEntities before after).onlyInBefore.map (fun e => (e.key, e.content)) ∧
      (compareWordpressEntities after before).onlyInBefore.map (fun e => (e.key, e.content)) =
        (compareWordpressEntities before after).onlyInAfter.map (fun e => (e.key, e.content)) ∧
      (compareWordpressEntities after before).pairedChanged =
        (compareWordpressEntities before after).pairedChanged.map WordPressEntityChange.swap ∧
      (compareWordpressEntities after before).pairedUnchangedCount =
        (compareWordpressEntities before after).pairedUnchangedCount
  self : compareWordpressEntities before before = ⟨before.size, [], [], []⟩

theorem compareWordpressEntities_laws (before after : BTreeMap K (EntityContent Value)) :
    EntityLaws before after where
  once := entity_occurrences before after
  unchanged := by
    refine ⟨?_, fun key => mem_unchangedKeys⟩
    rw [compareWordpressEntities_eq, unchangedKeys, List.length_map, List.countP_eq_length_filter]
  changed := fun _ h => mem_pairedChanged h
  swap := compareWordpressEntities_swap before after
  self := compareWordpressEntities_self before

end

/-- The laws of a comparison of two documents that succeeds. -/
structure DocumentLaws (compareAudits : Audits → Audits → Comparisons)
    (before after : ImportedDocument Value Metadata Audits)
    (document : ComparisonDocument Metadata Comparisons) : Prop where
  once : suppliedSessionContextAllowsItemPairing before.suppliedSession after.suppliedSession = true →
    ∀ fingerprint, document.occurrences fingerprint =
      if fingerprint ∈ before.items ∨ fingerprint ∈ after.items then 1 else 0
  unpaired : suppliedSessionContextAllowsItemPairing before.suppliedSession after.suppliedSession =
      false → document.changed = [] ∧ document.unchanged = [] ∧
    document.onlyInBefore.map ComparisonItem.fingerprint = before.items.keys ∧
    document.onlyInAfter.map ComparisonItem.fingerprint = after.items.keys
  unchanged : ∀ fingerprint, (∃ item ∈ document.unchanged, item.fingerprint = fingerprint) ↔
    suppliedSessionContextAllowsItemPairing before.suppliedSession after.suppliedSession = true ∧
    ∃ old new, before.items[fingerprint]? = some old ∧ after.items[fingerprint]? = some new ∧
      old.projection = new.projection
  pair : ∀ item ∈ document.changed ++ document.unchanged,
    ∃ old new, before.items[item.fingerprint]? = some old ∧ after.items[item.fingerprint]? = some new ∧
      item.before = some old.projection ∧ item.after = some new.projection ∧
      ∀ name, name ∈ item.changedFields ↔ ∃ value value', (name, value) ∈ old.projection.fields ∧
        (name, value') ∈ new.projection.fields ∧ value ≠ value'
  swap : ∀ document', compareDocuments compareAudits after before = .ok document' →
    document'.onlyInAfter = document.onlyInBefore.map ComparisonItem.swap ∧
      document'.onlyInBefore = document.onlyInAfter.map ComparisonItem.swap ∧
      document'.changed = document.changed.map ComparisonItem.swap ∧
      document'.unchanged = document.unchanged.map ComparisonItem.swap

theorem compareDocuments_laws {compareAudits : Audits → Audits → Comparisons}
    {before after : ImportedDocument Value Metadata Audits}
    {document : ComparisonDocument Metadata Comparisons}
    (h : compareDocuments compareAudits before after = .ok document) :
    DocumentLaws compareAudits before after document where
  once := fun hallowed => occurrences_of_allowed hallowed h
  unpaired := by
    intro hallowed
    obtain ⟨-, haft, hbef, hchan, hunch⟩ := compareDocuments_ok hallowed h
    refine ⟨hchan, hunch, ?_, ?_⟩
    · rw [hbef, List.map_map, ← Std.ExtTreeMap.map_fst_toList_eq_keys]
      rfl
    · rw [haft, List.map_map, ← Std.ExtTreeMap.map_fst_toList_eq_keys]
      rfl
  unchanged := mem_unchanged h
  pair := by
    intro item hitem
    obtain ⟨-, old, new, hold, hnew, heq⟩ := pair_of_mem h hitem
    rw [heq]
    exact ⟨old, new, hold, hnew, rfl, rfl, fun name => mem_changedFields⟩
  swap := fun _ h' => compareDocuments_swap h h'

/-- **A comparison is a symmetric and complete diff.** It fails both ways or
neither way. With pairing every fingerprint is in exactly one group; without,
every item stays on its side. Swapping the documents swaps the groups, and a
document compared with itself is unchanged. The same holds of the components
and advisories of two audits. -/
theorem comparison_laws [Ord K] [Std.TransOrd K] [Std.LawfulEqOrd K]
    (compareAudits : Audits → Audits → Comparisons)
    (before after : ImportedDocument Value Metadata Audits)
    (entities entities' : BTreeMap K (EntityContent Value)) [DecidableEq K] :
    (compareDocuments compareAudits before after).isOk =
        (compareDocuments compareAudits after before).isOk ∧
      (∀ document, compareDocuments compareAudits before after = .ok document →
        DocumentLaws compareAudits before after document) ∧
      (∃ document, compareDocuments compareAudits before before = .ok document ∧
        document.onlyInAfter = [] ∧ document.onlyInBefore = [] ∧ document.changed = [] ∧
        document.unchanged.map ComparisonItem.fingerprint = before.items.keys) ∧
      EntityLaws entities entities' := by
  refine ⟨?_, fun document h => compareDocuments_laws h, compareDocuments_self compareAudits before,
    compareWordpressEntities_laws entities entities'⟩
  have heq := compareDocuments_eq compareAudits before after
  have heq' := compareDocuments_eq compareAudits after before
  simp only [allows_comm after.suppliedSession, any_isAmbiguous_swap _ before.items] at heq heq'
  rw [heq, heq']
  split_ifs <;> rfl

/-- A report with one item and a supplied session. -/
def sampleDocument (context : Option String) : ImportedDocument String Unit Unit where
  metadata := ()
  items := (∅ : BTreeMap String ImportedItem).insert "f" ⟨"c", ⟨"t", "", "", "", none, none, 0, "",
    ⟨"", ""⟩, ⟨0, 0, 0, 0, false, false, none⟩⟩⟩
  suppliedSession := context.map ImportedSuppliedSessionAudit.mk
  audits := ()

theorem comparison_laws_sample :
    (compareDocuments (fun _ _ => ()) (sampleDocument none) (sampleDocument (some "x"))).isOk =
      (compareDocuments (fun _ _ => ()) (sampleDocument (some "x")) (sampleDocument none)).isOk ∧
    EntityLaws (∅ : BTreeMap String (EntityContent String)) ∅ :=
  have h := comparison_laws (fun _ _ => ()) (sampleDocument none) (sampleDocument (some "x"))
    (∅ : BTreeMap String (EntityContent String)) ∅
  ⟨h.1, h.2.2.2⟩

/-- Without pairing a fingerprint of both reports is in two groups. -/
theorem unpaired_fingerprint_in_two_groups : ∃ document,
    compareDocuments (fun _ _ => ()) (sampleDocument none) (sampleDocument (some "x")) =
      .ok document ∧ document.occurrences "f" = 2 ∧
    document.onlyInBefore.map ComparisonItem.fingerprint = ["f"] ∧
    document.onlyInAfter.map ComparisonItem.fingerprint = ["f"] := by
  refine ⟨_, rfl, ?_, ?_, ?_⟩ <;> decide +kernel

end Termivar.Reporting
