/-
# Identities of a Wordfence feed

`termivar-scanner/src/wordpress_review/wordfence_v3.rs`: the associations of a
feed whose source slug is only a candidate for a component are looked at
together with all others of the same component, and more than one spelling
makes them ambiguous. The spellings are kept in one flat sorted table, which
holds those of components with a candidate only. The index lists the places of
the associations of a component.

The table computes what the definition over the whole feed says: the number of
distinct source identities with the same component (`resolveIdentityMappings_eq`),
and the index finds the associations of a component (`buildComponentIndex_find`).
-/
import Termivar.WordPress.Retained

namespace Termivar.Wordfence

open List Except

/-! ### The table of spellings -/

/-- A component with one of its source identities. -/
abbrev Spelling : Type := WordPressComponentIdentity × WordfenceV3SourceComponentIdentity

/-- The order of pairs. -/
def compareSpelling : Spelling → Spelling → Ordering :=
  compareLex (compareOn Prod.fst) (compareOn Prod.snd)

instance : Std.TransCmp compareSpelling :=
  inferInstanceAs (Std.TransCmp (compareLex (compareOn Prod.fst) (compareOn Prod.snd)))

instance : Std.LawfulEqCmp compareSpelling :=
  lawfulEqCmp_compareLex (by simp [compareOn]) (by simp [compareOn]) (by
    rintro ⟨c, s⟩ ⟨c', s'⟩ hc hs
    simp only [compareOn, Std.LawfulEqOrd.compare_eq_iff_eq] at hc hs
    rw [hc, hs])

def spellingOf (association : WordfenceV3SoftwareAssociation) : Spelling :=
  (association.component, association.sourceComponent)

/-- `sort` and `dedup`. -/
def sortDedup (spellings : List Spelling) : List Spelling :=
  (sortBy compareSpelling spellings).destutter (· ≠ ·)

variable (memory : Memory)

/-- `push_identity_collision_pair`. -/
def pushIdentityCollisionPair (spellings : Reserved Spelling)
    (association : WordfenceV3SoftwareAssociation) (retained : RetainedBudget) :
    Except WordfenceV3ProductionError (Reserved Spelling × RetainedBudget) := do
  let bytes ← addBytes (memory.stringCapacity association.component.slug)
    (memory.stringCapacity association.sourceComponent.slug)
  let retained ← retained.add bytes
  spellings.push memory .collision memory.sizeOfSpelling (spellingOf association) retained

/-- The number of pairs of a component in the table. -/
def identityCollisionCount (spellings : List Spelling) (component : WordPressComponentIdentity) : Nat :=
  let start := Slice.partitionPoint (fun s => compare s.1 component = .lt) spellings
  let stop := Slice.partitionPoint (fun s => (compare s.1 component).isLE) spellings
  stop - start

variable (records : List WordfenceV3Record)

/-- All associations that are mapped to a component. -/
def mappedAssociations : List WordfenceV3SoftwareAssociation :=
  records.flatMap WordfenceV3Record.software

/-- The pairs of the candidates. -/
def candidateSpellings (records : List WordfenceV3Record)
    (retained : RetainedBudget) :
    Except WordfenceV3ProductionError (Reserved Spelling × RetainedBudget) :=
  ((mappedAssociations records).filter fun association =>
      association.identityMapping = .asciiCaseFoldCandidate).foldlM
    (fun state association => pushIdentityCollisionPair memory state.1 association state.2)
    (Reserved.empty, retained)

/-- One exact association: its pair is added if the front of the table has its
component. -/
def pushExactSpelling (candidateSpellingCount : Nat)
    (state : Reserved Spelling × RetainedBudget) (association : WordfenceV3SoftwareAssociation) :
    Except WordfenceV3ProductionError (Reserved Spelling × RetainedBudget) :=
  match Slice.binarySearchBy (fun s => compare s.1 association.component)
      (state.1.values.take candidateSpellingCount) with
  | .error _ => .ok state
  | .ok _ => pushIdentityCollisionPair memory state.1 association state.2

/-- The pairs of exact associations of a component that the table has. -/
def exactSpellings (records : List WordfenceV3Record) (spellings : Reserved Spelling)
    (retained : RetainedBudget) :
    Except WordfenceV3ProductionError (Reserved Spelling × RetainedBudget) :=
  ((mappedAssociations records).filter fun association => association.identityMapping = .exact).foldlM
    (pushExactSpelling memory spellings.values.length) (spellings, retained)

/-! ### Resolution -/

/-- An association after its candidate was looked up. -/
def resolveAssociation (spellings : List Spelling) (association : WordfenceV3SoftwareAssociation) :
    WordfenceV3SoftwareAssociation :=
  if association.identityMapping = .asciiCaseFoldCandidate then
    let distinctSourceIdentities := identityCollisionCount spellings association.component
    if distinctSourceIdentities > 1 then
      { association with
        identityMapping := .asciiCaseFoldAmbiguous
        identityCollisionRawCount := some distinctSourceIdentities }
    else association
  else association

/-- `checked_add` of a count. -/
def countMore (count more : Nat) : Except WordfenceV3ProductionError Nat :=
  okOr (checkedAdd u64Max count more) .structuralLimitExceeded

/-- One more association of a mapping. -/
def countMapping (counts : WordfenceV3IdentityCounts) :
    WordfenceV3IdentityMapping → Except WordfenceV3ProductionError WordfenceV3IdentityCounts
  | .exact => do return { counts with exact := ← countMore counts.exact 1 }
  | .asciiCaseFoldCandidate => do return { counts with candidate := ← countMore counts.candidate 1 }
  | .asciiCaseFoldAmbiguous => do return { counts with ambiguous := ← countMore counts.ambiguous 1 }

/-- The loop over the associations of a record. -/
def resolveSoftware (spellings : List Spelling) :
    WordfenceV3IdentityCounts → List WordfenceV3SoftwareAssociation →
    Except WordfenceV3ProductionError (List WordfenceV3SoftwareAssociation × WordfenceV3IdentityCounts)
  | counts, [] => .ok ([], counts)
  | counts, association :: rest => do
    let association := resolveAssociation spellings association
    let counts ← countMapping counts association.identityMapping
    let (rest, counts) ← resolveSoftware spellings counts rest
    return (association :: rest, counts)

/-- The loop over the records. -/
def resolveRecords (spellings : List Spelling) :
    WordfenceV3IdentityCounts → List WordfenceV3Record →
    Except WordfenceV3ProductionError (List WordfenceV3Record × WordfenceV3IdentityCounts)
  | counts, [] => .ok ([], counts)
  | counts, record :: rest => do
    let unresolved ← countMore counts.unresolved record.unresolvedSoftware.length
    let (software, counts) ← resolveSoftware spellings { counts with unresolved } record.software
    let (rest, counts) ← resolveRecords spellings counts rest
    return ({ record with software } :: rest, counts)

/-- `resolve_identity_mappings`: the records with their mappings resolved, the
counts, and the peak of the accounting. -/
def resolveIdentityMappings (records : List WordfenceV3Record)
    (retainedBase maximumRetained : Nat) :
    Except WordfenceV3ProductionError (List WordfenceV3Record × WordfenceV3IdentityCounts × Nat) := do
  let budget ← RetainedBudget.withBase maximumRetained retainedBase
  let (spellings, budget) ← candidateSpellings memory records budget
  let spellings := { spellings with values := sortDedup spellings.values }
  let (spellings, budget) ← exactSpellings memory records spellings budget
  let (records, counts) ← resolveRecords (sortDedup spellings.values) ⟨0, 0, 0, 0⟩ records
  return (records, counts, budget.total)

/-! ### The index -/

/-- The record of an association and its place there. -/
abbrev AssociationCoordinate : Type := Nat × Nat

abbrev ComponentAssociationIndex : Type :=
  BTreeMap WordPressComponentIdentity (Reserved AssociationCoordinate)

/-- All associations with their coordinates. -/
def coordinates :
    List (WordfenceV3SoftwareAssociation × AssociationCoordinate) :=
  records.zipIdx.flatMap fun (record, recordIndex) =>
    record.software.zipIdx.map fun (association, associationIndex) =>
      (association, (recordIndex, associationIndex))

/-- The entry of a component, a new one accounted for. -/
def indexEntry (state : ComponentAssociationIndex × RetainedBudget)
    (component : WordPressComponentIdentity) :
    Except WordfenceV3ProductionError (Reserved AssociationCoordinate × RetainedBudget) :=
  match state.1[component]? with
  | some places => .ok (places, state.2)
  | none => do
    let bytes ← addBytes memory.sizeOfComponent memory.sizeOfCoordinates
    let bytes ← addBytes bytes (memory.stringCapacity component.slug)
    return (Reserved.empty, ← state.2.addBtreeEntry bytes)

/-- One association more in the index. -/
def indexAssociation (state : ComponentAssociationIndex × RetainedBudget)
    (entry : WordfenceV3SoftwareAssociation × AssociationCoordinate) :
    Except WordfenceV3ProductionError (ComponentAssociationIndex × RetainedBudget) := do
  let (places, retained) ← indexEntry memory state entry.1.component
  let (places, retained) ← places.push memory .index memory.sizeOfCoordinate entry.2 retained
  return (state.1.insert entry.1.component places, retained)

/-- `build_component_index`. -/
def buildComponentIndex (records : List WordfenceV3Record)
    (baseRetained maximumRetained : Nat) :
    Except WordfenceV3ProductionError (ComponentAssociationIndex × Nat) := do
  let retained ← RetainedBudget.withBase maximumRetained baseRetained
  let (index, retained) ← (coordinates records).foldlM (indexAssociation memory) (∅, retained)
  return (index, retained.total)

/-! ### What the table holds -/

instance : Std.Antisymm fun a b : Spelling => (compareSpelling a b).isLE = true where
  antisymm _ _ hab hba := Std.LawfulEqCmp.eq_of_compare (Std.OrientedCmp.isLE_antisymm hab hba)

variable (spellings : List Spelling) {memory : Memory}
  {mapped : List WordfenceV3SoftwareAssociation} {association : WordfenceV3SoftwareAssociation}
  {front : List Spelling} {mapped' : List WordfenceV3SoftwareAssociation}

theorem sortDedup_eq :
    sortDedup spellings = (sortBy compareSpelling spellings).dedup :=
  (pairwise_mergeSort_cmp compareSpelling spellings).destutter_eq_dedup

theorem mem_sortDedup {spelling : Spelling} {spellings : List Spelling} :
    spelling ∈ sortDedup spellings ↔ spelling ∈ spellings := by
  rw [sortDedup_eq, mem_dedup, sortBy, mem_mergeSort]

theorem nodup_sortDedup : (sortDedup spellings).Nodup := by
  rw [sortDedup_eq]
  exact nodup_dedup _

theorem pairwise_sortDedup :
    (sortDedup spellings).Pairwise fun a b => (compare a.1 b.1).isLE = true := by
  have hsort := (pairwise_mergeSort_cmp compareSpelling spellings).sublist
    (destutter_sublist (· ≠ ·) _)
  refine hsort.imp fun {a b} hab => ?_
  simp only [compareSpelling, compareLex, compareOn, Ordering.isLE_then_iff_and] at hab
  exact hab.1

/-- The table is in ascending order of components. -/
theorem ascending_sortDedup (component : WordPressComponentIdentity) :
    Slice.Ascending (fun s : Spelling => compare s.1 component) (sortDedup spellings) := by
  refine (pairwise_sortDedup spellings).imp fun {a b} hab => ⟨fun hgt => ?_, fun hlt => ?_⟩
  · exact Std.OrientedCmp.gt_of_lt
      (Std.TransCmp.lt_of_lt_of_isLE (Std.OrientedCmp.lt_of_gt hgt) hab)
  · exact Std.TransCmp.lt_of_isLE_of_lt hab hlt

/-- Up to a component: below it, or it. -/
theorem countP_isLE (table : List Spelling) (component : WordPressComponentIdentity) :
    table.countP (fun s => (compare s.1 component).isLE) =
      table.countP (fun s => compare s.1 component = .lt) +
        table.countP fun s => s.1 = component := by
  induction table with
  | nil => rfl
  | cons s table ih =>
    simp only [countP_cons, ih]
    cases hcmp : compare s.1 component with
    | lt =>
      have hne : s.1 ≠ component := by
        intro heq
        rw [heq, Std.LawfulEqOrd.compare_eq_iff_eq.mpr rfl] at hcmp
        cases hcmp
      simp [hne]
      omega
    | eq =>
      have heq : s.1 = component := Std.LawfulEqOrd.compare_eq_iff_eq.mp hcmp
      simp [heq]
      omega
    | gt =>
      have hne : s.1 ≠ component := by
        intro heq
        rw [heq, Std.LawfulEqOrd.compare_eq_iff_eq.mpr rfl] at hcmp
        cases hcmp
      simp [hne]

/-- The two partition points count the pairs of the component. -/
theorem identityCollisionCount_eq (component : WordPressComponentIdentity) :
    identityCollisionCount (sortDedup spellings) component =
      (sortDedup spellings).countP fun s => s.1 = component := by
  have hsort := pairwise_sortDedup spellings
  have hbel := @Slice.partitionPoint_eq_countP _ (sortDedup spellings)
    (fun s => compare s.1 component = .lt) (hsort.imp fun {a b} hab hb => by
      simp only [decide_eq_true_eq] at hb ⊢
      exact Std.TransCmp.lt_of_isLE_of_lt hab hb)
  have hupto := @Slice.partitionPoint_eq_countP _ (sortDedup spellings)
    (fun s => (compare s.1 component).isLE) (hsort.imp fun {a b} hab hb =>
      Std.TransCmp.isLE_trans hab hb)
  rw [identityCollisionCount, hbel, hupto, countP_isLE]
  omega

theorem pushIdentityCollisionPair_values {spellings spellings' : Reserved Spelling}
    {retained retained' : RetainedBudget}
    (h : pushIdentityCollisionPair memory spellings association retained = .ok (spellings', retained')) :
    spellings'.values = spellings.values ++ [spellingOf association] := by
  obtain ⟨_, _, h⟩ := bind_ok h
  obtain ⟨_, _, h⟩ := bind_ok h
  exact (Reserved.push_grown h).values

theorem candidateSpellings_values {records : List WordfenceV3Record}
    {spellings : Reserved Spelling} {retained retained' : RetainedBudget}
    (h : candidateSpellings memory records retained = .ok (spellings, retained')) :
    spellings.values = ((mappedAssociations records).filter fun association =>
      association.identityMapping = .asciiCaseFoldCandidate).map spellingOf := by
  unfold candidateSpellings at h
  generalize (mappedAssociations records).filter _ = associations at h ⊢
  have hfold : ∀ (associations : List WordfenceV3SoftwareAssociation)
      (state : Reserved Spelling × RetainedBudget), associations.foldlM
        (fun state association => pushIdentityCollisionPair memory state.1 association state.2) state =
          .ok (spellings, retained') →
      spellings.values = state.1.values ++ associations.map spellingOf := by
    intro associations
    induction associations with
    | nil =>
      intro state h
      cases h
      simp
    | cons association associations ih =>
      intro state h
      rw [foldlM_cons] at h
      obtain ⟨next, hnext, hrest⟩ := bind_ok h
      rw [ih next hrest, pushIdentityCollisionPair_values hnext]
      simp
  simpa [Reserved.empty] using hfold associations _ h

/-- Whether the table has the component of an association. -/
def covers (table : List Spelling) (association : WordfenceV3SoftwareAssociation) : Bool :=
  table.any fun s => s.1 = association.component

theorem pushExactSpelling_values {front more : List Spelling}
    {state next : Reserved Spelling × RetainedBudget}
    (hst : state.1.values = sortDedup front ++ more)
    (h : pushExactSpelling memory (sortDedup front).length state association = .ok next) :
    next.1.values = sortDedup front ++ (more ++
      if covers (sortDedup front) association then [spellingOf association] else []) := by
  have hsearch := Slice.binarySearchBy_isErr_iff (ascending_sortDedup front association.component)
  rw [pushExactSpelling, hst, take_left] at h
  cases hfnd : Slice.binarySearchBy (fun s => compare s.1 association.component) (sortDedup front) with
  | error index =>
    rw [hfnd] at h
    cases h
    have hnone : covers (sortDedup front) association = false := by
      rw [covers, any_eq_false]
      intro s hs
      have hne := hsearch.mp ⟨index, hfnd⟩ s hs
      simpa [Std.LawfulEqOrd.compare_eq_iff_eq] using hne
    simp [hnone, hst]
  | ok index =>
    rw [hfnd] at h
    have hsome : covers (sortDedup front) association = true := by
      by_contra hnone
      obtain ⟨_, herr⟩ := hsearch.mpr (by
        intro s hs heq
        refine hnone (any_eq_true.mpr ⟨s, hs, ?_⟩)
        simpa using Std.LawfulEqOrd.compare_eq_iff_eq.mp heq)
      rw [hfnd] at herr
      cases herr
    rw [pushIdentityCollisionPair_values h, hst, hsome]
    simp

/-- The exact associations of the components in the front of the table are
added, and no others. -/
theorem exactSpellings_values {records : List WordfenceV3Record} {capacity : Nat}
    {spellings : Reserved Spelling} {retained retained' : RetainedBudget}
    (h : exactSpellings memory records ⟨sortDedup front, capacity⟩ retained =
      .ok (spellings, retained')) :
    spellings.values = sortDedup front ++ (((mappedAssociations records).filter fun association =>
      association.identityMapping = .exact).filter (covers (sortDedup front))).map spellingOf := by
  unfold exactSpellings at h
  simp only at h
  generalize (mappedAssociations records).filter _ = associations at h ⊢
  -- the table keeps the candidates in front, however many pairs follow
  have hfold : ∀ (associations : List WordfenceV3SoftwareAssociation)
      (state : Reserved Spelling × RetainedBudget) (more : List Spelling),
      state.1.values = sortDedup front ++ more →
      associations.foldlM (pushExactSpelling memory (sortDedup front).length) state =
        .ok (spellings, retained') →
      spellings.values = sortDedup front ++
        (more ++ (associations.filter (covers (sortDedup front))).map spellingOf) := by
    intro associations
    induction associations with
    | nil =>
      intro state more hst h
      cases h
      simpa using hst
    | cons association associations ih =>
      intro state more hst h
      rw [foldlM_cons] at h
      obtain ⟨next, hnext, hrest⟩ := bind_ok h
      rw [ih next _ (pushExactSpelling_values hst hnext) hrest]
      cases hcovers : covers (sortDedup front) association <;> simp [hcovers]
  simpa using hfold associations _ [] (by simp) h

/-! ### The definition over the whole feed -/

/-- The number of distinct source identities of a component. -/
def distinctSources (mapped : List WordfenceV3SoftwareAssociation)
    (component : WordPressComponentIdentity) : Nat :=
  ((mapped.filter fun a => a.component = component).map
    WordfenceV3SoftwareAssociation.sourceComponent).dedup.length

/-- The mapping and the count of an association: exact if its source slug is a
valid slug, and otherwise ambiguous if there is another spelling. -/
def wholeFeedIdentity (mapped : List WordfenceV3SoftwareAssociation)
    (association : WordfenceV3SoftwareAssociation) : WordfenceV3IdentityMapping × Option Nat :=
  let source := association.sourceComponent
  if (WordPressComponentIdentity.new source.kind source.slug).isSome then (.exact, none)
  else if 1 < distinctSources mapped association.component then
    (.asciiCaseFoldAmbiguous, some (distinctSources mapped association.component))
  else (.asciiCaseFoldCandidate, none)

/-- An association with the mapping of the definition. -/
def settle (mapped : List WordfenceV3SoftwareAssociation)
    (association : WordfenceV3SoftwareAssociation) : WordfenceV3SoftwareAssociation :=
  { association with
    identityMapping := (wholeFeedIdentity mapped association).1
    identityCollisionRawCount := (wholeFeedIdentity mapped association).2 }

/-- A record with all of its associations settled. -/
def settleRecord (mapped : List WordfenceV3SoftwareAssociation) (record : WordfenceV3Record) :
    WordfenceV3Record :=
  { record with software := record.software.map (settle mapped) }

/-- What decoding makes of an association. -/
structure Decoded (association : WordfenceV3SoftwareAssociation) : Prop where
  mapping : mapComponent association.sourceComponent =
    some (association.component, association.identityMapping)
  count : association.identityCollisionRawCount = none

theorem Decoded.cases {association : WordfenceV3SoftwareAssociation} (h : Decoded association) :
    (association.identityMapping = .exact ∧ (WordPressComponentIdentity.new
        association.sourceComponent.kind association.sourceComponent.slug).isSome = true) ∨
      (association.identityMapping = .asciiCaseFoldCandidate ∧ (WordPressComponentIdentity.new
        association.sourceComponent.kind association.sourceComponent.slug).isSome = false) := by
  have hmapp := h.mapping
  unfold mapComponent at hmapp
  cases hnew : WordPressComponentIdentity.new association.sourceComponent.kind
      association.sourceComponent.slug with
  | some component =>
    rw [hnew] at hmapp
    simp only [Option.some.injEq, Prod.mk.injEq] at hmapp
    exact Or.inl ⟨hmapp.2.symm, rfl⟩
  | none =>
    rw [hnew] at hmapp
    obtain ⟨component, -, hpair⟩ := Option.map_eq_some_iff.mp hmapp
    exact Or.inr ⟨(Prod.mk.inj hpair).2.symm, rfl⟩

/-- The pairs of a component that has a candidate are those of all of its
associations. -/
theorem table_count (hdec : ∀ a ∈ mapped, Decoded a) (hfr : front = (mapped.filter fun a =>
      a.identityMapping = .asciiCaseFoldCandidate).map spellingOf)
    (hmem : association ∈ mapped)
    (hcand : association.identityMapping = .asciiCaseFoldCandidate) :
    (sortDedup (sortDedup front ++ ((mapped.filter fun a => a.identityMapping = .exact).filter
      (covers (sortDedup front))).map spellingOf)).countP (fun s => s.1 = association.component) =
      distinctSources mapped association.component := by
  generalize htable : sortDedup (sortDedup front ++ _) = table
  have hcovers : ∀ a, a.component = association.component → covers (sortDedup front) a = true := by
    intro a ha
    refine any_eq_true.mpr ⟨spellingOf association, mem_sortDedup.mpr ?_, by simp [spellingOf, ha]⟩
    rw [hfr]
    exact mem_map_of_mem (mem_filter.mpr ⟨hmem, by simp [hcand]⟩)
  -- a pair of the component is in the table if an association has it
  have hpair : ∀ source, (association.component, source) ∈ table ↔
      ∃ a ∈ mapped, a.component = association.component ∧ a.sourceComponent = source := by
    intro source
    rw [← htable, mem_sortDedup, mem_append, mem_sortDedup, hfr]
    simp only [mem_map, mem_filter, decide_eq_true_eq, spellingOf, Prod.mk.injEq]
    constructor
    · rintro (⟨a, ⟨ha, -⟩, hcomp, hsource⟩ | ⟨a, ⟨⟨ha, -⟩, -⟩, hcomp, hsource⟩)
      · exact ⟨a, ha, hcomp, hsource⟩
      · exact ⟨a, ha, hcomp, hsource⟩
    · rintro ⟨a, ha, hcomp, hsource⟩
      rcases (hdec a ha).cases with ⟨hexact, -⟩ | ⟨hfold, -⟩
      · right
        refine ⟨a, ⟨⟨ha, hexact⟩, ?_⟩, hcomp, hsource⟩
        rw [← hfr]
        exact hcovers a hcomp
      · exact Or.inl ⟨a, ⟨ha, hfold⟩, hcomp, hsource⟩
  have hnd : table.Nodup := htable ▸ nodup_sortDedup _
  rw [countP_eq_length_filter, distinctSources, ← @length_map _ _ _ Prod.snd]
  refine List.Perm.length_eq ((perm_ext_iff_of_nodup ?_ (nodup_dedup _)).mpr fun source => ?_)
  · refine (nodup_map_iff_inj_on (hnd.filter _)).mpr ?_
    rintro ⟨c, x⟩ hx ⟨c', y⟩ hy hxy
    simp only [mem_filter, decide_eq_true_eq] at hx hy
    obtain rfl : x = y := hxy
    rw [hx.2, hy.2]
  · rw [mem_dedup]
    simp only [mem_map, mem_filter, decide_eq_true_eq, and_assoc, Prod.exists]
    constructor
    · rintro ⟨c, s, hs, rfl, rfl⟩
      exact (hpair _).mp hs
    · intro h
      exact ⟨_, _, (hpair source).mpr h, rfl, rfl⟩

/-- Looking up in the table is the definition over the whole feed. -/
theorem resolveAssociation_eq (hdec : ∀ a ∈ mapped, Decoded a)
    (hfr : front = (mapped.filter fun a =>
      a.identityMapping = .asciiCaseFoldCandidate).map spellingOf)
    (hmem : association ∈ mapped) :
    resolveAssociation (sortDedup (sortDedup front ++ ((mapped.filter fun a =>
      a.identityMapping = .exact).filter (covers (sortDedup front))).map spellingOf)) association =
      settle mapped association := by
  have hself := hdec association hmem
  rcases hself.cases with ⟨hexact, hnew⟩ | ⟨hfold, hnew⟩
  · rw [resolveAssociation, if_neg (by rw [hexact]; decide), settle, wholeFeedIdentity]
    simp only [hnew, if_true, ← hexact, ← hself.count]
  · have hcnt := table_count hdec hfr hmem hfold
    rw [← identityCollisionCount_eq] at hcnt
    rw [resolveAssociation, if_pos hfold, settle, wholeFeedIdentity]
    simp only [hcnt, hnew, Bool.false_eq_true, if_false]
    by_cases hmany : 1 < distinctSources mapped association.component
    · rw [if_pos hmany, if_pos hmany]
    · rw [if_neg hmany, if_neg hmany]
      simp only [← hfold, ← hself.count]

/-! ### Counts -/

/-- The counts of a list of records. -/
def countsOf : WordfenceV3IdentityCounts where
  exact := (mappedAssociations records).countP fun a => a.identityMapping = .exact
  candidate := (mappedAssociations records).countP fun a =>
    a.identityMapping = .asciiCaseFoldCandidate
  ambiguous := (mappedAssociations records).countP fun a =>
    a.identityMapping = .asciiCaseFoldAmbiguous
  unresolved := (records.map fun record => record.unresolvedSoftware.length).sum

/-- All counts together. -/
def WordfenceV3IdentityCounts.plus (a b : WordfenceV3IdentityCounts) : WordfenceV3IdentityCounts :=
  ⟨a.exact + b.exact, a.candidate + b.candidate, a.ambiguous + b.ambiguous,
    a.unresolved + b.unresolved⟩

theorem countMore_eq_ok {count more total : Nat} (h : countMore count more = .ok total) :
    total = count + more := by
  unfold countMore at h
  cases hadd : checkedAdd u64Max count more with
  | none =>
    rw [hadd] at h
    cases h
  | some sum =>
    rw [hadd] at h
    cases h
    exact (checkedAdd_eq_some.mp hadd).2

/-- One more association of a mapping. -/
theorem countMapping_eq_ok {counts counts' : WordfenceV3IdentityCounts}
    {mapping : WordfenceV3IdentityMapping} (h : countMapping counts mapping = .ok counts') :
    counts' = WordfenceV3IdentityCounts.plus counts ⟨if mapping = .exact then 1 else 0,
      if mapping = .asciiCaseFoldCandidate then 1 else 0,
      if mapping = .asciiCaseFoldAmbiguous then 1 else 0, 0⟩ := by
  cases mapping <;>
    · obtain ⟨total, htot, h⟩ := bind_ok h
      cases h
      rw [countMore_eq_ok htot]
      rfl

/-- The counts of a list of associations. -/
def softwareCounts (software : List WordfenceV3SoftwareAssociation) : WordfenceV3IdentityCounts where
  exact := software.countP fun a => a.identityMapping = .exact
  candidate := software.countP fun a => a.identityMapping = .asciiCaseFoldCandidate
  ambiguous := software.countP fun a => a.identityMapping = .asciiCaseFoldAmbiguous
  unresolved := 0

theorem resolveSoftware_eq {spellings : List Spelling} :
    ∀ {software resolved : List WordfenceV3SoftwareAssociation}
      {counts counts' : WordfenceV3IdentityCounts},
    resolveSoftware spellings counts software = .ok (resolved, counts') →
    resolved = software.map (resolveAssociation spellings) ∧
      counts' = WordfenceV3IdentityCounts.plus counts (softwareCounts resolved)
  | [], resolved, counts, counts', h => by
    cases h
    exact ⟨rfl, rfl⟩
  | association :: rest, resolved, counts, counts', h => by
    obtain ⟨counts₁, hcounts₁, h⟩ := bind_ok h
    obtain ⟨⟨rest', counts₂⟩, hrest, h⟩ := bind_ok h
    cases h
    obtain ⟨rfl, rfl⟩ := resolveSoftware_eq hrest
    refine ⟨rfl, ?_⟩
    rw [countMapping_eq_ok hcounts₁]
    simp only [WordfenceV3IdentityCounts.plus, softwareCounts, countP_cons, decide_eq_true_eq,
      WordfenceV3IdentityCounts.mk.injEq]
    exact ⟨by ring, by ring, by ring, trivial⟩

theorem resolveRecords_eq {spellings : List Spelling} :
    ∀ {records resolved : List WordfenceV3Record} {counts counts' : WordfenceV3IdentityCounts},
    resolveRecords spellings counts records = .ok (resolved, counts') →
    resolved = records.map (fun record =>
        { record with software := record.software.map (resolveAssociation spellings) }) ∧
      counts' = WordfenceV3IdentityCounts.plus counts (countsOf resolved)
  | [], resolved, counts, counts', h => by
    cases h
    exact ⟨rfl, rfl⟩
  | record :: rest, resolved, counts, counts', h => by
    obtain ⟨unresolved, hunres, h⟩ := bind_ok h
    obtain ⟨⟨software, counts₁⟩, hsoft, h⟩ := bind_ok h
    obtain ⟨⟨rest', counts₂⟩, hrest, h⟩ := bind_ok h
    cases h
    obtain ⟨rfl, rfl⟩ := resolveSoftware_eq hsoft
    obtain ⟨rfl, rfl⟩ := resolveRecords_eq hrest
    refine ⟨rfl, ?_⟩
    rw [countMore_eq_ok hunres]
    simp only [WordfenceV3IdentityCounts.plus, softwareCounts, countsOf, mappedAssociations,
      flatMap_cons, countP_append, map_cons, sum_cons,
      WordfenceV3IdentityCounts.mk.injEq]
    omega

/-- **Resolution is the definition over the whole feed.** -/
theorem resolveIdentityMappings_eq {records resolved : List WordfenceV3Record}
    {base maximum peak : Nat} {counts : WordfenceV3IdentityCounts}
    (hdec : ∀ a ∈ mappedAssociations records, Decoded a)
    (h : resolveIdentityMappings memory records base maximum = .ok (resolved, counts, peak)) :
    resolved = records.map (settleRecord (mappedAssociations records)) ∧
      counts = countsOf resolved := by
  obtain ⟨budget, -, h⟩ := bind_ok h
  obtain ⟨⟨front, budget₁⟩, hfr, h⟩ := bind_ok h
  obtain ⟨⟨spellings, budget₂⟩, hspel, h⟩ := bind_ok h
  obtain ⟨⟨resolved', counts'⟩, hresv, h⟩ := bind_ok h
  simp only [pure, pure] at h
  obtain ⟨rfl, rfl, -⟩ := h
  have hvalues := candidateSpellings_values hfr
  obtain ⟨rfl, rfl⟩ := resolveRecords_eq hresv
  rw [exactSpellings_values hspel]
  refine ⟨map_congr_left fun record hrec => ?_, by simp [WordfenceV3IdentityCounts.plus]⟩
  rw [settleRecord]
  congr 1
  refine map_congr_left fun association hassoc => ?_
  exact resolveAssociation_eq hdec hvalues (mem_flatMap.mpr ⟨record, hrec, hassoc⟩)

/-- The counts add up to the number of associations. -/
theorem countsOf_total :
    (countsOf records).exact + (countsOf records).candidate + (countsOf records).ambiguous +
      (countsOf records).unresolved =
    (records.map fun record => record.software.length + record.unresolvedSoftware.length).sum := by
  have hmapped : ∀ mapped : List WordfenceV3SoftwareAssociation,
      mapped.countP (fun a => a.identityMapping = .exact) +
        mapped.countP (fun a => a.identityMapping = .asciiCaseFoldCandidate) +
        mapped.countP (fun a => a.identityMapping = .asciiCaseFoldAmbiguous) = mapped.length := by
    intro mapped
    induction mapped with
    | nil => rfl
    | cons a mapped ih =>
      simp only [countP_cons, length_cons, ← ih]
      cases a.identityMapping <;> simp <;> omega
  simp only [countsOf, hmapped]
  induction records with
  | nil => rfl
  | cons record records ih =>
    simp only [mappedAssociations, flatMap_cons, length_append, map_cons,
      sum_cons] at ih ⊢
    omega

/-! ### Order -/

theorem distinctSources_perm (h : mapped.Perm mapped') (component : WordPressComponentIdentity) :
    distinctSources mapped component = distinctSources mapped' component := by
  unfold distinctSources
  exact (((h.filter _).map _).dedup).length_eq

theorem wholeFeedIdentity_perm (h : mapped.Perm mapped') :
    wholeFeedIdentity mapped = wholeFeedIdentity mapped' := by
  funext association
  simp only [wholeFeedIdentity, distinctSources_perm h]

theorem settle_perm (h : mapped.Perm mapped') : settle mapped = settle mapped' := by
  funext association
  simp only [settle, wholeFeedIdentity_perm h]

/-- What is settled keeps its key, so the definition can be read off the
settled associations. -/
theorem distinctSources_settle (whole mapped : List WordfenceV3SoftwareAssociation)
    (component : WordPressComponentIdentity) :
    distinctSources (mapped.map (settle whole)) component = distinctSources mapped component := by
  simp only [distinctSources, filter_map, map_map]
  rfl

theorem mappedAssociations_settle (whole : List WordfenceV3SoftwareAssociation)
    (records : List WordfenceV3Record) : mappedAssociations (records.map (settleRecord whole)) =
      (mappedAssociations records).map (settle whole) := by
  simp [mappedAssociations, settleRecord, flatMap_map, map_flatMap]

theorem wholeFeedIdentity_settle (whole mapped : List WordfenceV3SoftwareAssociation)
    (association : WordfenceV3SoftwareAssociation) :
    wholeFeedIdentity (mapped.map (settle whole)) (settle whole association) =
      wholeFeedIdentity mapped association := by
  simp only [wholeFeedIdentity, distinctSources_settle]
  rfl

/-! ### Finding associations -/

/-- The coordinates of a component in the index. -/
def placesOf (index : ComponentAssociationIndex) (component : WordPressComponentIdentity) :
    List AssociationCoordinate :=
  ((index[component]?).map Reserved.values).getD []

/-- The association at a place, with its record. -/
def viewAt (place : AssociationCoordinate) :
    Option (WordfenceV3Record × WordfenceV3SoftwareAssociation) := do
  let record ← records[place.1]?
  let association ← record.software[place.2]?
  return (record, association)

/-- All associations with their records and places. -/
def views :
    List ((WordfenceV3Record × WordfenceV3SoftwareAssociation) × AssociationCoordinate) :=
  records.zipIdx.flatMap fun (record, recordIndex) =>
    record.software.zipIdx.map fun (association, associationIndex) =>
      ((record, association), (recordIndex, associationIndex))

theorem coordinates_eq_views :
    coordinates records = (views records).map fun view => (view.1.2, view.2) := by
  simp [coordinates, views, map_flatMap, Function.comp_def]

theorem viewAt_of_mem {records : List WordfenceV3Record}
    {view : (WordfenceV3Record × WordfenceV3SoftwareAssociation) × AssociationCoordinate}
    (h : view ∈ views records) : viewAt records view.2 = some view.1 := by
  obtain ⟨⟨record, i⟩, hrec, hview⟩ := mem_flatMap.mp h
  obtain ⟨⟨association, j⟩, hassoc, rfl⟩ := mem_map.mp hview
  have hi := (mem_zipIdx_iff_getElem?.mp hrec)
  have hj := (mem_zipIdx_iff_getElem?.mp hassoc)
  simp [viewAt, hi, hj]

/-- The records and associations in the order of the feed. -/
theorem views_fst : (views records).map Prod.fst =
    records.flatMap fun record => record.software.map (record, ·) := by
  have hinn : ∀ (record : WordfenceV3Record) (i : Nat), (record.software.zipIdx.map
      fun (association, j) => ((record, association), (i, j))).map Prod.fst =
      record.software.map (record, ·) := by
    intro record i
    conv => rhs; rw [← @zipIdx_map_fst _ 0 record.software]
    rw [map_map, map_map]
    rfl
  simp only [views, map_flatMap, hinn]
  conv => rhs; rw [← @zipIdx_map_fst _ 0 records]
  rw [flatMap_map]

theorem mapM_viewAt {records : List WordfenceV3Record}
    {found : List ((WordfenceV3Record × WordfenceV3SoftwareAssociation) × AssociationCoordinate)}
    (h : ∀ view ∈ found, viewAt records view.2 = some view.1) :
    (found.map Prod.snd).mapM (viewAt records) = some (found.map Prod.fst) := by
  induction found with
  | nil => rfl
  | cons view found ih =>
    simp only [map_cons, mapM_cons, h view mem_cons_self,
      ih fun other hoth => h other (mem_cons_of_mem _ hoth)]
    rfl

theorem indexAssociation_places {state next : ComponentAssociationIndex × RetainedBudget}
    {entry : WordfenceV3SoftwareAssociation × AssociationCoordinate}
    (h : indexAssociation memory state entry = .ok next) (component : WordPressComponentIdentity) :
    placesOf next.1 component = placesOf state.1 component ++
      if entry.1.component = component then [entry.2] else [] := by
  obtain ⟨⟨places, retained⟩, hplaces, h⟩ := bind_ok h
  obtain ⟨⟨grown, retained'⟩, hgrown, h⟩ := bind_ok h
  cases h
  have hvalues : places.values = placesOf state.1 entry.1.component := by
    unfold placesOf
    unfold indexEntry at hplaces
    cases hold : state.1[entry.1.component]? with
    | some old =>
      rw [hold] at hplaces
      obtain ⟨rfl, -⟩ := Prod.mk.inj (ok.inj hplaces)
      rfl
    | none =>
      rw [hold] at hplaces
      obtain ⟨_, _, hplaces⟩ := bind_ok hplaces
      obtain ⟨_, _, hplaces⟩ := bind_ok hplaces
      obtain ⟨_, _, hplaces⟩ := bind_ok hplaces
      obtain ⟨rfl, -⟩ := Prod.mk.inj (ok.inj hplaces)
      rfl
  by_cases hsame : entry.1.component = component
  · subst hsame
    rw [placesOf, get_insert_self, if_pos rfl, ← hvalues]
    exact (Reserved.push_grown hgrown).values
  · rw [if_neg hsame, append_nil, placesOf, get_insert_ne _ hsame]
    rfl

/-- **The index finds the associations of a component**, each once and in the
order of the records. -/
theorem buildComponentIndex_find {records : List WordfenceV3Record}
    {base maximum total : Nat} {index : ComponentAssociationIndex}
    (h : buildComponentIndex memory records base maximum = .ok (index, total))
    (component : WordPressComponentIdentity) :
    (placesOf index component).mapM (viewAt records) = some (records.flatMap fun record =>
        (record.software.filter fun a => a.component = component).map (record, ·)) := by
  obtain ⟨budget, -, h⟩ := bind_ok h
  obtain ⟨⟨index', retained⟩, hfold, h⟩ := bind_ok h
  obtain ⟨rfl, -⟩ := Prod.mk.inj (ok.inj h)
  have hplaces : ∀ (entries : List (WordfenceV3SoftwareAssociation × AssociationCoordinate))
      (state : ComponentAssociationIndex × RetainedBudget),
      entries.foldlM (indexAssociation memory) state = .ok (index', retained) →
      placesOf index' component = placesOf state.1 component ++
        (entries.filter fun entry => entry.1.component = component).map Prod.snd := by
    intro entries
    induction entries with
    | nil =>
      intro state h
      cases h
      simp
    | cons entry entries ih =>
      intro state h
      rw [foldlM_cons] at h
      obtain ⟨next, hnext, hrest⟩ := bind_ok h
      rw [ih next hrest, indexAssociation_places hnext]
      by_cases hsame : entry.1.component = component <;> simp [hsame]
  have hall := hplaces _ _ hfold
  have hemp : placesOf ∅ component = [] := by simp [placesOf]
  rw [hemp, nil_append, coordinates_eq_views, filter_map, map_map] at hall
  -- the places that were found are those of the views of the component
  have hfnd : placesOf index' component = ((views records).filter fun view =>
      view.1.2.component = component).map Prod.snd := hall
  rw [hfnd, mapM_viewAt fun view hview => viewAt_of_mem (mem_filter.mp hview).1]
  congr 1
  rw [show (fun view : (WordfenceV3Record × WordfenceV3SoftwareAssociation) × AssociationCoordinate =>
      decide (view.1.2.component = component)) =
      (fun view => decide (view.2.component = component)) ∘ Prod.fst from rfl, ← filter_map,
    views_fst, filter_flatMap]
  congr 1
  funext record
  rw [filter_map]
  rfl

end Termivar.Wordfence
