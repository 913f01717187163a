/-
# The accounting of an import is exact

The budget is charged for the index while its vectors grow, and what is
retained is measured once more in the end, from the capacities alone. Both
count the same bytes (`buildComponentIndex_admits`, `retainedImportBytes_eq`),
whatever the allocator gives beyond what it was asked for, so the second count
never turns a feed down.
-/
import Termivar.WordPress.Accepted

namespace Termivar.Wordfence

open Checked RetainedBudget List

/-- A loop of accounting. -/
theorem foldlM_admits {α β : Type} (budget : β → RetainedBudget)
    {f : β → α → Except WordfenceV3ProductionError β}
    (h : ∀ b a, wp (f b a) (fun b' => (budget b).Keeps (budget b')) OverBudget) (as : List α)
    (b : β) : wp (as.foldlM f b) (fun b' => (budget b).Keeps (budget b')) OverBudget :=
  @wp_foldlM _ OverBudget _ _ f (fun _ b' => (budget b).Keeps (budget b')) as b (.refl _)
    fun a _ b' hb => wp_imp (h b' a) fun _ h' => hb.trans h'

variable (memory : Memory) (records : List WordfenceV3Record)

/-! ### The table of spellings -/

theorem pushIdentityCollisionPair_admits (spellings : Reserved Spelling)
    (association : WordfenceV3SoftwareAssociation) (retained : RetainedBudget) :
    wp (pushIdentityCollisionPair memory spellings association retained)
      (fun next => retained.Keeps next.2) OverBudget := by
  rw [pushIdentityCollisionPair, wp_bind]
  refine wp_imp (addBytes_admits _ _) fun _ _ => ?_
  rw [wp_bind]
  refine wp_imp (add_admits _ _) fun _ h => ?_
  exact wp_imp (Reserved.push_admits _) fun _ h' => h.keeps.trans h'.keeps

theorem candidateSpellings_admits (retained : RetainedBudget) :
    wp (candidateSpellings memory records retained) (fun next => retained.Keeps next.2)
      OverBudget :=
  foldlM_admits Prod.snd (fun state association =>
    pushIdentityCollisionPair_admits memory state.1 association state.2) _ _

theorem exactSpellings_admits (spellings : Reserved Spelling) (retained : RetainedBudget) :
    wp (exactSpellings memory records spellings retained)
      (fun next => retained.Keeps next.2) OverBudget := by
  refine foldlM_admits Prod.snd (fun state association => ?_) _ _
  unfold pushExactSpelling
  split
  · exact .refl _
  · exact pushIdentityCollisionPair_admits _ _ _ _

variable {memory records}

/-- The peak of the resolution is within the maximum. -/
theorem resolveIdentityMappings_peak {base maximum : Nat}
    {resolved : List WordfenceV3Record × WordfenceV3IdentityCounts × Nat}
    (h : resolveIdentityMappings memory records base maximum = .ok resolved) :
    resolved.2.2 ≤ maximum := by
  obtain ⟨budget, hbud, h⟩ := bind_ok h
  obtain ⟨front, hfr, h⟩ := bind_ok h
  obtain ⟨spellings, hspel, h⟩ := bind_ok h
  obtain ⟨_, -, h⟩ := bind_ok h
  cases h
  obtain ⟨rfl, hbase⟩ := of_wp (withBase_admits _ _) hbud
  have hcands := of_wp (candidateSpellings_admits _ _ _) hfr
  have hexact := of_wp (exactSpellings_admits _ _ _ _) hspel
  have hkeep := hcands.trans hexact
  exact (hkeep.2 hbase).trans_eq hkeep.1

/-! ### The index -/

/-- What is retained for an entry of the index. -/
def entryBytes (memory : Memory)
    (entry : WordPressComponentIdentity × Reserved AssociationCoordinate) : Nat :=
  memory.sizeOfComponent + memory.sizeOfCoordinates + memory.stringCapacity entry.1.slug +
    entry.2.capacity * memory.sizeOfCoordinate + btreeNodeBytes

def indexBytes (memory : Memory) (index : ComponentAssociationIndex) : Nat :=
  (index.toList.map (entryBytes memory)).sum

variable {index : ComponentAssociationIndex} {component : WordPressComponentIdentity}
  {places : Reserved AssociationCoordinate}

/-- A vector that grows. -/
theorem indexBytes_insert (grown : Reserved AssociationCoordinate)
    (h : index[component]? = some places) :
    indexBytes memory (index.insert component grown) + places.capacity * memory.sizeOfCoordinate =
      indexBytes memory index + grown.capacity * memory.sizeOfCoordinate := by
  obtain ⟨hold, hnew⟩ := toList_insert_old grown h
  simp only [indexBytes, (hold.map _).sum_eq, (hnew.map _).sum_eq, map_cons, sum_cons, entryBytes]
  omega

theorem indexEntry_admits (state : ComponentAssociationIndex × RetainedBudget) :
    wp (indexEntry memory state component) (fun next => state.2.Keeps next.2 ∧
      next.2.total + indexBytes memory state.1 =
        state.2.total + indexBytes memory (state.1.insert component next.1)) OverBudget := by
  unfold indexEntry
  cases hkn : state.1[component]? with
  | some places =>
    have hsame := @indexBytes_insert memory _ _ _ places hkn
    exact ⟨.refl _, by simp only; omega⟩
  | none =>
    simp only [wp_rules]
    refine wp_imp (addBytes_admits _ _) fun bytes hbs => ?_
    refine wp_imp (addBytes_admits _ _) fun bytes' hbs' => ?_
    refine wp_imp (addBtreeEntry_admits _ _) fun r hr => ⟨hr.keeps, ?_⟩
    have hnew := ((toList_insert_new Reserved.empty hkn).map (entryBytes memory)).sum_eq
    simp only [map_cons, sum_cons, entryBytes, Reserved.empty, Nat.zero_mul] at hnew
    simp only [hr.total, indexBytes, Reserved.empty, hnew]
    omega

/-- One more association is charged for as much as the index grows. -/
theorem indexAssociation_admits (state : ComponentAssociationIndex × RetainedBudget)
    (entry : WordfenceV3SoftwareAssociation × AssociationCoordinate) :
    wp (indexAssociation memory state entry) (fun next => state.2.Keeps next.2 ∧
      (memory.Grants → next.2.total + indexBytes memory state.1 =
        state.2.total + indexBytes memory next.1)) OverBudget := by
  simp only [indexAssociation, wp_rules]
  refine wp_imp (indexEntry_admits state) fun opened hopened => ?_
  refine wp_imp (Reserved.push_admits _) fun next hnext => ⟨hopened.1.trans hnext.keeps, ?_⟩
  intro hmem
  have hgrown := @indexBytes_insert memory (state.1.insert entry.1.component opened.1) _ _ next.1
    (get_insert_self _ _ _)
  rw [insert_insert] at hgrown
  have htot := (hnext.exact hmem).2
  have hopened := hopened.2
  omega

theorem indexBytes_empty : indexBytes memory ∅ = 0 := by
  rw [indexBytes, Std.ExtTreeMap.toList_eq_nil_iff.mpr rfl]
  rfl

/-- **The index is paid for exactly**, and within the maximum. -/
theorem buildComponentIndex_admits (base maximum : Nat) :
    wp (buildComponentIndex memory records base maximum) (fun built => built.2 ≤ maximum ∧
      (memory.Grants → built.2 = base + indexBytes memory built.1)) OverBudget := by
  rw [buildComponentIndex, wp_bind]
  refine wp_imp (withBase_admits _ _) fun budget hbud => ?_
  obtain ⟨rfl, hbase⟩ := hbud
  rw [wp_bind]
  refine wp_imp (@wp_foldlM _ OverBudget _ _ (indexAssociation memory)
    (fun _ next => RetainedBudget.Keeps ⟨base, maximum, 0⟩ next.2 ∧
      (memory.Grants → next.2.total = base + indexBytes memory next.1)) _ _
    ⟨.refl _, fun _ => by rw [indexBytes_empty, Nat.add_zero]⟩ fun entry _ state hst => ?_)
    fun built hbt => ⟨(hbt.1.2 hbase).trans_eq hbt.1.1, hbt.2⟩
  refine wp_imp (indexAssociation_admits state entry) fun next hnext =>
    ⟨hst.1.trans hnext.1, fun hmem => ?_⟩
  have hone := hnext.2 hmem
  have hall := hst.2 hmem
  omega

/-! ### The second count -/

variable (memory records) (recordsCapacity : Nat) (notices : List WordfenceV3Notice)
  (noticesCapacity : Nat) (maximum : Nat)

theorem retainedRecordsAndNoticesBytes_admits :
    wp (retainedRecordsAndNoticesBytes memory records recordsCapacity notices noticesCapacity
      maximum) (fun base => base ≤ maximum) OverBudget := by
  simp only [retainedRecordsAndNoticesBytes, wp_rules]
  refine wp_imp (withBase_admits _ _) fun start hsta => ?_
  refine wp_imp (mulBytes_admits _ _) fun _ _ => ?_
  refine wp_imp (add_admits _ _) fun _ hrecs => ?_
  refine wp_imp (foldlM_admits id (fun _ _ => ?_) _ _) fun _ hdyn => ?_
  · simp only [wp_rules]
    exact ⟨fun _ _ => wp_imp (add_admits _ _) fun _ h => h.keeps,
      fun _ => trivial⟩
  refine wp_imp (mulBytes_admits _ _) fun _ _ => ?_
  refine wp_imp (add_admits _ _) fun _ hnot => ?_
  refine wp_imp (foldlM_admits id (fun _ _ => ?_) _ _) fun _ hrest => ?_
  · simp only [wp_rules]
    exact ⟨fun _ _ => wp_imp (add_admits _ _) fun _ h => h.keeps,
      fun _ => trivial⟩
  have hkeep := ((hrecs.keeps.trans hdyn).trans hnot.keeps).trans hrest
  rw [hsta.1] at hkeep
  exact (hkeep.2 hsta.2).trans_eq hkeep.1

theorem retainedImportBytes_admits (index : ComponentAssociationIndex) :
    wp (retainedImportBytes memory records recordsCapacity notices noticesCapacity index
      maximum) (fun total => total ≤ maximum) OverBudget := by
  simp only [retainedImportBytes, accountComponentIndex, wp_rules]
  refine wp_imp (retainedRecordsAndNoticesBytes_admits _ _ _ _ _ _) fun _ _ => ?_
  refine wp_imp (withBase_admits _ _) fun start hsta => ?_
  refine wp_imp (foldlM_admits id (fun _ _ => ?_) _ _) fun _ hkeep => by
    rw [hsta.1] at hkeep
    exact (hkeep.2 hsta.2).trans_eq hkeep.1
  simp only [wp_bind]
  refine wp_imp (addBytes_admits _ _) fun _ _ => ?_
  refine wp_imp (addBytes_admits _ _) fun _ _ => ?_
  refine wp_imp (mulBytes_admits _ _) fun _ _ => ?_
  refine wp_imp (addBytes_admits _ _) fun _ _ => ?_
  exact wp_imp (addBtreeEntry_admits _ _) fun _ h => h.keeps

variable {memory records recordsCapacity notices noticesCapacity maximum}

theorem addBytes_eq {a b : Nat} (h : a + b ≤ u64Max) : addBytes a b = .ok (a + b) := by
  rw [addBytes, checkedAdd_eq_some.mpr ⟨h, rfl⟩]
  rfl

theorem mulBytes_eq {a b : Nat} (h : a * b ≤ u64Max) : mulBytes a b = .ok (a * b) := by
  rw [mulBytes, checkedMul_eq h]
  rfl

/-- Entries that fit are counted. -/
theorem foldlM_accountEntry : ∀ {entries : List (WordPressComponentIdentity ×
    Reserved AssociationCoordinate)} {retained : RetainedBudget}, retained.maximum ≤ u64Max →
    retained.total + (entries.map (entryBytes memory)).sum ≤ retained.maximum →
    entries.foldlM (fun (retained : RetainedBudget) entry => do
      let bytes ← addBytes memory.sizeOfComponent memory.sizeOfCoordinates
      let bytes ← addBytes bytes (memory.stringCapacity entry.1.slug)
      let bytes ← addBytes bytes (← mulBytes entry.2.capacity memory.sizeOfCoordinate)
      retained.addBtreeEntry bytes) retained =
      .ok { retained with total := retained.total + (entries.map (entryBytes memory)).sum }
  | [], _, _, _ => rfl
  | entry :: entries, retained, hmax, h => by
    simp only [map_cons, sum_cons, entryBytes] at h
    rw [foldlM_cons]
    refine bind_eq_ok.mpr ⟨{ retained with total := retained.total + entryBytes memory entry },
      ?_, (foldlM_accountEntry (by exact hmax) (by simp only [entryBytes]; omega)).trans ?_⟩
    · refine bind_eq_ok.mpr ⟨_, addBytes_eq (by omega), ?_⟩
      refine bind_eq_ok.mpr ⟨_, addBytes_eq (by omega), ?_⟩
      refine bind_eq_ok.mpr ⟨_, mulBytes_eq (by omega), ?_⟩
      refine bind_eq_ok.mpr ⟨_, addBytes_eq (by omega), ?_⟩
      refine bind_eq_ok.mpr ⟨_, addBytes_eq (by omega), ?_⟩
      refine bind_eq_ok.mpr ⟨_, addBytes_eq (by omega), ?_⟩
      rw [if_neg (by omega)]
      rfl
    · simp only [map_cons, sum_cons, Nat.add_assoc]

/-- **The second count finds what the first charged for.** -/
theorem retainedImportBytes_eq {base total : Nat} (hmem : memory.Grants) (hmax : maximum ≤ u64Max)
    (hbase : retainedRecordsAndNoticesBytes memory records recordsCapacity notices noticesCapacity
      maximum = .ok base)
    (hidx : buildComponentIndex memory records base maximum = .ok (index, total)) :
    retainedImportBytes memory records recordsCapacity notices noticesCapacity index maximum =
      .ok total := by
  obtain ⟨htot, hexact⟩ := of_wp (buildComponentIndex_admits _ _) hidx
  obtain rfl : total = base + indexBytes memory index := hexact hmem
  refine bind_eq_ok.mpr ⟨base, hbase, bind_eq_ok.mpr ⟨⟨base, maximum, 0⟩, ?_, ?_⟩⟩
  · exact if_neg (of_wp (retainedRecordsAndNoticesBytes_admits _ _ _ _ _ _) hbase).not_gt
  · exact bind_eq_ok.mpr ⟨_, foldlM_accountEntry hmax htot, rfl⟩

/-! ### The import -/

/-- The accounting of an import without its second count. -/
def accountImport (memory : Memory) (maximumRetainedBytes : Nat) (state : ParseState) :
    Except WordfenceV3ProductionError Nat := do
  let (resolved, _) ← resolveIdentityMappings memory state.records.values state.retained.total
    maximumRetainedBytes
  let records := sortBy (compareOn WordfenceV3Record.upstreamId) resolved
  let (noticeValues, _) ← (Reserved.empty : Reserved WordfenceV3Notice).reserveExact memory .parse
    memory.sizeOfNotice state.notices.size state.retained
  let baseRetained ← retainedRecordsAndNoticesBytes memory records state.records.capacity
    (state.notices.toList.map Prod.snd) noticeValues.capacity maximumRetainedBytes
  let (_, retainedBytes) ← buildComponentIndex memory records baseRetained maximumRetainedBytes
  return retainedBytes

variable {F : Type} {serde : Serde F} {state : ParseState}

theorem finishImport_retained (hmem : memory.Grants) (hmax : maximum ≤ u64Max)
    (cursor : MeasuredCursor) :
    (finishImport serde memory maximum state cursor).map (·.retainedBytes) =
      accountImport memory maximum state := by
  unfold finishImport accountImport
  cases hresv : resolveIdentityMappings memory state.records.values state.retained.total
    maximum with
  | error e => rfl
  | ok resolved =>
    cases hrsv : (Reserved.empty : Reserved WordfenceV3Notice).reserveExact memory .parse
      memory.sizeOfNotice state.notices.size state.retained with
    | error e => rfl
    | ok reserved =>
      cases hbase : retainedRecordsAndNoticesBytes memory
        (sortBy (compareOn WordfenceV3Record.upstreamId) resolved.1) state.records.capacity
        (state.notices.toList.map Prod.snd) reserved.1.capacity maximum with
      | error e => simp only [bind, Except.bind, hbase, Except.map]
      | ok base =>
        cases hbt : buildComponentIndex memory
          (sortBy (compareOn WordfenceV3Record.upstreamId) resolved.1) base maximum with
        | error e => simp only [bind, Except.bind, hbase, hbt, Except.map]
        | ok built =>
          simp only [bind, Except.bind, hbase, hbt, retainedImportBytes_eq hmem hmax hbase
            hbt, ne_eq, not_true_eq_false, if_false]
          rfl

theorem admitMember_keeps {member : RootMember} {state' : ParseState}
    (h : admitMember serde memory state member = .ok state') :
    state.retained.Keeps state'.retained := by
  unfold admitMember at h
  by_cases hmany : state.records.values.length = maxRecords
  · rw [if_pos hmany] at h
    cases h
  rw [if_neg hmany] at h
  obtain ⟨named, hnamed, h⟩ := bind_ok h
  obtain ⟨-, -, retained, rfl, hkeep⟩ := admitKey_ok hnamed
  obtain ⟨value, -, h⟩ := bind_ok h
  obtain ⟨d, -, h⟩ := bind_ok h
  obtain ⟨-, -, -, -, -, -, hkeep'⟩ := admitDecoded_ok h
  exact hkeep.trans hkeep'

theorem foldlM_admitMember_keeps : ∀ {members : List RootMember} {state state' : ParseState},
    members.foldlM (admitMember serde memory) state = .ok state' →
    state.retained.Keeps state'.retained
  | [], _, _, h => by
    cases h
    exact .refl _
  | _ :: _, _, _, h => by
    rw [foldlM_cons] at h
    obtain ⟨next, hnext, hrest⟩ := bind_ok h
    exact (admitMember_keeps hnext).trans (foldlM_admitMember_keeps hrest)

/-- Every total of the accounting is within the maximum. -/
structure WithinMaximum (serde : Serde F) (memory : Memory) (maximum : Nat) : Prop where
  added : ∀ (retained retained' : RetainedBudget) (bytes : Nat), retained.add bytes = .ok retained' →
    retained'.total ≤ retained.maximum ∧ retained'.maximum = retained.maximum
  /-- After each member that was read. -/
  parsed : ∀ (retained : RetainedBudget) (members : List RootMember) (state : ParseState),
    withBase maximum memory.sizeOfImport = .ok retained →
    members.foldlM (admitMember serde memory) (ParseState.start retained) = .ok state →
    state.retained.total ≤ maximum ∧ state.retained.maximum = maximum
  reserved : ∀ (vector : Reserved WordfenceV3Notice) (requested : Nat) (retained : RetainedBudget)
    (next : Reserved WordfenceV3Notice × RetainedBudget), retained.total ≤ maximum →
    retained.maximum = maximum →
    vector.reserveExact memory .parse memory.sizeOfNotice requested retained = .ok next →
    next.2.total ≤ maximum
  peak : ∀ (records : List WordfenceV3Record) (base : Nat)
    (resolved : List WordfenceV3Record × WordfenceV3IdentityCounts × Nat),
    resolveIdentityMappings memory records base maximum = .ok resolved → resolved.2.2 ≤ maximum
  based : ∀ (records : List WordfenceV3Record) (recordsCapacity : Nat)
    (notices : List WordfenceV3Notice) (noticesCapacity base : Nat),
    retainedRecordsAndNoticesBytes memory records recordsCapacity notices noticesCapacity maximum =
      .ok base → base ≤ maximum
  built : ∀ (records : List WordfenceV3Record) (base : Nat) (built : ComponentAssociationIndex × Nat),
    buildComponentIndex memory records base maximum = .ok built → built.2 ≤ maximum
  measured : ∀ (records : List WordfenceV3Record) (recordsCapacity : Nat)
    (notices : List WordfenceV3Notice) (noticesCapacity total : Nat)
    (index : ComponentAssociationIndex), retainedImportBytes memory records recordsCapacity notices
      noticesCapacity index maximum = .ok total → total ≤ maximum

theorem withinMaximum (serde : Serde F) (memory : Memory) (maximum : Nat) :
    WithinMaximum serde memory maximum where
  added retained retained' bytes h := by
    have hadded := of_wp (add_admits _ _) h
    exact ⟨hadded.bounded, hadded.maximum⟩
  parsed retained members state hret h := by
    obtain ⟨rfl, hbase⟩ := of_wp (withBase_admits _ _) hret
    have hkeep := foldlM_admitMember_keeps h
    exact ⟨(hkeep.2 hbase).trans_eq hkeep.1, hkeep.1⟩
  reserved vector requested retained next hle hmax h := by
    have hkeep := (of_wp (Reserved.reserveExact_admits _) h).keeps
    rw [← hmax] at hle ⊢
    exact (hkeep.2 hle).trans_eq hkeep.1
  peak _ _ _ h := resolveIdentityMappings_peak h
  based _ _ _ _ _ h := by
    have hbased := of_wp (retainedRecordsAndNoticesBytes_admits _ _ _ _ _ _) h
    exact hbased
  built _ _ _ h := (of_wp (buildComponentIndex_admits _ _) h).1
  measured _ _ _ _ _ _ h := by
    have hmeas := of_wp (retainedImportBytes_admits _ _ _ _ _ _ _) h
    exact hmeas

/-- **The accounting of an import is exact.** Whatever is reserved beyond what
was asked for, the total that follows the index is the one that is measured
from the capacities in the end, so that the import is what its accounting alone
makes of it, and no total is above the maximum. -/
theorem retained_accounting_exact (serde : Serde F) (hmemory : memory.Grants)
    (hmaximum : maximum ≤ u64Max) :
    (∀ (records : List WordfenceV3Record) (recordsCapacity : Nat) (notices : List WordfenceV3Notice)
      (noticesCapacity base total : Nat) (index : ComponentAssociationIndex),
      retainedRecordsAndNoticesBytes memory records recordsCapacity notices noticesCapacity maximum =
        .ok base →
      buildComponentIndex memory records base maximum = .ok (index, total) →
      retainedImportBytes memory records recordsCapacity notices noticesCapacity index maximum =
        .ok total) ∧
    (∀ (state : ParseState) (cursor : MeasuredCursor),
      (finishImport serde memory maximum state cursor).map (·.retainedBytes) =
        accountImport memory maximum state) ∧
    WithinMaximum serde memory maximum :=
  ⟨fun _ _ _ _ _ _ _ hbase hidx => retainedImportBytes_eq hmemory hmaximum hbase hidx,
    fun _ cursor => finishImport_retained hmemory hmaximum cursor, withinMaximum serde memory maximum⟩

theorem retained_accounting_exact_sample : ∃ feed state cursor,
    finishImport tenthsSerde exactMemory maxRetainedBytes state cursor = .ok feed ∧
    accountImport exactMemory maxRetainedBytes state = .ok feed.retainedBytes := by
  obtain ⟨feed, hfeed⟩ := parse_sampleFeed
  obtain ⟨retained, -, hfeed⟩ := bind_ok hfeed
  obtain ⟨⟨state, cursor⟩, -, hfin⟩ := bind_ok hfeed
  simp only at hfin
  have hsame := (retained_accounting_exact tenthsSerde
    (fun _ _ _ _ h => (Option.some.inj h).le : exactMemory.Grants)
    (by decide : maxRetainedBytes ≤ u64Max)).2.1 state cursor
  refine ⟨feed, state, cursor, hfin, ?_⟩
  rw [← hsame, hfin]
  rfl

end Termivar.Wordfence
