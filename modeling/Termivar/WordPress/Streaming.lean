/-
# Streaming a feed agrees with JSON

A feed that is read member by member is accepted exactly if the whole input is
one JSON object with distinct keys whose members are objects that decode, with
notices that agree. Nothing else can fail but the budget for retained data.
-/
import Termivar.WordPress.Accounting

namespace Termivar.Wordfence

open Checked Wordfence.WordfenceV3IdentityCounts List

section

variable {α : Type} {ok : α → Prop}

/-- What is known of the value of a computation. -/
theorem wp_of_ok {x : Except WordfenceV3ProductionError α} {err : WordfenceV3ProductionError → Prop}
    (h : wp x (fun _ => True) err) (hok : ∀ a, x = .ok a → ok a) : wp x ok err := by
  cases x with
  | ok a => exact hok a rfl
  | error e => exact h

end

/-! ### Every member is taken -/

variable {F : Type} {serde : Serde F} {memory : Memory}

/-- Notices with the same id are the same. -/
def Consistent (notices : List WordfenceV3Notice) : Prop :=
  ∀ n ∈ notices, ∀ n' ∈ notices, n.id = n'.id → n = n'

theorem foldlM_admitNotice_admits {all : List WordfenceV3Notice} (hall : Consistent all) :
    ∀ {notices : List WordfenceV3Notice} {state : ParseState}, (∀ n ∈ notices, n ∈ all) →
    (∀ id n, state.notices[id]? = some n → n.id = id ∧ n ∈ all) →
    wp (notices.foldlM (admitNotice memory) state) (fun _ => True) OverBudget
  | [], _, _, _ => trivial
  | notice :: notices, state, hnot, hst => by
    have hmem := hnot notice mem_cons_self
    rw [foldlM_cons, wp_bind]
    refine wp_of_ok ?_ fun next hnext => foldlM_admitNotice_admits hall
      (fun n hn => hnot n (mem_cons_of_mem _ hn)) fun id n hn => ?_
    · unfold admitNotice
      cases hkn : state.notices[notice.id]? with
      | some existing =>
        obtain ⟨hid, hexisting⟩ := hst _ _ hkn
        simp only
        rw [if_neg (not_not_intro (hall _ hexisting _ hmem hid))]
        trivial
      | none =>
        simp only [wp_bind]
        exact wp_imp (RetainedBudget.addNoticeMapEntry_admits _ _ _ _) fun _ _ => trivial
    · rcases ((admitNotice_ok hnext).2 id n).mp hn with hn | ⟨hid, rfl⟩
      · exact hst id n hn
      · exact ⟨hid, hmem⟩

theorem countMore_admits {count more : Nat} (h : count + more ≤ u64Max) :
    countMore count more = .ok (count + more) := by
  rw [countMore, checkedAdd_eq_some.mpr ⟨h, rfl⟩]
  rfl

theorem foldlM_countMore_admits : ∀ {counts : List Nat} {count : Nat}, count + counts.sum ≤ u64Max →
    counts.foldlM countMore count = .ok (count + counts.sum)
  | [], _, _ => rfl
  | more :: counts, count, h => by
    rw [sum_cons] at h
    rw [foldlM_cons, countMore_admits (by omega)]
    exact (foldlM_countMore_admits (by omega)).trans (by rw [sum_cons, Nat.add_assoc])

variable (lib : Library F) {input : Bytes} {state : ParseState} {m : RootMember}
  {members : List RootMember} {decoded : List DecodedRecord} {d : DecodedRecord}

/-- A decoded record is taken if its associations and ranges can be counted. -/
theorem admitDecoded_admits {all : List WordfenceV3Notice} {recordLength : Nat}
    {decoded : DecodedRecord} (hall : Consistent all) (hnot : ∀ n ∈ decoded.2, n ∈ all)
    (hst : ∀ id n, state.notices[id]? = some n → n.id = id ∧ n ∈ all)
    (hassoc : state.softwareAssociationCount + associationCount decoded.1 ≤ maxSoftwareAssociations)
    (hrgs : state.affectedRangeCount + rangeCount decoded.1 ≤ u64Max) :
    wp (admitDecoded memory state recordLength decoded) (fun _ => True) OverBudget := by
  have hmax : maxSoftwareAssociations ≤ u64Max := by decide
  have hcnt : associationCount decoded.1 =
      decoded.1.software.length + decoded.1.unresolvedSoftware.length := rfl
  simp only [admitDecoded, wp_bind]
  refine wp_of_ok (foldlM_admitNotice_admits hall hnot hst) fun known hkn => ?_
  obtain ⟨⟨notices, retained, rfl, -⟩, -⟩ := foldlM_admitNotice_ok hkn
  simp only
  rw [countMore_admits (by omega), wp_ok, countMore_admits (by omega), wp_ok, if_neg (by omega)]
  have hown : countRanges decoded.1 = .ok (rangeCount decoded.1) := by
    have hsum : ((decoded.1.software.map fun a => a.affectedRanges.length) ++
        decoded.1.unresolvedSoftware.map fun a => a.affectedRanges.length).sum =
        rangeCount decoded.1 := by rw [sum_append, rangeCount]
    rw [countRanges, foldlM_countMore_admits (by rw [hsum]; omega), hsum, Nat.zero_add]
  simp only [hown, wp_rules, countMore_admits hrgs]
  refine ⟨fun _ _ => ?_, fun _ => trivial⟩
  refine wp_imp (RetainedBudget.add_admits _ _) fun _ _ => ?_
  exact wp_imp (Reserved.push_admits _) fun _ _ => trivial

theorem admitKey_admits {upstreamId : String}
    (hvalid : validateUuid upstreamId = .ok ()) (hnew : upstreamId ∉ state.upstreamIds) :
    wp (admitKey memory state upstreamId) (fun _ => True) OverBudget := by
  simp only [admitKey, wp_bind, hvalid, wp_ok]
  rw [if_neg hnew]
  simp only [wp_bind, wp_pure]
  refine wp_imp (addBytes_admits _ _) fun _ _ => ?_
  exact wp_imp (RetainedBudget.addBtreeEntry_admits _ _) fun _ _ => trivial

/-- What the decoded records of a feed have in common, whatever the budget. -/
structure Countable (decoded : List DecodedRecord) : Prop where
  bounded : decoded.length ≤ maxRecords
  distinct : (decoded.map fun d => d.1.upstreamId).Nodup
  consistent : Consistent (decoded.flatMap Prod.snd)
  associations : (decoded.map fun d => associationCount d.1).sum ≤ maxSoftwareAssociations
  ranges : (decoded.map fun d => rangeCount d.1).sum ≤ u64Max

theorem decodeMember_fits (h : decodeMember serde m = .ok d) :
    DecodedFits serde.toLibrary m.key d := by
  obtain ⟨value, -, hvalue⟩ := bind_ok h
  exact of_wp decodeRecord_fits hvalue

/-- A member that decodes is taken. -/
theorem admitMember_admits {decoded more : List DecodedRecord} (hst : Taken decoded state)
    (hd : decodeMember serde m = .ok d)
    (hcoun : Countable (decoded ++ d :: more)) :
    wp (admitMember serde memory state m) (fun _ => True) OverBudget := by
  have hid := (decodeMember_fits hd).upstreamId
  have hvalid := (decodeMember_fits hd).valid
  obtain ⟨value, hvalue, hrec⟩ := bind_ok hd
  have hassoc := hcoun.associations
  have hrgs := hcoun.ranges
  have hbdd := hcoun.bounded
  have hdist := hcoun.distinct
  simp only [map_append, map_cons, sum_append, sum_cons] at hassoc hrgs
  simp only [length_append, length_cons] at hbdd
  have hnew : m.key ∉ state.upstreamIds := by
    rw [hst.ids]
    intro hmem
    rw [map_append, map_cons, nodup_append] at hdist
    exact hdist.2.2 _ hmem _ mem_cons_self hid.symm
  unfold admitMember
  rw [if_neg (by rw [hst.records, length_map]; omega), wp_bind]
  refine wp_of_ok (admitKey_admits hvalid hnew) fun named hnamed => ?_
  obtain ⟨-, -, retained, rfl, -⟩ := admitKey_ok hnamed
  simp only [admitRecord, wp_rules, hvalue, hrec]
  refine admitDecoded_admits hcoun.consistent (fun n hn => ?_) (fun id n hn => ?_) ?_ ?_
  · exact mem_flatMap.mpr ⟨d, by simp, hn⟩
  · obtain ⟨hid, hn⟩ := (hst.notices id n).mp hn
    exact ⟨hid, by rw [flatMap_append]; exact mem_append_left _ hn⟩
  · rw [hst.associations]
    omega
  · rw [hst.ranges]
    omega

/-- **Members that decode are taken**, unless the budget is used up. -/
theorem foldlM_admitMember_admits : ∀ {members : List RootMember} {decoded more : List DecodedRecord}
    {state : ParseState}, Taken decoded state →
    List.Forall₂ (fun m d => decodeMember serde m = .ok d) members more →
    Countable (decoded ++ more) →
    wp (members.foldlM (admitMember serde memory) state) (fun _ => True) OverBudget
  | [], _, _, _, _, _, _ => trivial
  | m :: members, decoded, _, state, hst, .cons hd hmore, hcoun => by
    rw [foldlM_cons, wp_bind]
    refine wp_of_ok (admitMember_admits hst hd hcoun) fun next hnext => ?_
    obtain ⟨d', hd', htaken⟩ := admitMember_taken hst hnext
    obtain rfl := Except.ok.inj (hd.symm.trans hd')
    exact foldlM_admitMember_admits htaken hmore (by simpa using hcoun)

/-! ### The import is finished -/

theorem sum_map_le {α : Type} {f : α → Nat} {bound : Nat} {xs : List α} (h : ∀ x ∈ xs, f x ≤ bound) :
    (xs.map f).sum ≤ bound * xs.length := by
  have hle := sum_le_card_nsmul (xs.map f) bound (by simpa using h)
  rwa [length_map, smul_eq_mul, Nat.mul_comm] at hle

/-- The ranges of a record are bounded by its associations. -/
theorem rangeCount_le {lib : Library F} {mapId : String} {decoded : DecodedRecord}
    (h : DecodedFits lib mapId decoded) : rangeCount decoded.1 ≤ 4096 * associationCount decoded.1 := by
  have hfirst := sum_map_le fun a ha => (h.software.2 a ha).2.fits.affectedRanges.1
  have hsnd := sum_map_le fun a ha => (h.unresolvedSoftware.2 a ha).fits.affectedRanges.1
  simp only [contentsOf, sourceOf] at hfirst hsnd
  rw [rangeCount, associationCount]
  omega

/-- All associations that were counted. -/
def WordfenceV3IdentityCounts.total (counts : WordfenceV3IdentityCounts) : Nat :=
  counts.exact + counts.candidate + counts.ambiguous + counts.unresolved

theorem countMapping_admits {counts : WordfenceV3IdentityCounts} (mapping : WordfenceV3IdentityMapping)
    (h : total counts + 1 ≤ u64Max) : ∃ counts', countMapping counts mapping = .ok counts' ∧
        total counts' = total counts + 1 := by
  unfold total at h ⊢
  cases mapping <;>
    · rw [countMapping, countMore_admits (by omega)]
      refine ⟨_, rfl, ?_⟩
      simp only
      omega

theorem resolveSoftware_admits {spellings : List Spelling} :
    ∀ {software : List WordfenceV3SoftwareAssociation} {counts : WordfenceV3IdentityCounts},
    total counts + software.length ≤ u64Max → ∃ resolved counts',
      resolveSoftware spellings counts software = .ok (resolved, counts') ∧ total counts' =
          total counts + software.length
  | [], counts, _ => ⟨[], counts, rfl, rfl⟩
  | association :: rest, counts, h => by
    rw [length_cons] at h
    obtain ⟨counts₁, hcounts₁, htot₁⟩ := countMapping_admits
      (resolveAssociation spellings association).identityMapping
      (show total counts + 1 ≤ u64Max by omega)
    obtain ⟨resolved, counts₂, hrest, htot₂⟩ := @resolveSoftware_admits spellings rest counts₁
      (by omega)
    refine ⟨resolveAssociation spellings association :: resolved, counts₂, ?_, ?_⟩
    swap
    · rw [htot₂, htot₁, length_cons]
      omega
    exact bind_eq_ok.mpr ⟨counts₁, hcounts₁, bind_eq_ok.mpr ⟨_, hrest, rfl⟩⟩

theorem resolveRecords_admits {spellings : List Spelling} :
    ∀ {records : List WordfenceV3Record} {counts : WordfenceV3IdentityCounts},
    total counts + (records.map associationCount).sum ≤ u64Max →
    ∃ result, resolveRecords spellings counts records = .ok result
  | [], counts, _ => ⟨_, rfl⟩
  | record :: rest, counts, h => by
    rw [map_cons, sum_cons] at h
    have hown : associationCount record =
      record.software.length + record.unresolvedSoftware.length := rfl
    have hunres : countMore counts.unresolved record.unresolvedSoftware.length =
        .ok (counts.unresolved + record.unresolvedSoftware.length) :=
      countMore_admits (by unfold total at h; omega)
    have htot : total { counts with
        unresolved := counts.unresolved + record.unresolvedSoftware.length } =
        total counts + record.unresolvedSoftware.length := by
      simp only [total]
      omega
    obtain ⟨software, counts₁, hsoft, htot₁⟩ := @resolveSoftware_admits spellings record.software
      { counts with unresolved := counts.unresolved + record.unresolvedSoftware.length }
      (by rw [htot]; omega)
    obtain ⟨⟨rest', counts₂⟩, hrest⟩ := @resolveRecords_admits spellings rest counts₁
      (by rw [htot₁, htot]; omega)
    exact ⟨_, bind_eq_ok.mpr ⟨_, hunres, bind_eq_ok.mpr ⟨_, hsoft, bind_eq_ok.mpr ⟨_, hrest, rfl⟩⟩⟩⟩

theorem resolveIdentityMappings_admits {memory : Memory} {records : List WordfenceV3Record}
    (base maximum : Nat) (h : (records.map associationCount).sum ≤ u64Max) :
    wp (resolveIdentityMappings memory records base maximum) (fun _ => True) OverBudget := by
  rw [resolveIdentityMappings, wp_bind]
  refine wp_imp (RetainedBudget.withBase_admits _ _) fun budget _ => ?_
  rw [wp_bind]
  refine wp_imp (candidateSpellings_admits _ _ _) fun front _ => ?_
  simp only
  rw [wp_bind]
  refine wp_imp (exactSpellings_admits _ _ _ _) fun spellings _ => ?_
  obtain ⟨result, hres⟩ := @resolveRecords_admits (sortDedup spellings.1.values) records
    ⟨0, 0, 0, 0⟩ (by simpa [total] using h)
  simp only [hres, wp_rules]

/-- The import of what was read fails for want of budget only. -/
theorem finishImport_admits (maximum : Nat) (cursor : MeasuredCursor)
    (h : (state.records.values.map associationCount).sum ≤ u64Max) :
    wp (finishImport serde memory maximum state cursor) (fun _ => True) OverBudget := by
  rw [finishImport, wp_bind]
  refine wp_imp (resolveIdentityMappings_admits _ _ h) fun resolved _ => ?_
  simp only [wp_bind]
  refine wp_imp (Reserved.reserveExact_admits _) fun reserved _ => ?_
  refine wp_imp (retainedRecordsAndNoticesBytes_admits _ _ _ _ _ _) fun base _ => ?_
  refine wp_imp (buildComponentIndex_admits _ _) fun index _ => ?_
  refine wp_imp (retainedImportBytes_admits _ _ _ _ _ _ _) fun measured _ => ?_
  by_cases hbs : index.2 ≠ measured
  · rw [if_pos hbs]
    rfl
  · rw [if_neg hbs]
    trivial

/-! ### The whole document -/

/-- A member of a document that was parsed as a whole. -/
def decodeDocumentMember (member : String × Json) :
    Except WordfenceV3ProductionError DecodedRecord := do
  decodeRecord lib member.1 (← decodeBoundedValue lib member.2)

/-- The input is one object with distinct keys, and its members decode, with
notices that agree. -/
def Decodes (input : Bytes) (decoded : List DecodedRecord) : Prop :=
  ∃ ms, Json.read input = some (.object ms) ∧ (ms.map Prod.fst).Nodup ∧
    List.Forall₂ (fun m d => decodeDocumentMember lib m = .ok d) ms decoded ∧
    Consistent (decoded.flatMap Prod.snd)

/-- The input decodes, and its members are objects. -/
def Accepts (input : Bytes) (decoded : List DecodedRecord) : Prop :=
  Decodes lib input decoded ∧
    ∀ ms, Json.read input = some (.object ms) → ∀ m ∈ ms, ∃ members, m.2 = .object members

/-- The limits of an input: its size, the number of records and of their
associations, and the size and depth of a record. -/
structure WithinLimits (lib : Library F) (input : Bytes) : Prop where
  bytes : input.length ≤ maxProductionBytes
  records : ∀ members, RootText members input → members.length ≤ maxRecords
  record : ∀ members, RootText members input → ∀ m ∈ members,
    m.text.length ≤ maxRecordBytes ∧ m.json.depth ≤ 10
  associations : ∀ decoded, Decodes lib input decoded →
    (decoded.map fun d => associationCount d.1).sum ≤ maxSoftwareAssociations

/-- A member is decoded from its text as from its value in the document. -/
theorem decodeMember_eq (hserde : ReadsJson serde) (h : RootText members input) (hm : m ∈ members) :
    decodeMember serde m = decodeDocumentMember serde.toLibrary (m.key, m.json) := by
  obtain ⟨before, inner, after, -, -, -, hmems⟩ := h
  have hdoc : Json.Document m.json m.text :=
    ⟨[], m.text, [], Json.Blank.nil, Json.Blank.nil, (hmems.text m hm).1, by simp⟩
  rw [decodeMember, decodeBoundedRecord, (hserde _ _).mpr hdoc]
  rfl

theorem forall₂_congr_left {α β γ : Type} {R : α → γ → Prop} {S : β → γ → Prop} {f : α → β} :
    ∀ {xs : List α} {ys : List γ}, (∀ x ∈ xs, ∀ y, R x y ↔ S (f x) y) →
    (List.Forall₂ R xs ys ↔ List.Forall₂ S (xs.map f) ys)
  | [], ys, _ => by simp
  | x :: xs, [], _ => by simp
  | x :: xs, y :: ys, h => by
    rw [map_cons, forall₂_cons, forall₂_cons, h x mem_cons_self,
      forall₂_congr_left fun x' hx' => h x' (mem_cons_of_mem _ hx')]

theorem forall₂_decodes (hserde : ReadsJson serde) (h : RootText members input)
    (decoded : List DecodedRecord) :
    List.Forall₂ (fun m d => decodeMember serde m = .ok d) members decoded ↔
      List.Forall₂ (fun m d => decodeDocumentMember serde.toLibrary m = .ok d)
        (members.map fun m => (m.key, m.json)) decoded :=
  forall₂_congr_left fun m hm d => by rw [decodeMember_eq hserde h hm]

theorem Taken.consistent (h : Taken decoded state) :
    Consistent (decoded.flatMap Prod.snd) := by
  intro n hn n' hn' hid
  have hone := (h.notices n.id n).mpr ⟨rfl, hn⟩
  have hoth := (h.notices n.id n').mpr ⟨hid.symm, hn'⟩
  rw [hone] at hoth
  exact Option.some.inj hoth

theorem keys_eq (h : List.Forall₂ (fun m d => decodeMember serde m = .ok d) members decoded) :
    decoded.map (fun d => d.1.upstreamId) = members.map RootMember.key := by
  induction h with
  | nil => rfl
  | cons hm _ ih => rw [map_cons, map_cons, ih, (decodeMember_fits hm).upstreamId]

/-- What was accepted is a whole document that is accepted. -/
theorem accepts_of_parse (hserde : ReadsJson serde) {feed : WordfenceV3ProductionImport}
    {broken : Bool}
    (h : parseWordfenceV3Production serde memory ⟨input, broken⟩ = .ok feed) :
    ∃ decoded, Accepts serde.toLibrary input decoded ∧
      feed.records = importedRecords (decoded.map Prod.fst) ∧
      ∀ notice, notice ∈ feed.notices ↔ notice ∈ decoded.flatMap Prod.snd := by
  obtain ⟨members, decoded, state, htext, hmems, htaken, hrecs, -, -, hnot, -⟩ := parse_ok h
  obtain ⟨htext, hobj⟩ := htext hserde
  have hread := read_of_rootText htext
  refine ⟨decoded, ⟨⟨_, hread, ?_, (forall₂_decodes hserde htext decoded).mp hmems,
    htaken.consistent⟩, ?_⟩, hrecs, ?_⟩
  · have hdist := htaken.distinct
    rw [keys_eq hmems] at hdist
    simpa [map_map, Function.comp_def] using hdist
  · intro ms hms m hm
    rw [hread, Option.some.injEq, Json.object.injEq] at hms
    subst hms
    obtain ⟨member, hmbr, rfl⟩ := mem_map.mp hm
    exact hobj member hmbr
  · intro notice
    rw [hnot, mem_map]
    constructor
    · rintro ⟨⟨id, n⟩, hn, rfl⟩
      exact ((htaken.notices id n).mp (Std.ExtTreeMap.mem_toList_iff_getElem?_eq_some.mp hn)).2
    · intro hn
      exact ⟨(notice.id, notice), Std.ExtTreeMap.mem_toList_iff_getElem?_eq_some.mpr
        ((htaken.notices _ _).mpr ⟨rfl, hn⟩), rfl⟩

/-- A document that is accepted within the limits fails for want of budget
only. -/
theorem parse_admits (hserde : ReadsJson serde) (hlims : WithinLimits serde.toLibrary input)
    (h : Accepts serde.toLibrary input decoded) :
    wp (parseWordfenceV3Production serde memory ⟨input, false⟩) (fun _ => True) OverBudget := by
  obtain ⟨hdecodes, hobj⟩ := h
  have hassoc := hlims.associations decoded hdecodes
  obtain ⟨ms, hread, hdist, hdec, hcons⟩ := hdecodes
  obtain ⟨members, htext, rfl⟩ := rootText_of_read hread
  have hmems := (forall₂_decodes hserde htext decoded).mpr hdec
  have hfram : ∀ m ∈ members, Framable m := by
    intro m hm
    obtain ⟨hlength, hdep⟩ := hlims.record members htext m hm
    refine ⟨hobj _ hread (m.key, m.json) (mem_map_of_mem hm), hdep, hlength, fun name hname => ?_⟩
    obtain ⟨d, hd⟩ : ∃ d, decodeMember serde m = .ok d := by
      obtain ⟨i, hi, rfl⟩ := mem_iff_getElem.mp hm
      exact ⟨_, (forall₂_iff_get.mp hmems).2 i hi (hmems.length_eq ▸ hi)⟩
    exact key_length (decodeMember_fits hd).valid hname
  have hrgs : (decoded.map fun d => rangeCount d.1).sum ≤ 4096 * maxSoftwareAssociations := by
    have hle : ∀ d ∈ decoded, rangeCount d.1 ≤ 4096 * associationCount d.1 := by
      intro d hd
      obtain ⟨m, -, hm⟩ := exists_mem_of_forall₂ hmems hd
      exact rangeCount_le (decodeMember_fits hm)
    have hsum := sum_le_sum hle
    rw [sum_map_mul_left] at hsum
    omega
  have hcoun : Countable decoded := {
    bounded := by
      rw [← hmems.length_eq]
      exact hlims.records members htext
    distinct := by
      rw [keys_eq hmems]
      simpa [map_map, Function.comp_def] using hdist
    consistent := hcons
    associations := hassoc
    ranges := le_trans hrgs (by decide) }
  rw [parseWordfenceV3Production, parseWordfenceV3ProductionWithLimits, wp_bind]
  refine wp_imp (RetainedBudget.withBase_admits _ _) fun retained _ => ?_
  rw [readFeed_complete hserde htext hfram hlims.bytes, wp_bind]
  have hfold := @foldlM_admitMember_admits _ serde memory _ [] decoded _ (taken_start retained) hmems
    hcoun
  cases hst : members.foldlM (admitMember serde memory) (ParseState.start retained) with
  | error e =>
    rw [hst] at hfold
    exact hfold
  | ok state =>
    obtain ⟨decoded', hdec', htaken⟩ := foldlM_taken (taken_start retained) hst
    obtain rfl : decoded = decoded' := right_unique_forall₂'
      (fun _ _ _ hd hd' => Except.ok.inj (hd.symm.trans hd')) hmems hdec'
    refine finishImport_admits _ _ ?_
    rw [htaken.records, nil_append, map_map]
    exact le_trans hassoc (by decide)

/-- **Streaming agrees with JSON.** The reader takes exactly the text of an
object, whatever is inside of its strings. Within the limits, and if the budget
is not used up, an input is accepted if and only if it is one object with
distinct keys whose members are objects that decode, with notices that agree,
and the records are those of the whole document. -/
theorem streaming_agrees (hserde : ReadsJson serde) :
    (∀ (ms : List (String × Json)) (text rest : Bytes) (cursor : MeasuredCursor),
      Json.Text (.object ms) text → (Json.object ms).depth ≤ 10 → text.length ≤ maxRecordBytes →
      cursor.bytes = text.tail ++ rest → Room cursor text.tail.length →
      cursor.captureRecordObject = .ok (text, cursor.after text.tail rest)) ∧
    (∀ (memory : Memory) (input : Bytes), WithinLimits serde.toLibrary input →
      parseWordfenceV3Production serde memory ⟨input, false⟩ ≠ .error .retainedDataTooLarge →
      ((∃ feed, parseWordfenceV3Production serde memory ⟨input, false⟩ = .ok feed) ↔
        ∃ decoded, Accepts serde.toLibrary input decoded)) ∧
    ∀ (memory : Memory) (input : Bytes) (feed : WordfenceV3ProductionImport),
      parseWordfenceV3Production serde memory ⟨input, false⟩ = .ok feed →
      ∃ decoded, Accepts serde.toLibrary input decoded ∧
        feed.records = importedRecords (decoded.map Prod.fst) ∧
        ∀ notice, notice ∈ feed.notices ↔ notice ∈ decoded.flatMap Prod.snd := by
  refine ⟨fun ms text rest cursor htext hdep hlength hbs hroom =>
    captureRecordObject_complete htext hdep hlength hbs hroom, ?_, fun memory input feed h =>
    accepts_of_parse hserde h⟩
  intro memory input hlims hbud
  constructor
  · rintro ⟨feed, hfeed⟩
    obtain ⟨decoded, haccepts, -⟩ := accepts_of_parse hserde hfeed
    exact ⟨decoded, haccepts⟩
  · rintro ⟨decoded, haccepts⟩
    have hadmits := @parse_admits _ serde memory _ _ hserde hlims haccepts
    cases hprs : parseWordfenceV3Production serde memory ⟨input, false⟩ with
    | ok feed => exact ⟨feed, rfl⟩
    | error e =>
      rw [hprs] at hadmits hbud
      exact absurd (congrArg Except.error hadmits) hbud

/-- The members of a document, decoded one by one. -/
def decodeDocument (input : Bytes) :
    Except WordfenceV3ProductionError (List DecodedRecord) :=
  match Json.read input with
  | some (.object ms) => ms.mapM (decodeDocumentMember lib)
  | _ => .error .malformedJson

/-- Whether the input is an object with one shallow member, and what it decodes
to has few associations and no notices. -/
def isSmall (input : Bytes) : Bool :=
  match Json.read input, decodeDocument lib input with
  | some (.object [(_, json)]), .ok decoded =>
    json.depth ≤ 10 && decoded.all (fun d => d.2.isEmpty) &&
      (decoded.map fun d => associationCount d.1).sum ≤ maxSoftwareAssociations
  | _, _ => false

theorem decodes_of_isSmall {lib : Library F} (h : isSmall lib input = true)
    (hlength : input.length ≤ maxRecordBytes) :
    WithinLimits lib input ∧ ∃ decoded, Decodes lib input decoded := by
  unfold isSmall at h
  split at h
  · rename_i key json decoded hread hdec
    simp only [Bool.and_eq_true, decide_eq_true_eq, List.all_eq_true, List.isEmpty_iff] at h
    obtain ⟨⟨hdep, hnot⟩, hassoc⟩ := h
    rw [decodeDocument, hread] at hdec
    have hforall := mapM_eq_ok_iff.mp hdec
    have hmbr : ∀ members, RootText members input → members.length = 1 ∧
        ∀ m ∈ members, m.text.length ≤ input.length ∧ m.json = json := by
      intro members htext
      have hsame := (read_of_rootText htext).symm.trans hread
      rw [Option.some.injEq, Json.object.injEq] at hsame
      obtain ⟨before, inner, after, -, -, rfl, hmems⟩ := htext
      refine ⟨by simpa using congrArg length hsame, fun m hm => ⟨?_, ?_⟩⟩
      · have := hmems.length_text m hm
        simp only [length_append, length_cons]
        omega
      · have hmem : (m.key, m.json) ∈ members.map fun m => (m.key, m.json) := mem_map_of_mem hm
        rw [hsame, mem_singleton] at hmem
        exact (Prod.mk.inj hmem).2
    refine ⟨⟨le_trans hlength (by decide), fun members htext => ?_, fun members htext m hm => ?_,
      fun decoded' h' => ?_⟩, decoded, _, hread, by simp, hforall, ?_⟩
    · rw [(hmbr members htext).1]
      decide
    · obtain ⟨htex, hjson⟩ := (hmbr members htext).2 m hm
      exact ⟨le_trans htex hlength, hjson ▸ hdep⟩
    · obtain ⟨ms, hms, -, hforall', -⟩ := h'
      rw [hread, Option.some.injEq, Json.object.injEq] at hms
      subst hms
      obtain rfl := right_unique_forall₂'
        (fun _ _ _ hd hd' => Except.ok.inj (hd.symm.trans hd')) hforall hforall'
      exact hassoc
    · have hemp : decoded.flatMap Prod.snd = [] :=
        List.flatMap_eq_nil_iff.mpr hnot
      rw [hemp]
      intro n hn
      cases hn
  · cases h

set_option maxRecDepth 20000 in
theorem streaming_agrees_sample : ∃ decoded,
    Accepts tenthsLibrary (sampleFeed "null").bytes decoded := by
  obtain ⟨feed, hfeed⟩ := parse_sampleFeed
  have hlims := (@decodes_of_isSmall _ (sampleFeed "null").bytes tenthsLibrary (by decide +kernel)
    (by decide +kernel)).1
  refine ((streaming_agrees tenthsSerde_reads).2.1 exactMemory _ hlims ?_).mp ⟨feed, hfeed⟩
  intro herr
  cases hfeed.symm.trans herr

/-- A record in the form of an array. -/
def arrayFeed : Bytes :=
  utf8Bytes ("\x7b\"00000000-0000-0000-0000-000000000000\":[" ++
    "\"00000000-0000-0000-0000-000000000000\",\"t\",[\x7b\"type\":\"plugin\",\"name\":\"n\"," ++
    "\"slug\":\"a\",\"affected_versions\":\x7b\x7d,\"patched\":false,\"patched_versions\":[]," ++
    "\"remediation\":\"\"\x7d],false,\"\",[],null,null,null,null,[],null,null,null]\x7d")

set_option maxRecDepth 20000 in
/-- A record that is an array decodes, but the reader wants a brace. -/
theorem streaming_array_record : ReadsJson tenthsSerde ∧ WithinLimits tenthsLibrary arrayFeed ∧
    (∃ decoded, Decodes tenthsLibrary arrayFeed decoded) ∧
    parseWordfenceV3Production tenthsSerde exactMemory ⟨arrayFeed, false⟩ =
      .error .unsupportedValue := by
  have hsm := @decodes_of_isSmall _ arrayFeed tenthsLibrary (by decide +kernel) (by decide +kernel)
  refine ⟨tenthsSerde_reads, hsm.1, hsm.2, ?_⟩
  have herr : (match parseWordfenceV3Production tenthsSerde exactMemory ⟨arrayFeed, false⟩ with
    | .error .unsupportedValue => true
    | .error _ => false
    | .ok _ => false) = true := by decide +kernel
  revert herr
  cases parseWordfenceV3Production tenthsSerde exactMemory ⟨arrayFeed, false⟩ with
  | ok feed => simp
  | error e => cases e <;> simp

end Termivar.Wordfence
