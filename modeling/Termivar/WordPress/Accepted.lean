/-
# What an accepted Wordfence feed holds

Taking the members of the root object one after the other decodes every one
of them and keeps what was decoded (`foldlM_taken`): the records in order, the
notices under their ids, and the counts. Resolution and sorting then give the
records of the import, whose identities are those of the definition over the
whole feed (`finishImport_eq`).
-/
import Termivar.WordPress.Limits

namespace Termivar.Wordfence

open List Checked

theorem okOr_eq_ok {ε α : Type} {o : Option α} {e : ε} {a : α} : okOr o e = .ok a ↔ o = some a := by
  cases o <;> simp [okOr]

/-! ### Taking the members -/

/-- What `decode_record` gives. -/
abbrev DecodedRecord : Type := WordfenceV3Record × List WordfenceV3Notice

variable {F : Type} {serde : Serde F} {memory : Memory}

/-- What one member is decoded to. -/
def decodeMember (serde : Serde F) (member : RootMember) :
    Except WordfenceV3ProductionError DecodedRecord := do
  let value ← decodeBoundedRecord serde member.text
  decodeRecord serde.toLibrary member.key value

/-- The number of associations of a record. -/
def associationCount (record : WordfenceV3Record) : Nat :=
  record.software.length + record.unresolvedSoftware.length

/-- The number of ranges of a record. -/
def rangeCount (record : WordfenceV3Record) : Nat :=
  (record.software.map fun a => a.affectedRanges.length).sum +
    (record.unresolvedSoftware.map fun a => a.affectedRanges.length).sum

/-- The state holds what was decoded so far. -/
structure Taken (decoded : List DecodedRecord) (state : ParseState) : Prop where
  records : state.records.values = decoded.map Prod.fst
  bounded : decoded.length ≤ maxRecords
  ids : ∀ id, id ∈ state.upstreamIds ↔ id ∈ decoded.map fun d => d.1.upstreamId
  distinct : (decoded.map fun d => d.1.upstreamId).Nodup
  notices : ∀ id notice, state.notices[id]? = some notice ↔
    notice.id = id ∧ notice ∈ decoded.flatMap Prod.snd
  associations : state.softwareAssociationCount = (decoded.map fun d => associationCount d.1).sum
  ranges : state.affectedRangeCount = (decoded.map fun d => rangeCount d.1).sum
  semantic : state.requiresSemanticDigestV2 = decoded.any fun d => recordRequiresSemanticDigestV2 d.1

theorem taken_start (retained : RetainedBudget) : Taken [] (ParseState.start retained) where
  records := rfl
  bounded := Nat.zero_le _
  ids := by simp [ParseState.start]
  distinct := nodup_nil
  notices := by simp [ParseState.start]
  associations := rfl
  ranges := rfl
  semantic := rfl

variable {state state' : ParseState}

/-- A notice is known afterwards, and nothing else changes. -/
theorem admitNotice_ok {notice : WordfenceV3Notice}
    (h : admitNotice memory state notice = .ok state') :
    (∃ notices retained, state' = { state with notices, retained } ∧ state.retained.Keeps retained) ∧
      ∀ id n, state'.notices[id]? = some n ↔
        state.notices[id]? = some n ∨ (n.id = id ∧ n = notice) := by
  unfold admitNotice at h
  cases hkn : state.notices[notice.id]? with
  | some existing =>
    rw [hkn] at h
    simp only at h
    split_ifs at h with hsame
    cases h
    rw [ne_eq, not_not] at hsame
    refine ⟨⟨_, _, rfl, .refl _⟩, fun id n => ⟨Or.inl, ?_⟩⟩
    rintro (hn | ⟨rfl, rfl⟩)
    · exact hn
    · rw [hkn, hsame]
  | none =>
    rw [hkn] at h
    obtain ⟨retained, hret, h⟩ := bind_ok h
    cases h
    refine ⟨⟨_, _, rfl, of_wp (RetainedBudget.addNoticeMapEntry_admits _ _ _ _) hret⟩,
      fun id n => ?_⟩
    by_cases hid : notice.id = id
    · subst hid
      simp only [get_insert_self, hkn, Option.some.injEq, reduceCtorEq, false_or]
      constructor
      · rintro rfl
        exact ⟨rfl, rfl⟩
      · rintro ⟨-, rfl⟩
        rfl
    · simp only [get_insert_ne _ hid]
      refine ⟨Or.inl, ?_⟩
      rintro (hn | ⟨rfl, rfl⟩)
      · exact hn
      · exact absurd rfl hid

theorem foldlM_admitNotice_ok : ∀ {notices : List WordfenceV3Notice} {state state' : ParseState},
    notices.foldlM (admitNotice memory) state = .ok state' →
    (∃ known retained, state' = { state with notices := known, retained } ∧
      state.retained.Keeps retained) ∧
      ∀ id n, state'.notices[id]? = some n ↔ state.notices[id]? = some n ∨ (n.id = id ∧ n ∈ notices)
  | [], state, state', h => by
    cases h
    exact ⟨⟨_, _, rfl, .refl _⟩, by simp⟩
  | notice :: notices, state, state', h => by
    rw [foldlM_cons] at h
    obtain ⟨next, hnext, hrest⟩ := bind_ok h
    obtain ⟨⟨known, retained, rfl, hkeep⟩, hone⟩ := admitNotice_ok hnext
    obtain ⟨⟨known', retained', rfl, hkeep'⟩, hmore⟩ := foldlM_admitNotice_ok hrest
    refine ⟨⟨_, _, rfl, hkeep.trans hkeep'⟩, fun id n => ?_⟩
    rw [hmore, hone, mem_cons, or_assoc, ← and_or_left]

theorem foldlM_countMore_ok : ∀ {counts : List Nat} {count total : Nat},
    counts.foldlM countMore count = .ok total → total = count + counts.sum
  | [], count, total, h => by
    cases h
    simp
  | more :: counts, count, total, h => by
    rw [foldlM_cons] at h
    obtain ⟨next, hnext, hrest⟩ := bind_ok h
    rw [foldlM_countMore_ok hrest, countMore_eq_ok hnext, sum_cons, Nat.add_assoc]

theorem countRanges_ok {record : WordfenceV3Record} {total : Nat} (h : countRanges record = .ok total) :
    total = rangeCount record := by
  rw [foldlM_countMore_ok h, sum_append, rangeCount, Nat.zero_add]

/-- One more record was decoded. -/
theorem admitDecoded_ok {recordLength : Nat} {decoded : DecodedRecord}
    (h : admitDecoded memory state recordLength decoded = .ok state') :
    state'.records.values = state.records.values ++ [decoded.1] ∧
      state'.upstreamIds = state.upstreamIds ∧
      (∀ id n, state'.notices[id]? = some n ↔
        state.notices[id]? = some n ∨ (n.id = id ∧ n ∈ decoded.2)) ∧
      state'.softwareAssociationCount = state.softwareAssociationCount + associationCount decoded.1 ∧
      state'.affectedRangeCount = state.affectedRangeCount + rangeCount decoded.1 ∧
      state'.requiresSemanticDigestV2 =
        (state.requiresSemanticDigestV2 || recordRequiresSemanticDigestV2 decoded.1) ∧
      state.retained.Keeps state'.retained := by
  unfold admitDecoded at h
  obtain ⟨known, hkn, h⟩ := bind_ok h
  obtain ⟨own, hown, h⟩ := bind_ok h
  obtain ⟨count, hcnt, h⟩ := bind_ok h
  by_cases hmany : count > maxSoftwareAssociations
  · rw [if_pos hmany] at h
    cases h
  rw [if_neg hmany] at h
  obtain ⟨ranges, hrgs, h⟩ := bind_ok h
  obtain ⟨total, htot, h⟩ := bind_ok h
  obtain ⟨dynamic, -, h⟩ := bind_ok h
  obtain ⟨retained, hadd, h⟩ := bind_ok h
  obtain ⟨⟨records, retained'⟩, hrecs, h⟩ := bind_ok h
  cases h
  obtain ⟨⟨notices, retained'', rfl, hkeep⟩, hnot⟩ := foldlM_admitNotice_ok hkn
  have hadded := of_wp (RetainedBudget.add_admits _ _) hadd
  have hgrown := Reserved.push_grown hrecs
  refine ⟨hgrown.values, rfl, hnot, ?_, ?_, rfl, (hkeep.trans hadded.keeps).trans hgrown.keeps⟩
  · rw [countMore_eq_ok hcnt, countMore_eq_ok hown, associationCount]
  · rw [countMore_eq_ok htot, countRanges_ok hrgs]

/-- A key that is taken is a new one. -/
theorem admitKey_ok {upstreamId : String} (h : admitKey memory state upstreamId = .ok state') :
    validateUuid upstreamId = .ok () ∧ upstreamId ∉ state.upstreamIds ∧ ∃ retained,
      state' = { state with upstreamIds := state.upstreamIds.insert upstreamId, retained } ∧
      state.retained.Keeps retained := by
  unfold admitKey at h
  obtain ⟨⟨⟩, hvalid, h⟩ := bind_ok h
  by_cases hkn : upstreamId ∈ state.upstreamIds
  · rw [if_pos hkn] at h
    cases h
  rw [if_neg hkn] at h
  obtain ⟨_, -, h⟩ := bind_ok h
  obtain ⟨retained, hret, h⟩ := bind_ok h
  exact ⟨hvalid, hkn, retained, (Except.ok.inj h).symm,
    (of_wp (RetainedBudget.addBtreeEntry_admits _ _) hret).keeps⟩

/-- A member that is taken was decoded. -/
theorem admitMember_taken {decoded : List DecodedRecord} {member : RootMember}
    (hst : Taken decoded state)
    (h : admitMember serde memory state member = .ok state') :
    ∃ d, decodeMember serde member = .ok d ∧ Taken (decoded ++ [d]) state' := by
  unfold admitMember at h
  by_cases hmany : state.records.values.length = maxRecords
  · rw [if_pos hmany] at h
    cases h
  rw [if_neg hmany] at h
  obtain ⟨named, hnamed, h⟩ := bind_ok h
  obtain ⟨-, hkn, retained, rfl, -⟩ := admitKey_ok hnamed
  unfold admitRecord at h
  obtain ⟨value, hvalue, h⟩ := bind_ok h
  obtain ⟨d, hd, h⟩ := bind_ok h
  have hid := (of_wp decodeRecord_fits hd).upstreamId
  obtain ⟨hrecs, hids, hnot, hassoc, hrgs, hsem, -⟩ := admitDecoded_ok h
  refine ⟨d, bind_eq_ok.mpr ⟨value, hvalue, hd⟩, ?_⟩
  have hlength : state.records.values.length = decoded.length := by simp [hst.records]
  exact {
    records := by simp [hrecs, hst.records]
    bounded := by
      have := hst.bounded
      simp only [length_append, length_singleton]
      omega
    ids := fun id => by
      rw [hids, mem_insert_iff, hst.ids, map_append, mem_append, or_comm]
      simp [hid]
    distinct := by
      rw [map_append]
      refine nodup_append.mpr ⟨hst.distinct, by simp, ?_⟩
      intro a ha b hb heq
      obtain rfl : b = member.key := by simpa [hid] using hb
      exact hkn ((hst.ids _).mpr (heq ▸ ha))
    notices := fun id n => by
      rw [hnot, hst.notices, ← and_or_left]
      simp
    associations := by simp [hassoc, hst.associations]
    ranges := by simp [hrgs, hst.ranges]
    semantic := by simp [hsem, hst.semantic] }

/-- **The state holds what the members were decoded to.** -/
theorem foldlM_taken : ∀ {members : List RootMember} {decoded : List DecodedRecord}
    {state state' : ParseState}, Taken decoded state →
    members.foldlM (admitMember serde memory) state = .ok state' →
    ∃ more, List.Forall₂ (fun m d => decodeMember serde m = .ok d) members more ∧
      Taken (decoded ++ more) state'
  | [], decoded, state, state', hst, h => by
    cases h
    exact ⟨[], .nil, by simpa using hst⟩
  | m :: members, decoded, state, state', hst, h => by
    rw [foldlM_cons] at h
    obtain ⟨next, hnext, hrest⟩ := bind_ok h
    obtain ⟨d, hd, htaken⟩ := admitMember_taken hst hnext
    obtain ⟨more, hmore, htaken'⟩ := foldlM_taken htaken hrest
    exact ⟨d :: more, .cons hd hmore, by simpa using htaken'⟩

/-! ### The import -/

variable {records records' : List WordfenceV3Record}

theorem countsOf_perm (h : records.Perm records') :
    countsOf records = countsOf records' := by
  have hmapped : (mappedAssociations records).Perm (mappedAssociations records') := h.flatMap_right _
  simp only [countsOf, hmapped.countP_eq, (h.map _).sum_nat]

/-- The records of the import: settled, and in the order of their ids. -/
def importedRecords (decoded : List WordfenceV3Record) : List WordfenceV3Record :=
  sortBy (compareOn WordfenceV3Record.upstreamId)
    (decoded.map (settleRecord (mappedAssociations decoded)))

theorem importedRecords_perm (decoded : List WordfenceV3Record) :
    (importedRecords decoded).Perm (decoded.map (settleRecord (mappedAssociations decoded))) :=
  mergeSort_perm _ _

/-- What the import is made of. -/
theorem finishImport_ok {maximumRetained : Nat} {cursor : MeasuredCursor}
    {feed : WordfenceV3ProductionImport}
    (hdec : ∀ a ∈ mappedAssociations state.records.values, Decoded a)
    (h : finishImport serde memory maximumRetained state cursor = .ok feed) :
    feed.records = importedRecords state.records.values ∧
      feed.identityCounts = countsOf feed.records ∧
      feed.softwareAssociationCount = state.softwareAssociationCount ∧
      feed.notices = state.notices.toList.map Prod.snd ∧
      feed.semanticSha256 = serde.sha256 (semanticPreimage feed.records feed.notices
        feed.identityCounts state.requiresSemanticDigestV2) ∧
      ∀ component, feed.associationsFor component = some (feed.records.flatMap fun record =>
        (record.software.filter fun a => a.component = component).map (record, ·)) := by
  unfold finishImport at h
  obtain ⟨⟨resolved, counts, peak⟩, hresv, h⟩ := bind_ok h
  obtain ⟨⟨noticeValues, retained⟩, -, h⟩ := bind_ok h
  obtain ⟨base, -, h⟩ := bind_ok h
  obtain ⟨⟨index, retainedBytes⟩, hidx, h⟩ := bind_ok h
  obtain ⟨measured, -, h⟩ := bind_ok h
  simp only at h hidx
  by_cases hbs : retainedBytes ≠ measured
  · rw [if_pos hbs] at h
    cases h
  rw [if_neg hbs] at h
  obtain ⟨rfl, rfl⟩ := resolveIdentityMappings_eq hdec hresv
  cases h
  refine ⟨rfl, ?_, rfl, rfl, rfl, buildComponentIndex_find hidx⟩
  exact countsOf_perm (importedRecords_perm _).symm

/-- The parts of an import that was accepted. -/
theorem parse_ok {reader : Reader} {feed : WordfenceV3ProductionImport}
    (h : parseWordfenceV3Production serde memory reader = .ok feed) :
    ∃ members decoded state,
      (ReadsJson serde → RootText members reader.bytes ∧ ∀ m ∈ members, ∃ ms, m.json = .object ms) ∧
      List.Forall₂ (fun m d => decodeMember serde m = .ok d) members decoded ∧
      Taken decoded state ∧
      feed.records = importedRecords (decoded.map Prod.fst) ∧
      feed.identityCounts = countsOf feed.records ∧
      feed.softwareAssociationCount = state.softwareAssociationCount ∧
      feed.notices = state.notices.toList.map Prod.snd ∧
      feed.semanticSha256 = serde.sha256 (semanticPreimage feed.records feed.notices
        feed.identityCounts (decoded.any fun d => recordRequiresSemanticDigestV2 d.1)) ∧
      ∀ component, feed.associationsFor component = some (feed.records.flatMap fun record =>
        (record.software.filter fun a => a.component = component).map (record, ·)) := by
  obtain ⟨retained, -, h⟩ := bind_ok h
  obtain ⟨⟨state, cursor⟩, hread, h⟩ := bind_ok h
  obtain ⟨members, htext, hfold, -⟩ := readFeed_sound hread
  obtain ⟨decoded, hmems, htaken⟩ := foldlM_taken (taken_start retained) hfold
  rw [nil_append] at htaken
  have hdec : ∀ a ∈ mappedAssociations state.records.values, Decoded a := by
    intro a ha
    obtain ⟨record, hrec, ha⟩ := mem_flatMap.mp ha
    rw [htaken.records] at hrec
    obtain ⟨d, hd, rfl⟩ := mem_map.mp hrec
    obtain ⟨m, -, hm⟩ := exists_mem_of_forall₂ hmems hd
    obtain ⟨value, -, hvalue⟩ := bind_ok hm
    exact ((of_wp decodeRecord_fits hvalue).software.2 a ha).1
  obtain ⟨hrecs, hcounts, hassoc, hnot, hdigest, hfind⟩ := finishImport_ok hdec h
  rw [htaken.records] at hrecs
  rw [htaken.semantic] at hdigest
  exact ⟨members, decoded, state, htext, hmems, htaken, hrecs, hcounts, hassoc, hnot,
    hdigest, hfind⟩

/-! ### A feed with one record -/

/-- Floats as tenths, exact ones only. -/
def tenthsLibrary : Library ℤ where
  sha256 bytes := bytes.take 32
  parseUrl _ := none
  readFloat lexeme := (Json.numberParts lexeme).bind fun parts =>
    if (parts.value * 10).den = 1 then some (parts.value * 10).num else none
  showFloat value := (if value < 0 then "-" else "") ++ toString (value.natAbs / 10) ++ "." ++
    toString (value.natAbs % 10)

def tenthsSerde : Serde ℤ where
  toLibrary := tenthsLibrary
  readJson bytes := okOr (Json.read bytes) .malformedJson

/-- An allocator that gives what is asked for. -/
def exactMemory : Memory where
  stringCapacity text := text.utf8ByteSize
  sizeOfString := 24
  sizeOfImport := 384
  sizeOfRecord := 328
  sizeOfNotice := 144
  sizeOfComponent := 32
  sizeOfCoordinates := 24
  sizeOfCoordinate := 16
  sizeOfSpelling := 64
  recordDynamicBytes _ := some 4096
  noticeDynamicBytes _ := some 4096
  reserve _ _ requested := some requested

/-- A record with one association, in the text of its members. -/
def sampleRecord (cvss : String) : String :=
  "\"id\":\"00000000-0000-0000-0000-000000000000\",\"title\":\"t\",\"software\":[\x7b" ++
  "\"type\":\"plugin\",\"name\":\"n\",\"slug\":\"Ab\",\"affected_versions\":\x7b\x7d," ++
  "\"patched\":false,\"patched_versions\":[],\"remediation\":\"\"\x7d],\"informational\":false," ++
  "\"description\":\"\",\"references\":[],\"cwe\":null,\"cvss\":" ++ cvss ++
  ",\"cve\":null,\"cve_link\":null,\"researchers\":[],\"published\":null,\"updated\":null," ++
  "\"copyrights\":null"

/-- A feed with one record. -/
def sampleFeed (cvss : String) : Reader where
  bytes := utf8Bytes ("\x7b\"00000000-0000-0000-0000-000000000000\":\x7b" ++ sampleRecord cvss ++
    "\x7d\x7d")
  broken := false

theorem exists_of_isOk {ε α : Type} {x : Except ε α} (h : x.isOk = true) : ∃ a, x = .ok a := by
  cases x with
  | ok a => exact ⟨a, rfl⟩
  | error e => cases h

theorem tenthsSerde_reads : ReadsJson tenthsSerde := by
  intro bytes json
  rw [← Json.read_eq_some]
  exact okOr_eq_ok

/-- What a document with one member is imported as, from its key and value. -/
def importOne (serde : Serde F) (memory : Memory) (input : Bytes) (key : String) (json : Json) :
    Except WordfenceV3ProductionError WordfenceV3ProductionImport := do
  let retained ← RetainedBudget.withBase maxRetainedBytes memory.sizeOfImport
  let state ← admitKey memory (ParseState.start retained) key
  let value ← decodeBoundedValue serde.toLibrary json
  let decoded ← decodeRecord serde.toLibrary key value
  let state ← admitDecoded memory state 0 decoded
  finishImport serde memory maxRetainedBytes state ⟨[], false, input, maxProductionBytes⟩

theorem admitDecoded_short (state : ParseState) {length : Nat} (h : length ≤ 512 * 1024)
    (decoded : WordfenceV3Record × List WordfenceV3Notice) :
    admitDecoded memory state length decoded = admitDecoded memory state 0 decoded := by
  unfold admitDecoded recordRequiresResourcePolicyV2
  rw [decide_eq_false (Nat.not_lt.mpr h), decide_eq_false (Nat.not_lt_zero _)]

/-- A short document with one shallow record needs no cursor. -/
theorem parse_one (hserde : ReadsJson serde) {input : Bytes} {key : String}
    {ms : List (String × Json)} (hread : Json.read input = some (.object [(key, .object ms)]))
    (hdep : (Json.object ms).depth ≤ 10) (hkey : validateUuid key = .ok ())
    (hlength : input.length ≤ 512 * 1024) :
    parseWordfenceV3Production serde memory ⟨input, false⟩ =
      importOne serde memory input key (.object ms) := by
  obtain ⟨members, hroot, hmems⟩ := rootText_of_read hread
  obtain ⟨⟨key, text, _⟩, rfl, ⟨⟩⟩ := map_eq_singleton_iff.mp hmems.symm
  have hsh : text.length ≤ 512 * 1024 ∧ Json.Text (.object ms) text := by
    obtain ⟨before, inner, after, -, -, rfl, htexts⟩ := hroot
    have hle := htexts.length_text _ mem_cons_self
    simp only [length_append, length_cons] at hlength
    exact ⟨by simp only at hle; omega, (htexts.text _ mem_cons_self).1⟩
  have hjson : serde.readJson text = .ok (.object ms) :=
    (hserde _ _).mpr ⟨[], text, [], Json.Blank.nil, Json.Blank.nil, hsh.2, by simp⟩
  have hfram : ∀ m ∈ [(⟨key, text, .object ms⟩ : RootMember)], Framable m := by
    intro m hm
    obtain rfl := mem_singleton.mp hm
    exact ⟨⟨ms, rfl⟩, hdep, le_trans hsh.1 (by decide), fun name => key_length hkey⟩
  have hroom : input.length ≤ maxProductionBytes := le_trans hlength (by decide)
  unfold parseWordfenceV3Production parseWordfenceV3ProductionWithLimits importOne
  cases RetainedBudget.withBase maxRetainedBytes memory.sizeOfImport with
  | error e => rfl
  | ok retained =>
    simp only [bind, Except.bind]
    rw [readFeed_complete hserde hroot hfram hroom]
    simp only [foldlM_cons, foldlM_nil, admitMember, admitRecord, decodeBoundedRecord, hjson,
      admitDecoded_short _ hsh.1]
    have hfew : ¬ (ParseState.start retained).records.values.length = maxRecords :=
      (by decide : ¬ (0 : Nat) = maxRecords)
    rw [if_neg hfew]
    cases admitKey memory (ParseState.start retained) key with
    | error e => rfl
    | ok state =>
      simp only [bind, Except.bind]
      cases decodeBoundedValue serde.toLibrary (.object ms) with
      | error e => rfl
      | ok value =>
        cases hdec : decodeRecord serde.toLibrary key value with
        | error e =>
          simp only [hdec]
          rfl
        | ok decoded =>
          simp only [hdec]
          cases admitDecoded memory state 0 decoded <;> rfl

/-- Whether a document with one record is imported. -/
def importsOne (input : Bytes) : Bool :=
  match Json.read input with
  | some (.object [(key, .object ms)]) =>
    (Json.object ms).depth ≤ 10 && (validateUuid key).isOk && input.length ≤ 512 * 1024 &&
      (importOne tenthsSerde exactMemory input key (.object ms)).isOk
  | _ => false

theorem parse_of_importsOne {input : Bytes} (h : importsOne input = true) :
    ∃ feed, parseWordfenceV3Production tenthsSerde exactMemory ⟨input, false⟩ = .ok feed := by
  unfold importsOne at h
  split at h
  · rename_i key ms hread
    simp only [Bool.and_eq_true, decide_eq_true_eq] at h
    obtain ⟨⟨⟨hdep, hvalid⟩, hlength⟩, himport⟩ := h
    obtain ⟨⟨⟩, hkey⟩ := exists_of_isOk hvalid
    rw [parse_one tenthsSerde_reads hread hdep hkey hlength]
    exact exists_of_isOk himport
  · cases h

set_option maxRecDepth 20000 in
theorem parse_sampleFeed : ∃ feed,
    parseWordfenceV3Production tenthsSerde exactMemory (sampleFeed "null") = .ok feed :=
  parse_of_importsOne (by decide +kernel)

/-! ### Identities of an accepted feed -/

/-- The same record with its associations in another order. -/
def Shuffled (record record' : WordfenceV3Record) : Prop :=
  ∃ software unresolvedSoftware, record.software.Perm software ∧
    record.unresolvedSoftware.Perm unresolvedSoftware ∧
    record' = { record with software, unresolvedSoftware }

/-- The same records in another order, with their associations in another
order. -/
def Reordered (records records' : List WordfenceV3Record) : Prop :=
  ∃ middle, List.Forall₂ Shuffled records middle ∧ middle.Perm records'

theorem mappedAssociations_forall₂ {records middle : List WordfenceV3Record}
    (h : List.Forall₂ Shuffled records middle) :
    (mappedAssociations records).Perm (mappedAssociations middle) := by
  induction h with
  | nil => exact List.Perm.refl _
  | cons hrec _ ih =>
    obtain ⟨_, _, hsoft, -, rfl⟩ := hrec
    exact hsoft.append ih

theorem Reordered.mappedAssociations (h : Reordered records records') :
    (mappedAssociations records).Perm (mappedAssociations records') := by
  obtain ⟨middle, hshuf, hperm⟩ := h
  exact (mappedAssociations_forall₂ hshuf).trans (hperm.flatMap_right _)

theorem Shuffled.settleRecord (mapped : List WordfenceV3SoftwareAssociation)
    {record record' : WordfenceV3Record} (h : Shuffled record record') :
    Shuffled (settleRecord mapped record) (settleRecord mapped record') := by
  obtain ⟨software, unresolved, hsoft, hunres, rfl⟩ := h
  exact ⟨software.map (settle mapped), unresolved, hsoft.map _, hunres, rfl⟩

/-- Settling all records commutes with any order. -/
theorem Reordered.settle (h : Reordered records records') :
    Reordered (records.map (settleRecord (Wordfence.mappedAssociations records)))
      (records'.map (settleRecord (Wordfence.mappedAssociations records'))) := by
  have hmapped := h.mappedAssociations
  obtain ⟨middle, hshuf, hperm⟩ := h
  have hsettle : settleRecord (Wordfence.mappedAssociations records) =
      settleRecord (Wordfence.mappedAssociations records') := by
    funext record
    rw [settleRecord, settleRecord, settle_perm hmapped]
  rw [hsettle]
  refine ⟨middle.map (settleRecord (Wordfence.mappedAssociations records')), ?_, hperm.map _⟩
  rw [forall₂_map_left_iff, forall₂_map_right_iff]
  exact hshuf.imp fun _ _ hrec => hrec.settleRecord _

theorem Reordered.countsOf (h : Reordered records records') :
    countsOf records = countsOf records' := by
  have hunres : (records.map fun record => record.unresolvedSoftware.length).sum =
      (records'.map fun record => record.unresolvedSoftware.length).sum := by
    obtain ⟨middle, hshuf, hperm⟩ := h
    rw [← (hperm.map _).sum_nat]
    congr 1
    refine forall₂_eq_eq_eq ▸ forall₂_map_left_iff.mpr (forall₂_map_right_iff.mpr (hshuf.imp ?_))
    rintro record record' ⟨_, _, -, hunres, rfl⟩
    exact hunres.length_eq
  simp only [Wordfence.countsOf, h.mappedAssociations.countP_eq, hunres]

/-- **Identity resolution is the definition over the whole feed.** In every
accepted feed an association is exact if its source slug is a valid slug, and
otherwise ambiguous, with the number of spellings, if there is another spelling
of its component anywhere in the feed. The counts add up, the index finds the
associations of a component in the order of the records, and the order of
records and associations does not matter. -/
theorem acceptedFeed_identities {reader : Reader} {feed : WordfenceV3ProductionImport}
    (h : parseWordfenceV3Production serde memory reader = .ok feed) :
    (∀ record ∈ feed.records, ∀ a ∈ record.software,
      (a.identityMapping, a.identityCollisionRawCount) =
        wholeFeedIdentity (mappedAssociations feed.records) a) ∧
    feed.identityCounts = countsOf feed.records ∧
    feed.identityCounts.exact + feed.identityCounts.candidate + feed.identityCounts.ambiguous +
      feed.identityCounts.unresolved = feed.softwareAssociationCount ∧
    (∀ component, feed.associationsFor component = some (feed.records.flatMap fun record =>
      (record.software.filter fun a => a.component = component).map (record, ·))) ∧
    ∀ {records records' resolved resolved' : List WordfenceV3Record}
      {counts counts' : WordfenceV3IdentityCounts} {base base' maximum maximum' peak peak' : Nat},
      (∀ record ∈ records, ∃ key value notices,
        decodeRecord serde.toLibrary key value = .ok (record, notices)) →
      Reordered records records' →
      resolveIdentityMappings memory records base maximum = .ok (resolved, counts, peak) →
      resolveIdentityMappings memory records' base' maximum' = .ok (resolved', counts', peak') →
      Reordered resolved resolved' ∧ counts = counts' := by
  obtain ⟨members, decoded, state, -, hmems, htaken, hrecs, hcounts, hassoc, -, -, hfind⟩ :=
    parse_ok h
  have hperm := importedRecords_perm (decoded.map Prod.fst)
  rw [← hrecs] at hperm
  refine ⟨?_, hcounts, ?_, hfind, ?_⟩
  · intro record hrec a ha
    obtain ⟨r, hr, rfl⟩ := List.mem_map.mp (hperm.mem_iff.mp hrec)
    obtain ⟨b, hb, rfl⟩ := List.mem_map.mp ha
    have hmapped : (mappedAssociations feed.records).Perm ((mappedAssociations (decoded.map
        Prod.fst)).map (settle (mappedAssociations (decoded.map Prod.fst)))) := by
      rw [← mappedAssociations_settle]
      exact hperm.flatMap_right _
    rw [wholeFeedIdentity_perm hmapped, wholeFeedIdentity_settle]
    rfl
  · have htot : ∀ d : DecodedRecord, associationCount (settleRecord (mappedAssociations
        (decoded.map Prod.fst)) d.1) = associationCount d.1 := by
      intro d
      simp [associationCount, settleRecord]
    rw [hcounts, countsOf_total, hassoc, htaken.associations, (hperm.map _).sum_nat,
      List.map_map, List.map_map]
    exact congrArg List.sum (List.map_congr_left fun d _ => htot d)
  · intro records records' resolved resolved' counts counts' base base' maximum maximum' peak peak'
      hdecode hreor hres hres'
    have hdec : ∀ a ∈ mappedAssociations records, Decoded a := by
      intro a ha
      obtain ⟨record, hrec, ha⟩ := List.mem_flatMap.mp ha
      obtain ⟨_, _, _, hrec⟩ := hdecode record hrec
      exact ((Checked.of_wp decodeRecord_fits hrec).software.2 a ha).1
    have hdec' : ∀ a ∈ mappedAssociations records', Decoded a := fun a ha =>
      hdec a (hreor.mappedAssociations.mem_iff.mpr ha)
    obtain ⟨rfl, rfl⟩ := resolveIdentityMappings_eq hdec hres
    obtain ⟨rfl, rfl⟩ := resolveIdentityMappings_eq hdec' hres'
    exact ⟨hreor.settle, hreor.settle.countsOf⟩

theorem acceptedFeed_identities_sample : ∃ feed,
    parseWordfenceV3Production tenthsSerde exactMemory (sampleFeed "null") = .ok feed ∧
      (∀ record ∈ feed.records, ∀ a ∈ record.software,
        (a.identityMapping, a.identityCollisionRawCount) =
          wholeFeedIdentity (mappedAssociations feed.records) a) ∧
      feed.identityCounts = countsOf feed.records := by
  obtain ⟨feed, hfeed⟩ := parse_sampleFeed
  have hiden := acceptedFeed_identities hfeed
  exact ⟨feed, hfeed, hiden.1, hiden.2.1⟩

end Termivar.Wordfence
