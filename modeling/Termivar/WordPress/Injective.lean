/-
# The semantic digest stands for the feed

What is hashed for a feed can be read back: texts and lists are behind their
lengths, and what is accepted is short enough for these. What the first
version leaves out follows from the rest: it is used for feeds whose
associations are all exact, and the digest of a source association is that of
what is hashed (`readsBack_hashRecordV1`).
-/
import Termivar.WordPress.Accepted

namespace Termivar.Wordfence

open List

/-! ### Reading back -/

theorem readsBack_frameText : ReadsBack Short frameText := fun _ _ _ _ ha hb h =>
  readsBack_frame 8 (lt_of_le_of_lt ha (by decide)) (lt_of_le_of_lt hb (by decide)) h

/-- A list behind its length. -/
theorem readsBack_list {α : Type} {S : α → Prop} {write : α → Bytes} (h : ReadsBack S write) :
    ReadsBack (ShortList S) fun as => frameUsize as.length ++ as.flatMap write :=
  fun _ _ _ _ ha hb heq => h.counted 8 ⟨lt_of_le_of_lt ha.1 (by decide), ha.2⟩
    ⟨lt_of_le_of_lt hb.1 (by decide), hb.2⟩ heq

theorem readsBack_hashStrings : ReadsBack (ShortList Short) hashStrings :=
  readsBack_list readsBack_frameText

theorem readsBack_frameBool : ReadsBack (fun _ => True) fun b => [frameBool b] :=
  readsBack_byte (by decide)

theorem readsBack_hashOptionalString :
    ReadsBack (fun o => ∀ text ∈ o, Short text) hashOptionalString :=
  readsBack_frameBool.optional readsBack_frameText rfl fun _ => rfl

theorem readsBack_kindByte : ReadsBack (fun _ => True) fun kind => [kindByte kind] :=
  readsBack_byte (by rintro (_ | _ | _) (_ | _ | _) h <;> first | rfl | exact absurd h (by decide))

theorem readsBack_rangeValue : ReadsBack ValueFits fun value => frameText value.text := by
  have hstar : Short "*" := by unfold Short; decide
  rintro (_ | a) (_ | b) r r' ha hb h
  · exact ⟨rfl, (readsBack_frameText hstar hstar h).2⟩
  · exact absurd (readsBack_frameText hstar hb.1 h).1.symm hb.2
  · exact absurd (readsBack_frameText ha.1 hstar h).1 ha.2
  · obtain ⟨rfl, hrest⟩ := readsBack_frameText ha.1 hb.1 h
    exact ⟨rfl, hrest⟩

theorem readsBack_hashRange : ReadsBack RangeFits hashRange :=
  have value := readsBack_rangeValue.prod readsBack_frameBool
  (readsBack_frameText.prod (value.prod value)).parts
    (fun r => (r.label, (r.lower.value, r.lower.inclusive), r.upper.value, r.upper.inclusive))
    (by simp [hashRange]) (fun _ h => ⟨h.1, ⟨h.2.1, trivial⟩, h.2.2, trivial⟩)
    (by rintro ⟨_, ⟨_, _⟩, _, _⟩ ⟨_, ⟨_, _⟩, _, _⟩ - - ⟨⟩; rfl)

theorem readsBack_hashNotice : ReadsBack (fun n => Short n.id ∧ Short n.message ∧ Short n.party ∧
    Short n.notice ∧ Short n.license ∧ Short n.licenseUrl) hashNotice :=
  have text := readsBack_frameText
  (text.prod (text.prod (text.prod (text.prod (text.prod text))))).parts
    (fun n => (n.id, n.message, n.party, n.notice, n.license, n.licenseUrl))
    (by simp [hashNotice]) (fun _ h => h) (by rintro ⟨⟩ ⟨⟩ - - ⟨⟩; rfl)

theorem readsBack_hashCwe : ReadsBack (fun o => ∀ cwe ∈ o, CweFits cwe) hashCwe := by
  have hcwe := ((readsBack_beBytes 4).prod (readsBack_frameText.prod readsBack_frameText)).parts
    (fun cwe : WordfenceV3Cwe => (cwe.id, cwe.name, cwe.description)) (fun _ => rfl)
    (fun cwe (h : CweFits cwe) => h) (by rintro ⟨⟩ ⟨⟩ - - ⟨⟩; rfl)
  exact readsBack_frameBool.optional hcwe rfl fun _ => by simp [hashCwe, frameBool]

theorem WordfenceV3CvssRating.byte_injective : Function.Injective WordfenceV3CvssRating.byte := by
  rintro (_ | _) (_ | _) h <;> first | rfl | exact absurd h (by decide)

theorem readsBack_hashCvss : ReadsBack (fun o => ∀ cvss ∈ o, CvssFits cvss) hashCvss := by
  have hcvss := (readsBack_frameText.prod (readsBack_frameText.prod
    (readsBack_byte WordfenceV3CvssRating.byte_injective))).parts
    (fun cvss : WordfenceV3Cvss => (cvss.vector, cvss.score, cvss.rating)) (fun _ => rfl)
    (fun cvss (h : CvssFits cvss) => ⟨h.1, h.2, trivial⟩) (by rintro ⟨⟩ ⟨⟩ - - ⟨⟩; rfl)
  exact readsBack_frameBool.optional hcvss rfl fun _ => by simp [hashCvss, frameBool]

def Contents.bytes (contents : Contents) : Bytes :=
  [kindByte contents.source.kind] ++ frameText contents.source.slug ++ frameText contents.displayName ++
    hashAssociationValues contents.affectedRanges contents.patched contents.patchedVersions
      contents.remediation

theorem Contents.readsBack_bytes : ReadsBack Fits bytes :=
  (readsBack_kindByte.prod (readsBack_frameText.prod (readsBack_frameText.prod
    ((readsBack_list readsBack_hashRange).prod (readsBack_frameBool.prod
      (readsBack_hashStrings.prod readsBack_frameText)))))).parts
    (fun c => (c.source.kind, c.source.slug, c.displayName, c.affectedRanges, c.patched,
      c.patchedVersions, c.remediation))
    (by simp [bytes, hashAssociationValues])
    (fun _ h => ⟨trivial, h.slug, h.displayName, h.affectedRanges, trivial, h.patchedVersions,
      h.remediation⟩)
    (by rintro ⟨⟨_, _⟩, _⟩ ⟨⟨_, _⟩, _⟩ - - ⟨⟩; rfl)

section

variable {F : Type} {lib : Library F} {upstreamId : String}

theorem Belongs.ext {a b : WordfenceV3UnresolvedSoftwareAssociation} (ha : Belongs lib upstreamId a)
    (hb : Belongs lib upstreamId b) (h : contentsOf a = contentsOf b) : a = b := by
  have hid := ha.upstreamId.trans hb.upstreamId.symm
  have hdigest : a.sourceAssociationSha256 = b.sourceAssociationSha256 := by
    rw [ha.digest, hb.digest, h]
  cases a
  cases b
  simp_all [contentsOf]

theorem readsBack_hashUnresolved : ReadsBack (Belongs lib upstreamId) hashUnresolved :=
  Contents.readsBack_bytes.parts contentsOf (fun _ => rfl) (fun _ h => h.fits)
    fun _ _ ha hb h => ha.ext hb h

/-- A mapped association of the record. If it is exact, its component is the
source. -/
structure MappedBelongs (lib : Library F) (upstreamId : String)
    (association : WordfenceV3SoftwareAssociation) : Prop where
  source : Belongs lib upstreamId (sourceOf association)
  count : ∀ count ∈ association.identityCollisionRawCount, count < 256 ^ 8
  exact : association.identityMapping = .exact → association.sourceComponent =
    ⟨association.component.kind, association.component.slug⟩ ∧
      association.identityCollisionRawCount = none

/-- The contents with the component. -/
def commonOf (association : WordfenceV3SoftwareAssociation) : Contents :=
  { contentsOf (sourceOf association) with
    source := ⟨association.component.kind, association.component.slug⟩ }

theorem MappedBelongs.common {a : WordfenceV3SoftwareAssociation}
    (h : MappedBelongs lib upstreamId a) : (commonOf a).Fits where
  slug := by
    have hvalid := a.component.valid
    simp only [validComponent, validSlug, Bool.not_eq_true', Bool.or_eq_false_iff] at hvalid
    split_ifs at hvalid with hlength
    · simp at hvalid
    · exact (not_lt.mp fun hlong => hlength (Or.inr hlong)).trans (by decide)
  displayName := h.source.fits.displayName
  affectedRanges := h.source.fits.affectedRanges
  patchedVersions := h.source.fits.patchedVersions
  remediation := h.source.fits.remediation

theorem MappedBelongs.ext {a b : WordfenceV3SoftwareAssociation}
    (ha : MappedBelongs lib upstreamId a) (hb : MappedBelongs lib upstreamId b)
    (hsource : a.sourceComponent = b.sourceComponent) (hmapp : a.identityMapping = b.identityMapping)
    (hcount : a.identityCollisionRawCount = b.identityCollisionRawCount)
    (h : commonOf a = commonOf b) : a = b := by
  have hown : sourceOf a = sourceOf b := by
    refine ha.source.ext hb.source ?_
    simp_all [commonOf, contentsOf, sourceOf]
  obtain ⟨⟨_, ⟨_, _, _⟩, _, _⟩, _⟩ := a
  obtain ⟨⟨_, ⟨_, _, _⟩, _, _⟩, _⟩ := b
  simp_all [commonOf, sourceOf, WordfenceV3SoftwareAssociation.component,
    WordfenceV3SoftwareAssociation.sourceComponent]

theorem readsBack_asStr :
    ReadsBack (fun _ => True) fun mapping : WordfenceV3IdentityMapping => frameText mapping.asStr :=
  readsBack_frameText.parts _ (fun _ => rfl) (by rintro (_ | _ | _) - <;> unfold Short <;> decide)
    (by rintro (_ | _ | _) (_ | _ | _) - - h <;> first | rfl | exact absurd h (by decide))

theorem readsBack_hashMapped : ReadsBack (MappedBelongs lib upstreamId) hashMapped :=
  (readsBack_kindByte.prod (readsBack_frameText.prod (readsBack_asStr.prod
    ((readsBack_frameBool.optional (readsBack_beBytes 8)
      (show hashCollisionCount none = _ from rfl) fun _ => rfl).prod
      Contents.readsBack_bytes)))).parts
    (fun a => (a.sourceComponent.kind, a.sourceComponent.slug, a.identityMapping,
      a.identityCollisionRawCount, commonOf a))
    (by simp [hashMapped, hashAssociationCommon, commonOf, contentsOf, sourceOf, Contents.bytes])
    (fun _ h => ⟨trivial, h.source.fits.slug, trivial, h.count, h.common⟩) fun a b ha hb h => by
      simp only [Prod.mk.injEq] at h
      refine ha.ext hb ?_ h.2.2.1 h.2.2.2.1 h.2.2.2.2
      cases hx : a.sourceComponent
      cases hy : b.sourceComponent
      simp_all

/-- What is exact is hashed without its source. -/
theorem readsBack_hashAssociationCommon :
    ReadsBack (fun a => MappedBelongs lib upstreamId a ∧ a.identityMapping = .exact)
      hashAssociationCommon :=
  Contents.readsBack_bytes.parts commonOf (fun _ => rfl) (fun _ h => h.1.common)
    fun a b ha hb h => by
      have hcomp : (commonOf a).source = (commonOf b).source := by rw [h]
      obtain ⟨hsource, hnone⟩ := ha.1.exact ha.2
      obtain ⟨hsource', hnone'⟩ := hb.1.exact hb.2
      exact ha.1.ext hb.1 (hsource.trans (hcomp.trans hsource'.symm)) (ha.2.trans hb.2.symm)
        (hnone.trans hnone'.symm) h

/-- A record without its associations. -/
def bare (record : WordfenceV3Record) : WordfenceV3Record :=
  { record with
    software := []
    unresolvedSoftware := [] }

/-- What holds of a record of an accepted feed. -/
structure RecordFits (lib : Library F) (record : WordfenceV3Record) : Prop where
  upstreamId : Short record.upstreamId
  common : CommonFits record
  noticeIds : ShortList Short record.noticeIds
  software : ShortList (MappedBelongs lib record.upstreamId) record.software
  unresolvedSoftware : ShortList (Belongs lib record.upstreamId) record.unresolvedSoftware

theorem readsBack_hashRecordCommon : ReadsBack (fun record => ∃ whole, RecordFits lib whole ∧
    bare whole = record) hashRecordCommon :=
  have text := readsBack_frameText
  have option := readsBack_hashOptionalString
  have strings := readsBack_hashStrings
  (text.prod (text.prod (readsBack_frameBool.prod (text.prod (strings.prod
    (readsBack_hashCwe.prod (readsBack_hashCvss.prod (option.prod (option.prod (strings.prod
      (option.prod (option.prod strings)))))))))))).parts
    (fun r => (r.upstreamId, r.title, r.informational, r.description, r.references, r.cwe, r.cvss,
      r.cve, r.cveLink, r.researchers, r.published, r.updated, r.noticeIds))
    (by simp [hashRecordCommon])
    (by
      rintro _ ⟨whole, h, rfl⟩
      obtain ⟨htitle, hdesc, hrefs, hcwe, hcvss, hcve, hlink, hres, hpub, hupd⟩ := h.common
      exact ⟨h.upstreamId, htitle, trivial, hdesc, hrefs, hcwe, hcvss, hcve, hlink, hres, hpub, hupd,
        h.noticeIds⟩)
    (by
      rintro _ _ ⟨a, -, rfl⟩ ⟨b, -, rfl⟩ h
      cases a
      cases b
      simp_all [bare])

variable {a b : WordfenceV3Record} {r r' : Bytes}

theorem record_ext (h : bare a = bare b) (hsoft : a.software = b.software)
    (hunres : a.unresolvedSoftware = b.unresolvedSoftware) : a = b := by
  cases a
  cases b
  simp_all [bare]

/-- The first parts of a record, in both versions. -/
theorem record_front (ha : RecordFits lib a) (hb : RecordFits lib b)
    (h : hashRecordCommon a ++ (frameUsize a.software.length ++ r) =
      hashRecordCommon b ++ (frameUsize b.software.length ++ r')) :
    bare a = bare b ∧ a.upstreamId = b.upstreamId ∧ a.software.length = b.software.length ∧ r = r' := by
  obtain ⟨hbare, h⟩ := readsBack_hashRecordCommon (a := bare a) (b := bare b) ⟨a, ha, rfl⟩ ⟨b, hb, rfl⟩ h
  obtain ⟨hlength, h⟩ := readsBack_beBytes 8 (lt_of_le_of_lt ha.software.1 (by decide))
    (lt_of_le_of_lt hb.software.1 (by decide)) h
  exact ⟨hbare, show (bare a).upstreamId = (bare b).upstreamId by rw [hbare], hlength, h⟩

theorem readsBack_hashRecordV2 : ReadsBack (RecordFits lib) hashRecordV2 := by
  intro a b r r' ha hb h
  simp only [hashRecordV2, append_assoc] at h
  obtain ⟨hbare, hid, hlength, h⟩ := record_front ha hb h
  obtain ⟨hsoft, h⟩ := readsBack_hashMapped.flatMap ha.software.2 (hid ▸ hb.software.2) hlength h
  rw [← append_assoc, ← append_assoc (frameUsize b.unresolvedSoftware.length)] at h
  obtain ⟨hunres, h⟩ := readsBack_list readsBack_hashUnresolved ha.unresolvedSoftware
    (hid ▸ hb.unresolvedSoftware) h
  exact ⟨record_ext hbare hsoft hunres, h⟩

/-- A record that the first version says all of. -/
def Plain (record : WordfenceV3Record) : Prop :=
  (∀ a ∈ record.software, a.identityMapping = .exact) ∧ record.unresolvedSoftware = []

theorem readsBack_hashRecordV1 :
    ReadsBack (fun record => RecordFits lib record ∧ Plain record) hashRecordV1 := by
  rintro a b r r' ⟨ha, hpl⟩ ⟨hb, hpl'⟩ h
  simp only [hashRecordV1, append_assoc] at h
  obtain ⟨hbare, hid, hlength, h⟩ := record_front ha hb h
  obtain ⟨hsoft, h⟩ := readsBack_hashAssociationCommon.flatMap
    (fun x hx => ⟨ha.software.2 x hx, hpl.1 x hx⟩)
    (fun x hx => ⟨hid ▸ hb.software.2 x hx, hpl'.1 x hx⟩) hlength h
  exact ⟨record_ext hbare hsoft (hpl.2.trans hpl'.2.symm), h⟩

end

/-! ### Feeds -/

variable {F : Type} {lib : Library F} {serde : Serde F} {memory : Memory} {reader : Reader}
  {feed : WordfenceV3ProductionImport}

/-- What is settled as exact has a source that is a component. -/
theorem settle_belongs {mapped : List WordfenceV3SoftwareAssociation} (hfew : mapped.length < 256 ^ 8)
    {upstreamId : String} {a : WordfenceV3SoftwareAssociation} (hdec : Decoded a)
    (h : Belongs lib upstreamId (sourceOf a)) : MappedBelongs lib upstreamId (settle mapped a) where
  source := h
  count := by
    intro count hcount
    simp only [settle, wholeFeedIdentity] at hcount
    have hle : distinctSources mapped a.component ≤ mapped.length := by
      refine (dedup_sublist _).length_le.trans ?_
      rw [length_map]
      exact length_filter_le _ _
    split_ifs at hcount <;> cases hcount
    omega
  exact := by
    intro hexact
    have hwhole : (wholeFeedIdentity mapped a).1 = .exact := hexact
    show a.sourceComponent = ⟨a.component.kind, a.component.slug⟩ ∧ (wholeFeedIdentity mapped a).2 = none
    unfold wholeFeedIdentity at hwhole ⊢
    rcases hdec.cases with ⟨-, hvalid⟩ | ⟨-, hvalid⟩
    · simp only [hvalid, ↓reduceIte, and_true]
      have hmapp := hdec.mapping
      obtain ⟨component, hnew⟩ := Option.isSome_iff_exists.mp hvalid
      rw [mapComponent, hnew] at hmapp
      obtain rfl : component = a.component := congrArg Prod.fst (Option.some.inj hmapp)
      unfold WordPressComponentIdentity.new at hnew
      split_ifs at hnew
      rw [← Option.some.inj hnew]
    · simp only [hvalid, Bool.false_eq_true, ↓reduceIte] at hwhole
      split_ifs at hwhole

theorem RecordFits.of_decoded (hsha : ∀ bytes, (lib.sha256 bytes).length ≤ 32)
    {mapped : List WordfenceV3SoftwareAssociation} (hfew : mapped.length < 256 ^ 8) {mapId : String}
    {decoded : DecodedRecord} (h : DecodedFits lib mapId decoded) :
    RecordFits lib (settleRecord mapped decoded.1) ∧ ∀ n ∈ decoded.2, Short n.id := by
  have hids : ∀ n ∈ decoded.2, Short n.id := by
    intro n hn
    obtain ⟨⟨bytes, hid⟩, -⟩ := h.notices.2 n hn
    unfold Short
    rw [hid, String.utf8ByteSize_append, Hex.utf8ByteSize_hex]
    exact (Nat.add_le_add_left (Nat.mul_le_mul_left 2 (hsha _)) _).trans (by decide)
  refine ⟨⟨?_, h.common, ?_, ⟨by simpa [settleRecord] using h.software.1, fun a ha => ?_⟩, ?_⟩, hids⟩
  · show Short decoded.1.upstreamId
    rw [h.upstreamId]
    have hid := Checked.of_wp validateUuid_short h.valid
    exact hid
  · show ShortList Short decoded.1.noticeIds
    rw [h.noticeIds]
    refine .sortBy _ ⟨by simpa using h.notices.1, fun id hid => ?_⟩
    obtain ⟨n, hn, rfl⟩ := mem_map.mp hid
    exact hids n hn
  · obtain ⟨b, hb, rfl⟩ := mem_map.mp ha
    obtain ⟨hdec, hbel⟩ := h.software.2 b hb
    exact settle_belongs hfew hdec (h.upstreamId ▸ hbel)
  · exact h.upstreamId ▸ h.unresolvedSoftware

/-- Everything that an accepted feed retains fits. -/
theorem feed_fits (hsha : ∀ bytes, (serde.sha256 bytes).length ≤ 32)
    (h : parseWordfenceV3Production serde memory reader = .ok feed) :
    (feed.records.length < 256 ^ 8 ∧ ∀ r ∈ feed.records, RecordFits serde.toLibrary r) ∧
      (∀ n ∈ feed.notices, Short n.id ∧ Short n.message ∧ Short n.party ∧ Short n.notice ∧
        Short n.license ∧ Short n.licenseUrl) ∧
      feed.identityCounts = countsOf feed.records ∧ ∃ expanded, feed.semanticSha256 =
        serde.sha256 (semanticPreimage feed.records feed.notices feed.identityCounts expanded) := by
  obtain ⟨members, decoded, state, -, hmems, htaken, hrecs, hcounts, -, hnot, hdigest, -⟩ := parse_ok h
  have hfits : ∀ d ∈ decoded, ∃ key, DecodedFits serde.toLibrary key d := by
    intro d hd
    obtain ⟨m, -, hm⟩ := exists_mem_of_forall₂ hmems hd
    obtain ⟨value, -, hvalue⟩ := bind_ok hm
    exact ⟨m.key, Checked.of_wp decodeRecord_fits hvalue⟩
  have hbound : decoded.length ≤ 100000 := htaken.bounded
  have hmapped : (mappedAssociations (decoded.map Prod.fst)).length < 256 ^ 8 := by
    rw [mappedAssociations, length_flatMap, map_map]
    have hle := sum_le_card_nsmul (decoded.map fun d => d.1.software.length) 4096 (by
      rintro _ hlength
      obtain ⟨d, hd, rfl⟩ := mem_map.mp hlength
      obtain ⟨_, hd⟩ := hfits d hd
      exact hd.software.1)
    rw [length_map, smul_eq_mul] at hle
    exact lt_of_le_of_lt hle (by omega)
  have hperm := importedRecords_perm (decoded.map Prod.fst)
  rw [← hrecs] at hperm
  refine ⟨⟨?_, fun r hr => ?_⟩, fun n hn => ?_, hcounts, _, hdigest⟩
  · rw [hperm.length_eq, length_map, length_map]
    omega
  · obtain ⟨_, hrec, rfl⟩ := mem_map.mp (hperm.mem_iff.mp hr)
    obtain ⟨d, hd, rfl⟩ := mem_map.mp hrec
    obtain ⟨_, hd⟩ := hfits d hd
    exact (RecordFits.of_decoded hsha hmapped hd).1
  · rw [hnot] at hn
    obtain ⟨⟨id, n⟩, hent, rfl⟩ := mem_map.mp hn
    obtain ⟨-, hmem⟩ := (htaken.notices id n).mp (mem_toList.mp hent)
    obtain ⟨d, hd, hn⟩ := mem_flatMap.mp hmem
    obtain ⟨_, hd⟩ := hfits d hd
    exact ⟨(RecordFits.of_decoded hsha hmapped hd).2 n hn, (hd.notices.2 n hn).texts⟩

/-- Records without mapped or unresolved sources. -/
theorem plain_of_countsOf {records : List WordfenceV3Record}
    (h : (countsOf records).requiresSourceIdentityMapping = false) : ∀ r ∈ records, Plain r := by
  simp only [WordfenceV3IdentityCounts.requiresSourceIdentityMapping, Bool.or_eq_false_iff,
    decide_eq_false_iff_not, ne_eq, not_not] at h
  obtain ⟨⟨hcand, hamb⟩, hunres⟩ := h
  intro r hr
  refine ⟨fun a ha => ?_, ?_⟩
  · have hmem : a ∈ mappedAssociations records := mem_flatMap.mpr ⟨r, hr, ha⟩
    have hcand := countP_eq_zero.mp hcand a hmem
    have hamb := countP_eq_zero.mp hamb a hmem
    cases hmapp : a.identityMapping <;> simp_all
  · exact length_eq_zero_iff.mp (sum_eq_zero_iff.mp hunres _ (mem_map_of_mem hr))

theorem records_and_notices {S : WordfenceV3Record → Prop} {hash : WordfenceV3Record → Bytes}
    (hread : ReadsBack S hash) {feed' : WordfenceV3ProductionImport}
    (hsha : ∀ bytes, (serde.sha256 bytes).length ≤ 32) {memory' : Memory} {reader' : Reader}
    (h : parseWordfenceV3Production serde memory reader = .ok feed)
    (h' : parseWordfenceV3Production serde memory' reader' = .ok feed')
    (hS : ∀ r ∈ feed.records, S r) (hS' : ∀ r ∈ feed'.records, S r)
    (heq : frameUsize feed.records.length ++ (feed.records.flatMap hash ++ hashNotices feed.notices) =
      frameUsize feed'.records.length ++ (feed'.records.flatMap hash ++ hashNotices feed'.notices)) :
    feed.records = feed'.records ∧ feed.notices = feed'.notices := by
  obtain ⟨hrecs, hnots, -⟩ := feed_fits hsha h
  obtain ⟨hrecs', hnots', -⟩ := feed_fits hsha h'
  obtain ⟨hlength, hrest⟩ := readsBack_beBytes 8 hrecs.1 hrecs'.1 heq
  obtain ⟨hsame, htail⟩ := hread.flatMap hS hS' hlength hrest
  refine ⟨hsame, readsBack_hashNotice.flatMap_injective (fun n hn => ?_) hnots hnots'
    (append_inj_right htail (by simp [frameUsize]))⟩
  have hnil := congrArg length hn
  simp [hashNotice, frameText, frame] at hnil

theorem mappingRevision_short (counts : WordfenceV3IdentityCounts) : Short (mappingRevision counts) := by
  unfold mappingRevision Short
  split_ifs <;> decide

/-- **The semantic digest stands for the feed.** What is hashed for two accepted
feeds is equal only if they have the same records and notices, in whatever
version; and what is hashed for a source association has all of its contents. -/
theorem semanticPreimage_injective {memory' : Memory} {reader' : Reader}
    {feed' : WordfenceV3ProductionImport} (hsha : ∀ bytes, (serde.sha256 bytes).length ≤ 32)
    (h : parseWordfenceV3Production serde memory reader = .ok feed)
    (h' : parseWordfenceV3Production serde memory' reader' = .ok feed') :
    (∃ expanded, feed.semanticSha256 =
      serde.sha256 (semanticPreimage feed.records feed.notices feed.identityCounts expanded)) ∧
    (∀ expanded expanded', semanticPreimage feed.records feed.notices feed.identityCounts expanded =
        semanticPreimage feed'.records feed'.notices feed'.identityCounts expanded' →
      feed.records = feed'.records ∧ feed.notices = feed'.notices) ∧
    ∀ {upstreamId upstreamId' : String} {wire wire' : SoftwareWire}
      {decoded decoded' : DecodedSoftwareAssociation},
      decodeSoftware serde.toLibrary upstreamId wire = .ok decoded →
      decodeSoftware serde.toLibrary upstreamId' wire' = .ok decoded' →
      decoded.source.sourceAssociationSha256 = serde.sha256 (contentsOf decoded.source).preimage ∧
        ((contentsOf decoded.source).preimage = (contentsOf decoded'.source).preimage →
          contentsOf decoded.source = contentsOf decoded'.source) := by
  obtain ⟨hrecs, -, hcounts, hdigest⟩ := feed_fits hsha h
  obtain ⟨hrecs', -, hcounts', -⟩ := feed_fits hsha h'
  refine ⟨hdigest, fun expanded expanded' heq => ?_, fun hdec hdec' => ?_⟩
  · have hdomain : ∀ r r' : Bytes, utf8Bytes "termivar.wordfence-v3-production.semantic/v1\x00" ++ r ≠
        utf8Bytes "termivar.wordfence-v3-production.semantic/v2\x00" ++ r' := fun r r' hsame =>
      absurd (utf8Bytes_injective (List.append_inj_left hsame (by decide))) (by decide)
    unfold semanticPreimage semanticPreimageV1 at heq
    split_ifs at heq with hv hv' hv'
    · simp only [Bool.and_eq_true, Bool.not_eq_true'] at hv hv'
      simp only [List.append_assoc, List.append_cancel_left_eq] at heq
      exact records_and_notices readsBack_hashRecordV1 hsha h h'
        (fun r hr => ⟨hrecs.2 r hr, plain_of_countsOf (hcounts ▸ hv.1) r hr⟩)
        (fun r hr => ⟨hrecs'.2 r hr, plain_of_countsOf (hcounts' ▸ hv'.1) r hr⟩) heq
    · simp only [List.append_assoc] at heq
      exact absurd heq (hdomain _ _)
    · simp only [List.append_assoc] at heq
      exact absurd heq.symm (hdomain _ _)
    · simp only [List.append_assoc, List.append_cancel_left_eq] at heq
      have htail := (readsBack_frameText (mappingRevision_short _) (mappingRevision_short _) heq).2
      simp only [List.append_cancel_left_eq] at htail
      exact records_and_notices readsBack_hashRecordV2 hsha h h' hrecs.2 hrecs'.2
        (List.append_inj_right htail (by simp [frameUsize]))
  · obtain ⟨hbel, -⟩ := Checked.of_wp decodeSoftware_fits hdec
    obtain ⟨hbel', -⟩ := Checked.of_wp decodeSoftware_fits hdec'
    refine ⟨hbel.digest, fun heq => ?_⟩
    simp only [Contents.preimage, sourceAssociationPreimage, List.append_assoc,
      List.append_cancel_left_eq] at heq
    refine (Contents.readsBack_bytes hbel.fits hbel'.fits (?_ : _ ++ [] = _ ++ [])).1
    simpa only [Contents.bytes, List.append_assoc, List.append_nil] using heq

theorem semanticPreimage_injective_sample : ∃ feed,
    parseWordfenceV3Production tenthsSerde exactMemory (sampleFeed "null") = .ok feed ∧
      ∃ expanded, feed.semanticSha256 = tenthsSerde.sha256
        (semanticPreimage feed.records feed.notices feed.identityCounts expanded) := by
  obtain ⟨feed, hfeed⟩ := parse_sampleFeed
  exact ⟨feed, hfeed, (semanticPreimage_injective (fun _ => List.length_take_le _ _) hfeed hfeed).1⟩

end Termivar.Wordfence
