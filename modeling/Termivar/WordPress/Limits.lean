/-
# The limits of an accepted record

Every text and list of a decoded record is within the limits of the decoder
(`decodeRecord_fits`), its associations carry the digest of what the source
says of them (`Belongs`), and what is mapped is as decoding makes it.
-/
import Termivar.Hex
import Termivar.WordPress.Root

namespace Termivar.Wordfence

open Checked List

def Short (text : String) : Prop := text.utf8ByteSize ≤ 4096

def ShortList {α : Type} (S : α → Prop) (values : List α) : Prop :=
  values.length ≤ 4096 ∧ ∀ a ∈ values, S a

/-- A declared bound is never the text of the wildcard. -/
def ValueFits : WordfenceV3RangeValue → Prop
  | .any => True
  | .declared value => Short value ∧ value ≠ "*"

def RangeFits (range : WordfenceV3AffectedRange) : Prop :=
  Short range.label ∧ ValueFits range.lower.value ∧ ValueFits range.upper.value

def CweFits (cwe : WordfenceV3Cwe) : Prop := cwe.id < 256 ^ 4 ∧ Short cwe.name ∧ Short cwe.description

def CvssFits (cvss : WordfenceV3Cvss) : Prop := Short cvss.vector ∧ Short cvss.score

/-- All but the ids and the associations. -/
def CommonFits (record : WordfenceV3Record) : Prop :=
  Short record.title ∧ Short record.description ∧ ShortList Short record.references ∧
    (∀ cwe ∈ record.cwe, CweFits cwe) ∧ (∀ cvss ∈ record.cvss, CvssFits cvss) ∧
    (∀ cve ∈ record.cve, Short cve) ∧ (∀ link ∈ record.cveLink, Short link) ∧
    ShortList Short record.researchers ∧ (∀ time ∈ record.published, Short time) ∧
    ∀ time ∈ record.updated, Short time

/-- What is hashed of an association in every place. -/
structure Contents where
  source : WordfenceV3SourceComponentIdentity
  displayName : String
  affectedRanges : List WordfenceV3AffectedRange
  patched : Bool
  patchedVersions : List String
  remediation : String

def Contents.preimage (contents : Contents) : Bytes :=
  sourceAssociationPreimage contents.source contents.displayName contents.affectedRanges
    contents.patched contents.patchedVersions contents.remediation

structure Contents.Fits (contents : Contents) : Prop where
  slug : Short contents.source.slug
  displayName : Short contents.displayName
  affectedRanges : ShortList RangeFits contents.affectedRanges
  patchedVersions : ShortList Short contents.patchedVersions
  remediation : Short contents.remediation

/-- The contents of an association that is not mapped. -/
def contentsOf (source : WordfenceV3UnresolvedSoftwareAssociation) : Contents :=
  ⟨source.sourceComponent, source.displayName, source.affectedRanges, source.patched,
    source.patchedVersions, source.remediation⟩

/-- An association without its mapping. -/
def sourceOf (association : WordfenceV3SoftwareAssociation) : WordfenceV3UnresolvedSoftwareAssociation :=
  ⟨association.key.upstreamId, association.sourceComponent, association.key.sourceAssociationSha256,
    association.displayName, association.affectedRanges, association.patched,
    association.patchedVersions, association.remediation⟩

def DecodedSoftwareAssociation.source :
    DecodedSoftwareAssociation → WordfenceV3UnresolvedSoftwareAssociation
  | .mapped association => sourceOf association
  | .unresolved source => source

section

variable {F : Type} (lib : Library F) (mapId : String)

/-- An association of the record, with the digest of its contents. -/
structure Belongs (source : WordfenceV3UnresolvedSoftwareAssociation) : Prop where
  upstreamId : source.upstreamId = mapId
  digest : source.sourceAssociationSha256 = lib.sha256 (contentsOf source).preimage
  fits : (contentsOf source).Fits

/-- All but the id, which has a digest in it. -/
structure NoticeFits (notice : WordfenceV3Notice) : Prop where
  id : ∃ bytes, notice.id = "wordfence-notice-sha256:" ++ hex (lib.sha256 bytes)
  texts : Short notice.message ∧ Short notice.party ∧ Short notice.notice ∧ Short notice.license ∧
    Short notice.licenseUrl

/-- What holds of a decoded record and its notices. -/
structure DecodedFits (decoded : WordfenceV3Record × List WordfenceV3Notice) : Prop where
  valid : validateUuid mapId = .ok ()
  upstreamId : decoded.1.upstreamId = mapId
  common : CommonFits decoded.1
  noticeIds : decoded.1.noticeIds = sortBy compare (decoded.2.map WordfenceV3Notice.id)
  notices : ShortList (NoticeFits lib) decoded.2
  software : ShortList (fun a => Decoded a ∧ Belongs lib mapId (sourceOf a)) decoded.1.software
  unresolvedSoftware : ShortList (Belongs lib mapId) decoded.1.unresolvedSoftware

end

variable {F : Type} {lib : Library F} {text mapId : String} {texts : List String}

/-- If the check passes, its value has the property. -/
abbrev Gives {α : Type} (x : Except WordfenceV3ProductionError α) (P : α → Prop) : Prop :=
  wp x P fun _ => True

/-! ### Texts -/

theorem gives_short {accepted : Bool} (h : accepted = true → (utf8Bytes text).length ≤ 4096) :
    Gives (unsupportedUnless accepted) fun _ => Short text := by
  cases accepted with
  | false => trivial
  | true => exact h rfl

theorem validateText_short {maximum : Nat} (allowEmpty : Bool) (hmax : maximum ≤ 4096) :
    Gives (validateText text maximum allowEmpty) fun _ => Short text :=
  gives_short fun h => show text.utf8ByteSize ≤ 4096 by
    simp at h
    omega

theorem validateIdentifier_short : Gives (validateIdentifier text 128) fun _ => Short text :=
  gives_short fun h => show text.utf8ByteSize ≤ 4096 by
    simp at h
    omega

theorem validateVersion_short : Gives (validateVersion text) fun _ => Short text :=
  gives_short fun h => show text.utf8ByteSize ≤ 4096 by
    simp at h
    omega

theorem validateSourceSlug_short : Gives (validateSourceSlug text) fun _ => Short text :=
  gives_short fun h => by
    simp at h
    omega

theorem validateUuid_short : Gives (validateUuid text) fun _ => Short text :=
  gives_short fun h => by
    simp at h
    omega

theorem validateCve_short : Gives (validateCve text) fun _ => Short text :=
  gives_short fun h => by
    simp at h
    omega

theorem validateTimestamp_short : Gives (validateTimestamp text) fun _ => Short text :=
  gives_short fun h => by
    simp at h
    omega

theorem validateHttpReference_short : Gives (validateHttpReference lib text) fun _ => Short text := by
  unfold validateHttpReference Gives
  rw [wp_bind]
  exact wp_imp (validateText_short _ (by decide)) fun _ h =>
    wp_of_forall (fun _ => h) fun _ => trivial

theorem validateDistinct_short {maximum : Nat} (hmax : maximum ≤ 4096)
    {validate : String → Except WordfenceV3ProductionError Unit} : ∀ {texts seen : List String},
    Gives (validateDistinct maximum validate seen texts) fun _ => ∀ text ∈ texts, Short text
  | [], _ => by simp [Gives, validateDistinct]
  | text :: texts, seen => by
    simp only [Gives, validateDistinct, wp_rules]
    refine ⟨fun _ => trivial, fun hsm => wp_of_forall (fun _ => ⟨fun _ => trivial, fun _ =>
      wp_imp (validateDistinct_short hmax) fun _ h => ?_⟩) fun _ => trivial⟩
    exact forall_mem_cons.mpr ⟨(not_lt.mp hsm).trans hmax, h⟩

theorem validateStringSequence_short {maximum : Nat} (hmax : maximum ≤ 4096)
    {validate : String → Except WordfenceV3ProductionError Unit} :
    Gives (validateStringSequence texts 64 maximum validate) fun _ => ShortList Short texts := by
  simp only [Gives, validateStringSequence, wp_rules]
  refine ⟨fun _ => trivial, fun hfew => wp_imp (wp_each (P := Short) fun text _ => ?_)
    fun _ h => ⟨by omega, h⟩⟩
  simp only [wp_rules]
  exact ⟨fun _ => trivial, fun hsm => wp_of_forall (fun _ => (not_lt.mp hsm).trans hmax)
    fun _ => trivial⟩

/-! ### Lists and options -/

theorem ShortList.sortBy {α : Type} {S : α → Prop} {as : List α} (cmp : α → α → Ordering)
    (h : ShortList S as) : ShortList S (sortBy cmp as) :=
  ⟨by simpa [Wordfence.sortBy] using h.1, fun a ha => h.2 a (mem_mergeSort.mp ha)⟩

theorem mapM_gives {α β : Type} {f : β → Except WordfenceV3ProductionError α} {P : α → Prop}
    (h : ∀ b, Gives (f b) P) {bs : List β} (hfew : bs.length ≤ 4096) :
    Gives (bs.mapM f) (ShortList P) := by
  cases hmap : bs.mapM f with
  | error e => trivial
  | ok as =>
    have hall := mapM_eq_ok_iff.mp hmap
    refine ⟨hall.length_eq ▸ hfew, fun a ha => ?_⟩
    obtain ⟨b, -, hb⟩ := exists_mem_of_forall₂ hall ha
    exact of_wp (h b) hb

theorem optionMapM_gives {α β : Type} {f : β → Except WordfenceV3ProductionError α} {P : α → Prop}
    {o : Option β} (h : ∀ b ∈ o, Gives (f b) P) : Gives (o.mapM f) fun o' => ∀ a ∈ o', P a := by
  cases o with
  | none => rintro _ ⟨⟩
  | some b =>
    show wp (f b >>= fun a => pure (some a)) _ _
    rw [wp_bind]
    refine wp_imp (h b rfl) fun a ha => ?_
    rintro _ ⟨⟩
    exact ha

theorem decodeNullable_gives {α : Type} {read : Value F → Option α} {P : α → Prop} {value : Value F}
    (h : ∀ a, read value = some a → P a) : Gives (decodeNullable read value) fun o => ∀ a ∈ o, P a := by
  have hrest : Gives ((okOr (read value) .unsupportedValue).map some) fun o => ∀ a ∈ o, P a := by
    cases hread : read value with
    | none => trivial
    | some a =>
      rintro _ ⟨⟩
      exact h a hread
  cases value with
  | null => rintro _ ⟨⟩
  | _ => exact hrest

theorem decodeNullableText_short {validate : String → Except WordfenceV3ProductionError Unit}
    (h : ∀ text, Gives (validate text) fun _ => Short text) {value : Value F} :
    Gives (decodeNullableText validate value) fun o => ∀ text ∈ o, Short text := by
  unfold decodeNullableText Gives
  rw [wp_bind]
  refine wp_of_forall (fun o => ?_) fun _ => trivial
  cases o with
  | none => rintro _ ⟨⟩
  | some text =>
    simp only [wp_rules]
    refine wp_imp (h text) fun _ hsh => ?_
    rintro _ ⟨⟩
    exact hsh

/-! ### The parts of a record -/

theorem CweWire.read_id {value : Value F} {wire : CweWire} (h : CweWire.read value = some wire) :
    wire.id < 256 ^ 4 := by
  simp only [CweWire.read, Option.bind_eq_bind, Option.bind_eq_some_iff] at h
  obtain ⟨_, -, h⟩ := h
  split at h
  · simp only [Option.bind_eq_some_iff, Value.asU32] at h
    obtain ⟨id, hid, _, -, _, -, ⟨⟩⟩ := h
    split at hid
    · split_ifs at hid with hmax
      cases hid
      unfold u32Max at hmax
      simp only
      omega
    · cases hid
  · cases h

theorem validateCwe_fits {wire : CweWire} (h : wire.id < 256 ^ 4) : Gives (validateCwe wire) CweFits := by
  simp only [Gives, validateCwe, wp_rules]
  exact ⟨fun _ => trivial, fun _ => wp_imp (validateText_short _ (by decide)) fun _ hname =>
    wp_imp (validateText_short _ (by decide)) fun _ hdesc => ⟨h, hname, hdesc⟩⟩

theorem le_foldl_digits : ∀ {digits : Bytes} {value : Nat}, 0 < value →
    value + digits.length ≤ digits.foldl (fun value digit => value * 10 + (digit.toNat - 48)) value
  | [], _, _ => le_rfl
  | digit :: digits, value, h => by
    have hrest := @le_foldl_digits digits (value * 10 + (digit.toNat - 48)) (by omega)
    simp only [foldl_cons, length_cons]
    omega

/-- Digits without a zero in front are no more than their number. -/
theorem length_le_digitsValue : ∀ {integer : Bytes}, (Json.digits1 integer &&
    !(1 < integer.length && integer.head? = some 48)) = true →
      integer.length ≤ Json.digitsValue integer + 1
  | [], _ => by simp
  | [_], _ => by simp
  | digit :: next :: digits, h => by
    simp only [Json.digits1, Json.isDigit, all_cons, Bool.and_eq_true, decide_eq_true_eq,
      UInt8.le_iff_toNat_le] at h
    have hne : digit.toNat ≠ 48 := by
      intro heq
      have hzero : digit = 48 := UInt8.toNat_inj.mp heq
      simp [hzero] at h
    have hge : 48 ≤ digit.toNat := h.1.2.1.1
    have hle := @le_foldl_digits (next :: digits) (0 * 10 + (digit.toNat - 48)) (by omega)
    simp only [Json.digitsValue, foldl_cons, length_cons] at hle ⊢
    omega

theorem validScore_short (h : validScore text = true) : (utf8Bytes text).length ≤ 4096 := by
  have hjoin := congrArg length (intercalate_splitOn (46 : UInt8) : _ = utf8Bytes text)
  unfold validScore at h
  split at h
  · rename_i integer heq
    rw [Bool.and_eq_true, decide_eq_true_eq] at h
    have hle := length_le_digitsValue h.1
    simp [heq] at hjoin
    omega
  · rename_i integer fraction heq
    have hint := (Bool.and_eq_true_iff.mp (Bool.and_eq_true_iff.mp (Bool.and_eq_true_iff.mp h).1).1).1
    have hle := length_le_digitsValue hint
    simp at h
    simp [heq, intercalate] at hjoin
    omega
  · cases h

theorem validateCvss_fits {wire : CvssWire F} : Gives (validateCvss lib wire) CvssFits := by
  simp only [Gives, validateCvss, wp_rules]
  exact wp_imp (validateText_short _ (by decide)) fun _ hvec =>
    wp_of_forall (fun _ => wp_imp (gives_short validScore_short) fun _ hscore =>
      ⟨fun _ _ => ⟨hvec, hscore⟩, fun _ => trivial⟩) fun _ => trivial

theorem decodeParty_fits {message : String} (hmess : Short message) {member : String × Value F} :
    Gives (decodeParty lib message member) (NoticeFits lib) := by
  simp only [Gives, decodeParty, wp_rules]
  exact wp_imp validateIdentifier_short fun _ hparty => ⟨fun wire _ =>
    wp_imp (validateText_short _ (by decide)) fun _ hnot =>
    wp_imp (validateText_short _ (by decide)) fun _ hlic =>
    wp_imp validateHttpReference_short fun _ hurl =>
      ⟨⟨_, rfl⟩, hmess, hparty, hnot, hlic, hurl⟩, fun _ => trivial⟩

theorem decodeNotices_fits {value : Value F} :
    Gives (decodeNotices lib value) (ShortList (NoticeFits lib)) := by
  unfold decodeNotices
  split
  · exact ⟨by decide, by simp⟩
  · simp only [Gives, wp_rules]
    refine ⟨fun message _ => wp_imp (validateText_short _ (by decide)) fun _ hmess =>
      ⟨fun _ => trivial, fun hfew => wp_imp (mapM_gives (fun _ => decodeParty_fits hmess) ?_)
        fun _ h => h.sortBy _⟩, fun _ => trivial⟩
    omega
  · trivial

theorem decodeRangeValue_fits : Gives (decodeRangeValue text) ValueFits := by
  simp only [decodeRangeValue, wp_rules]
  exact ⟨fun _ => trivial, fun hstar => wp_imp validateVersion_short fun _ h => ⟨h, hstar⟩⟩

theorem decodeRange_fits {wire : AffectedRangeWire} : Gives (decodeRange text wire) RangeFits := by
  simp only [decodeRange, wp_rules]
  exact wp_imp (validateText_short _ (by decide)) fun _ hlabel =>
    wp_imp decodeRangeValue_fits fun _ hlow =>
      wp_imp decodeRangeValue_fits fun _ hup => ⟨hlabel, hlow, hup⟩

theorem decodeSoftware_fits {wire : SoftwareWire} : Gives (decodeSoftware lib mapId wire)
    fun decoded => Belongs lib mapId decoded.source ∧ ∀ a ∈ mappedOf decoded, Decoded a := by
  simp only [Gives, decodeSoftware, wp_rules]
  refine ⟨fun kind _ => wp_imp (validateText_short _ (by decide)) fun _ hname =>
    wp_imp validateSourceSlug_short fun _ hslug => ⟨fun _ => trivial, fun hfew =>
    wp_imp (mapM_gives (fun _ => decodeRange_fits) (by omega)) fun ranges hranges =>
    wp_imp (wp_each fun _ _ => validateVersion_short) fun _ hvers =>
    ⟨fun _ => trivial, fun _ => wp_imp (validateText_short _ (by decide)) fun _ hrem => ?_⟩⟩,
    fun _ => trivial⟩
  have hversions : ShortList Short wire.patchedVersions := ⟨by omega, hvers⟩
  split
  · rename_i hmapp
    refine ⟨⟨rfl, rfl, hslug, hname, hranges.sortBy _, hversions.sortBy _, hrem⟩, ?_⟩
    rintro _ ⟨⟩
    exact ⟨hmapp, rfl⟩
  · exact ⟨⟨rfl, rfl, hslug, hname, hranges.sortBy _, hversions.sortBy _, hrem⟩, by rintro _ ⟨⟩⟩

theorem decodeAssociations_fits {wires : List SoftwareWire} (hfew : wires.length ≤ 4096) :
    Gives (decodeAssociations lib mapId wires) fun parts =>
      ShortList (fun a => Decoded a ∧ Belongs lib mapId (sourceOf a)) parts.1 ∧
        ShortList (Belongs lib mapId) parts.2 := by
  simp only [Gives, decodeAssociations, wp_rules]
  refine wp_imp (mapM_gives (fun _ => decodeSoftware_fits) hfew) fun decoded h =>
    ⟨fun _ => trivial, fun _ => ⟨fun _ => trivial, fun _ => ⟨.sortBy _ ⟨?_, fun a ha => ?_⟩,
      .sortBy _ ⟨?_, fun u hu => ?_⟩⟩⟩⟩
  · exact (length_filterMap_le _ _).trans h.1
  · obtain ⟨d, hd, hmapped⟩ := mem_filterMap.mp ha
    obtain ⟨hbel, hdec⟩ := h.2 d hd
    cases d <;> cases hmapped
    exact ⟨hdec _ rfl, hbel⟩
  · exact (length_filterMap_le _ _).trans h.1
  · obtain ⟨d, hd, hunres⟩ := mem_filterMap.mp hu
    obtain ⟨hbel, -⟩ := h.2 d hd
    cases d <;> cases hunres
    exact hbel

/-! ### Records -/

theorem validateRecord_fits {wire : ProductionRecordWire F} : Gives (validateRecord lib mapId wire)
    fun _ => validateUuid mapId = .ok () ∧ wire.software.length ≤ 4096 ∧
      ShortList Short wire.researchers ∧ Short wire.title ∧ Short wire.description ∧
        ShortList Short wire.references := by
  simp only [validateRecord, validateStringSet, wp_rules]
  have huuid : Gives (validateUuid wire.id) fun _ => validateUuid wire.id = .ok () := by
    cases hid : validateUuid wire.id with
    | error e => trivial
    | ok _ => rfl
  refine wp_imp huuid fun _ hid => ⟨fun _ => trivial, fun hsame =>
    wp_imp (validateText_short _ (by decide)) fun _ htitle =>
    wp_imp (validateText_short _ (by decide)) fun _ hdesc => ⟨fun _ => trivial, fun hfew =>
    ⟨fun _ => trivial, fun hrefs => wp_imp (validateDistinct_short (by decide)) fun _ hshort =>
    wp_imp (validateStringSequence_short (by decide)) fun _ hres =>
      ⟨?_, by omega, hres, htitle, hdesc, by omega, hshort⟩⟩⟩⟩
  rwa [← not_not.mp hsame]

/-- **A decoded record is within the limits.** -/
theorem decodeRecord_fits {value : Value F} :
    Gives (decodeRecord lib mapId value) (DecodedFits lib mapId) := by
  simp only [Gives, decodeRecord, wp_rules]
  exact ⟨fun wire _ => wp_imp validateRecord_fits fun _ hrec =>
    wp_imp (decodeNullable_gives fun _ => CweWire.read_id) fun _ hid =>
    wp_imp (optionMapM_gives fun _ h => validateCwe_fits (hid _ h)) fun _ hcwe =>
    wp_of_forall (fun _ =>
    wp_imp (optionMapM_gives fun _ _ => validateCvss_fits) fun _ hcvss =>
    wp_imp (decodeNullableText_short fun _ => validateCve_short) fun _ hcve =>
    wp_imp (decodeNullableText_short fun _ => validateHttpReference_short) fun _ hlink =>
    ⟨fun _ => trivial, fun _ =>
    wp_imp (decodeNullableText_short fun _ => validateTimestamp_short) fun _ hpub =>
    wp_imp (decodeNullableText_short fun _ => validateTimestamp_short) fun _ hupd =>
    wp_imp (decodeAssociations_fits hrec.2.1) fun _ hassoc =>
    wp_imp decodeNotices_fits fun _ hnots => ⟨fun _ => trivial, fun _ =>
      ⟨hrec.1, rfl, ⟨hrec.2.2.2.1, hrec.2.2.2.2.1, hrec.2.2.2.2.2.sortBy _, hcwe, hcvss, hcve, hlink,
        hrec.2.2.1.sortBy _, hpub, hupd⟩, rfl, hnots, hassoc.1, hassoc.2⟩⟩⟩) fun _ => trivial,
    fun _ => trivial⟩

end Termivar.Wordfence
