/-
# The digest of a catalog

`termivar-artifact/src/catalog.rs`: a manifest is checked signature by
signature and its signatures are sorted; `digest_catalog` writes the packs under
a hash, every text behind its length and every list behind its count. What is
written says which packs there are, and nothing of the order they were
registered or listed in (`catalogPreimage_eq_iff`).

The manifest is taken as TOML gives it, and the hash is a parameter.
-/
import Termivar.Framing
import Termivar.Sorting
import Termivar.Artifact.Builder
import Termivar.Artifact.Canonical

namespace Termivar

open Checked List

def maxSignaturesPerPack : Nat := 1024
def maxPackTitleBytes : Nat := 96
def maxPackSummaryBytes : Nat := 512
def maxLabelBytes : Nat := 96
def maxDescriptionBytes : Nat := 512
def maxTagsPerSignature : Nat := 16
def maxTagBytes : Nat := 32

def artifactSignatureSchema : String := "venom.artifact-signatures/v1"

/-! ### Reading a pack -/

structure RawSignature where
  id : ArtifactSignatureId
  revision : ArtifactRevision
  label : String
  observationClass : ArtifactObservationClass
  pattern : String
  tags : List String
  description : Option String

structure RawSignaturePack where
  schema : String
  packId : ArtifactPackId
  packRevision : ArtifactRevision
  (title summary : String)
  signatures : List RawSignature

def validateText (value field : String) (limit : Nat) : Except ArtifactError Unit :=
  if value = "" ∨ value.utf8ByteSize > limit ∨ hasOuterWhitespace value ∨ value.toList.any isControl then
    .error (.invalidText field)
  else .ok ()

def validateDescription : Option String → Except ArtifactError Unit
  | some description => validateText description "signature description" maxDescriptionBytes
  | none => .ok ()

def validateTag (value : String) : Except ArtifactError Unit :=
  if value = "" ∨ value.utf8ByteSize > maxTagBytes ∨ hasOuterWhitespace value ∨
      !value.toList.all isIdChar then
    .error (.invalidText "signature tag")
  else .ok ()

def insertTag (tags : BTreeSet String) (tag : String) : Except ArtifactError (BTreeSet String) := do
  validateTag tag
  return tags.insert tag

/-- The signatures read so far, with their identities and patterns. -/
structure PackProgress where
  identities : BTreeMap ArtifactSignatureId ArtifactRevision := ∅
  patterns : BTreeSet String := ∅
  signatures : List ArtifactSignatureDefinition := []
  known : ∀ signature ∈ signatures, identities[signature.id]? ≠ none := by simp
  distinct : (signatures.map (·.id)).Nodup := by simp

def pushSignature (progress : PackProgress) (raw : RawSignature) :
    Except ArtifactError PackProgress := do
  validateText raw.label "signature label" maxLabelBytes
  validateDescription raw.description
  if raw.tags.length > maxTagsPerSignature then
    throw (.limitExceeded "tags per signature" maxTagsPerSignature)
  let tags ← raw.tags.foldlM insertTag ∅
  if tags.size > maxTagsPerSignature then
    throw (.limitExceeded "tags per signature" maxTagsPerSignature)
  match h : progress.identities[raw.id]? with
  | some previous =>
    throw (if previous = raw.revision then .duplicateSignature else .conflictingSignatureRevision)
  | none =>
    let pattern ← ArtifactPattern.parse raw.pattern
    if progress.patterns.contains pattern.canonical then throw .duplicateSemanticPattern
    return {
      identities := progress.identities.insert raw.id raw.revision
      patterns := progress.patterns.insert pattern.canonical
      signatures := progress.signatures ++ [{ raw with pattern, tags }]
      known := by
        intro signature hmem
        rw [get_insert]
        split_ifs
        · simp
        · rcases mem_append.mp hmem with hmem | hmem
          · exact progress.known signature hmem
          · simp_all
      distinct := by
        rw [map_append]
        refine nodup_append.mpr ⟨progress.distinct, by simp, fun id hid other hother => ?_⟩
        obtain ⟨signature, hmem, rfl⟩ := mem_map.mp hid
        rintro rfl
        refine progress.known signature hmem ?_
        rw [← h]
        simp_all }

/-- `sort_by`: the order of the signatures of a pack. -/
def compareSignatures : ArtifactSignatureDefinition → ArtifactSignatureDefinition → Ordering :=
  compareLex (compareOn (·.id.value)) (compareOn (·.revision.value))

instance : Std.TransCmp compareSignatures :=
  inferInstanceAs (Std.TransCmp (compareLex (compareOn fun s : ArtifactSignatureDefinition => s.id.value)
    (compareOn fun s : ArtifactSignatureDefinition => s.revision.value)))

/-- `parse_pack_source`, behind TOML. -/
def parsePackSource (raw : RawSignaturePack) : Except ArtifactError ArtifactSignaturePack := do
  if raw.schema ≠ artifactSignatureSchema then throw .unsupportedSchema
  validateText raw.title "pack title" maxPackTitleBytes
  validateText raw.summary "pack summary" maxPackSummaryBytes
  if raw.signatures = [] ∨ raw.signatures.length > maxSignaturesPerPack then
    throw (.limitExceeded "signatures per pack" maxSignaturesPerPack)
  let progress ← raw.signatures.foldlM pushSignature {}
  return {
    id := raw.packId
    revision := raw.packRevision
    title := raw.title
    summary := raw.summary
    signatures := progress.signatures.mergeSort fun a b => (compareSignatures a b).isLE
    distinct := ((mergeSort_perm _ _).map _).nodup_iff.mpr progress.distinct }

/-! ### The digest -/

def ArtifactObservationClass.asStr : ArtifactObservationClass → String
  | .fileFormatMarker => "file-format-marker"
  | .embeddedFormatMarker => "embedded-format-marker"
  | .userDefinedMarker => "user-defined-marker"
  | .testCanary => "test-canary"
  | .suspiciousSequence => "suspicious-sequence"

namespace ArtifactCatalogBuilder

def hashU64 (value : Nat) : Bytes := beBytes 8 value

def hashField (text : String) : Bytes := frame 8 (utf8Bytes text)

/-- What one signature puts under the hash. -/
def hashSignature (signature : ArtifactSignatureDefinition) : Bytes :=
  hashField signature.id.value ++ hashU64 signature.revision.value ++ hashField signature.label ++
    hashField signature.observationClass.asStr ++ hashField signature.pattern.canonical ++
    hashU64 signature.tags.size ++ signature.tags.toList.flatMap hashField ++
    match signature.description with
    | some description => hashField "some" ++ hashField description
    | none => hashField "none"

/-- What one pack puts under the hash. -/
def hashPack (pack : ArtifactSignaturePack) : Bytes :=
  hashField pack.id.value ++ hashU64 pack.revision.value ++ hashField pack.title ++
    hashField pack.summary ++ hashU64 pack.signatures.length ++ pack.signatures.flatMap hashSignature

/-- The bytes of `digest_catalog` under the hash. -/
def catalogPreimage (packs : BTreeMap ArtifactPackId ArtifactSignaturePack) : Bytes :=
  hashField "venom:artifact-catalog:v1" ++ hashU64 packs.size ++
    (packs.toList.map Prod.snd).flatMap hashPack

def digestCatalog (sha256 : Bytes → Bytes) (packs : BTreeMap ArtifactPackId ArtifactSignaturePack) :
    String :=
  "artifact-catalog-sha256:" ++ hex (sha256 (catalogPreimage packs))

end ArtifactCatalogBuilder

/-! ### What a pack says -/

/-- A signature in all its fields, the pattern by its canonical text. -/
structure SignatureContent where
  id : ArtifactSignatureId
  revision : ArtifactRevision
  label : String
  observationClass : ArtifactObservationClass
  canonical : Option String
  tags : Set String
  description : Option String

/-- A pack in all its fields. -/
structure PackContent where
  id : ArtifactPackId
  revision : ArtifactRevision
  (title summary : String)
  signatures : Set SignatureContent

def RawSignature.content (raw : RawSignature) : SignatureContent :=
  { raw with
    canonical := (ArtifactPattern.parse raw.pattern).toOption.map ArtifactPattern.canonical
    tags := { tag | tag ∈ raw.tags } }

def ArtifactSignatureDefinition.content (signature : ArtifactSignatureDefinition) : SignatureContent :=
  { signature with
    canonical := some signature.pattern.canonical
    tags := { tag | tag ∈ signature.tags } }

def RawSignaturePack.content (raw : RawSignaturePack) : PackContent where
  id := raw.packId
  revision := raw.packRevision
  title := raw.title
  summary := raw.summary
  signatures := { content | ∃ signature ∈ raw.signatures, signature.content = content }

def ArtifactSignaturePack.content (pack : ArtifactSignaturePack) : PackContent :=
  { pack with signatures := { content | ∃ signature ∈ pack.signatures, signature.content = content } }

/-! ### A parsed pack -/

/-- What the checks bound of a signature. -/
structure ArtifactSignatureDefinition.Bounded (signature : ArtifactSignatureDefinition) : Prop where
  label : signature.label.utf8ByteSize ≤ maxLabelBytes
  description : ∀ description, signature.description = some description →
    description.utf8ByteSize ≤ maxDescriptionBytes
  tags : signature.tags.size ≤ maxTagsPerSignature
  tag : ∀ tag ∈ signature.tags, tag.utf8ByteSize ≤ maxTagBytes

/-- What parsing establishes of a pack. -/
structure ArtifactSignaturePack.Parsed (pack : ArtifactSignaturePack) : Prop where
  title : pack.title.utf8ByteSize ≤ maxPackTitleBytes
  summary : pack.summary.utf8ByteSize ≤ maxPackSummaryBytes
  count : pack.signatures.length ≤ maxSignaturesPerPack
  bounded : ∀ signature ∈ pack.signatures, signature.Bounded
  sorted : pack.signatures.Pairwise fun a b => (compareSignatures a b).isLE = true

theorem validateText_ok {value field : String} {limit : Nat} :
    wp (validateText value field limit) (fun _ => value.utf8ByteSize ≤ limit)
      (fun _ => True) := by
  unfold validateText
  rw [wp_ite]
  exact ⟨fun _ => trivial, fun h => not_lt.mp fun hlong => h (.inr (.inl hlong))⟩

theorem validateDescription_ok (value : Option String) :
    wp (validateDescription value) (fun _ => ∀ description, value = some description →
      description.utf8ByteSize ≤ maxDescriptionBytes) (fun _ => True) := by
  cases value with
  | none => exact fun _ h => nomatch h
  | some description =>
    refine wp_imp validateText_ok fun _ h other hother => ?_
    rw [← Option.some.inj hother]
    exact h

theorem validateTag_ok {value : String} :
    wp (validateTag value) (fun _ => value.utf8ByteSize ≤ maxTagBytes) (fun _ => True) := by
  unfold validateTag
  rw [wp_ite]
  exact ⟨fun _ => trivial, fun h => not_lt.mp fun hlong => h (.inr (.inl hlong))⟩

/-- The tags are a set. -/
theorem insertTags_ok (tags : List String) :
    wp (tags.foldlM insertTag ∅)
      (fun set => (∀ tag, tag ∈ set ↔ tag ∈ tags) ∧ ∀ tag ∈ set, tag.utf8ByteSize ≤ maxTagBytes)
      (fun _ => True) := by
  refine wp_imp (wp_foldlM (I := fun rest set =>
    (∀ tag, tag ∈ set ∨ tag ∈ rest ↔ tag ∈ tags) ∧ ∀ tag ∈ set, tag.utf8ByteSize ≤ maxTagBytes)
    (by simp) fun tag rest set h => ?_) fun set h => ⟨fun tag => by simpa using h.1 tag, h.2⟩
  unfold insertTag
  simp only [wp_rules]
  refine wp_imp validateTag_ok fun _ hsize => ⟨fun other => ?_, fun other hother => ?_⟩
  · rw [← h.1, mem_insert_iff, mem_cons, or_right_comm, or_assoc]
    tauto
  · rcases (mem_insert_iff _ _).mp hother with rfl | hother
    · exact hsize
    · exact h.2 other hother

/-- One signature joins the pack. -/
theorem pushSignature_ok (progress : PackProgress) (raw : RawSignature) :
    wp (pushSignature progress raw) (fun after => ∃ signature : ArtifactSignatureDefinition,
      after.signatures = progress.signatures ++ [signature] ∧ signature.content = raw.content ∧
      signature.Bounded) (fun _ => True) := by
  unfold pushSignature
  simp only [wp_bind]
  refine wp_imp validateText_ok fun _ hlabel => ?_
  refine wp_imp (validateDescription_ok _) fun _ hdesc => ?_
  simp only [wp_rules]
  refine ⟨fun _ => trivial, fun _ => wp_imp (insertTags_ok raw.tags) fun tags htags =>
    ⟨fun _ => trivial, fun hcnt => ?_⟩⟩
  split
  · exact trivial
  · rw [wp_bind]
    cases hpat : ArtifactPattern.parse raw.pattern with
    | error _ => exact trivial
    | ok pattern =>
      simp only [wp_rules]
      refine ⟨fun _ => trivial, fun _ => ⟨_, rfl, ?_, hlabel, hdesc, not_lt.mp hcnt, ?_⟩⟩
      · simp only [ArtifactSignatureDefinition.content, RawSignature.content, hpat, htags.1]
        rfl
      · exact htags.2

/-- What parsing says of a pack is what its manifest says. -/
theorem parsePackSource_ok (raw : RawSignaturePack) :
    wp (parsePackSource raw) (fun pack => pack.content = raw.content ∧ pack.Parsed)
      (fun _ => True) := by
  unfold parsePackSource
  simp only [wp_rules]
  refine ⟨fun _ => trivial, fun _ => wp_imp validateText_ok fun _ htitle =>
    wp_imp validateText_ok fun _ hsumm => ⟨fun _ => trivial, fun hcnt => ?_⟩⟩
  refine wp_imp (wp_foldlM (I := fun rest progress => ∃ done, done ++ rest = raw.signatures ∧
    List.Forall₂ (fun raw (signature : ArtifactSignatureDefinition) => signature.content = raw.content ∧
      signature.Bounded) done progress.signatures) ⟨[], rfl, .nil⟩ ?_) fun progress hprog => ?_
  · rintro raw rest progress ⟨done, hdone, hread⟩
    refine wp_imp (pushSignature_ok progress raw) ?_
    rintro after ⟨signature, haft, hsig⟩
    refine ⟨done ++ [raw], by rw [append_assoc]; exact hdone, ?_⟩
    rw [haft]
    exact rel_append hread (.cons hsig .nil)
  · obtain ⟨done, hdone, hread⟩ := hprog
    rw [append_nil] at hdone
    subst hdone
    have hperm := mergeSort_perm progress.signatures fun a b => (compareSignatures a b).isLE
    refine ⟨?_, htitle, hsumm, ?_, fun signature hmem => ?_, ?_⟩
    · simp only [ArtifactSignaturePack.content, RawSignaturePack.content, hperm.mem_iff]
      congr 1
      ext content
      constructor
      · rintro ⟨signature, hmem, rfl⟩
        obtain ⟨raw, hraw, hcont, -⟩ := exists_mem_of_forall₂ hread hmem
        exact ⟨raw, hraw, hcont.symm⟩
      · rintro ⟨raw, hmem, rfl⟩
        obtain ⟨signature, hsig, hcont, -⟩ := exists_mem_of_forall₂ hread.flip hmem
        exact ⟨signature, hsig, hcont⟩
    · rw [hperm.length_eq, ← hread.length_eq]
      exact not_lt.mp fun hlong => hcnt (.inr hlong)
    · obtain ⟨raw, -, -, hbdd⟩ := exists_mem_of_forall₂ hread (hperm.mem_iff.mp hmem)
      exact hbdd
    · exact pairwise_mergeSort_cmp compareSignatures progress.signatures

theorem ArtifactSignatureDefinition.content_injective :
    Function.Injective ArtifactSignatureDefinition.content := by
  intro a b h
  cases a
  cases b
  simp only [content, SignatureContent.mk.injEq, Option.some.injEq] at h
  obtain ⟨rfl, rfl, rfl, rfl, hpat, htags, rfl⟩ := h
  obtain rfl := ArtifactPattern.canonical_injective hpat
  obtain rfl := Std.ExtTreeSet.ext_mem fun tag => Set.ext_iff.mp htags tag
  rfl

/-- A parsed pack is determined by what it says. -/
theorem ArtifactSignaturePack.Parsed.eq_of_content {a b : ArtifactSignaturePack} (ha : a.Parsed)
    (hb : b.Parsed) (h : a.content = b.content) : a = b := by
  have hsigs : a.signatures = b.signatures := by
    have hmem : ∀ signature, signature ∈ a.signatures ↔ signature ∈ b.signatures := by
      intro signature
      have hset := Set.ext_iff.mp (congrArg PackContent.signatures h) signature.content
      simpa [content, ArtifactSignatureDefinition.content_injective.eq_iff] using hset
    refine List.Perm.eq_of_pairwise (fun x y hx hy hxy hyx => ?_) ha.sorted hb.sorted
      ((perm_ext_iff_of_nodup a.distinct.of_map b.distinct.of_map).mpr hmem)
    -- the identities decide the order, and are distinct
    have hid : x.id = y.id := by
      have heq := Std.OrientedCmp.isLE_antisymm hxy hyx
      simp only [compareSignatures, compareLex, compareOn, Ordering.then_eq_eq,
        Std.LawfulEqOrd.compare_eq_iff_eq] at heq
      exact ArtifactId.value_injective heq.1
    exact inj_on_of_nodup_map a.distinct hx ((hmem y).mpr hy) hid
  cases a
  cases b
  simp only [content, PackContent.mk.injEq] at h hsigs
  obtain ⟨rfl, rfl, rfl, rfl, -⟩ := h
  subst hsigs
  rfl

/-! ### What is written says which packs there are -/

theorem ArtifactId.size_lt (id : ArtifactId) : id.value.utf8ByteSize < 256 ^ 8 := by
  have hid := id.canonical
  simp only [isCanonicalId, Bool.and_eq_true, decide_eq_true_eq] at hid
  exact lt_of_le_of_lt (b := maxIdBytes) (by tauto) (by decide)

theorem ArtifactRevision.lt (revision : ArtifactRevision) : revision.value < 256 ^ 8 :=
  lt_of_le_of_lt revision.bounded (by decide)

theorem ArtifactPattern.canonical_size (pattern : ArtifactPattern) :
    pattern.canonical.utf8ByteSize < 256 ^ 8 := by
  have hsize := pattern.canonical_chars.1
  have hbd := pattern.bounded
  unfold maxPatternBytes at hbd
  omega

theorem ArtifactObservationClass.asStr_spec : Function.Injective asStr ∧
    ∀ class' : ArtifactObservationClass, class'.asStr.utf8ByteSize < 256 ^ 8 :=
  ⟨by rintro (_ | _) (_ | _) h <;> first | rfl | exact absurd h (by decide), by rintro (_ | _) <;> decide⟩

namespace ArtifactCatalogBuilder

theorem readsBack_hashField :
    ReadsBack (fun text : String => text.utf8ByteSize < 256 ^ 8) hashField := readsBack_frame 8

theorem readsBack_description : ReadsBack (fun o => ∀ text ∈ o, text.utf8ByteSize < 256 ^ 8)
    fun o : Option String => match o with
      | some description => hashField "some" ++ hashField description
      | none => hashField "none" := by
  have hmark : ReadsBack (fun _ => True) fun b : Bool =>
      hashField (if b then "some" else "none") :=
    readsBack_hashField.parts _ (fun _ => rfl) (fun b _ => by cases b <;> decide)
      fun a b _ _ h => by cases a <;> cases b <;> first | rfl | exact absurd h (by decide)
  exact hmark.optional readsBack_hashField rfl fun _ => rfl

theorem readsBack_hashSignature :
    ReadsBack ArtifactSignatureDefinition.Bounded hashSignature := by
  have text := readsBack_hashField
  have hsm : ∀ {n limit : Nat}, n ≤ limit → limit ≤ 1024 → n < 256 ^ 8 := by omega
  refine (text.prod ((readsBack_beBytes 8).prod (text.prod (text.prod (text.prod
    ((text.counted 8).prod readsBack_description)))))).parts
    (fun s => (s.id.value, s.revision.value, s.label, s.observationClass.asStr, s.pattern.canonical,
      s.tags.toList, s.description))
    (fun s => by simp [hashSignature, hashU64]) (fun s h => ⟨s.id.size_lt, s.revision.lt,
      hsm h.label (by decide), ArtifactObservationClass.asStr_spec.2 _, s.pattern.canonical_size, ?_,
      fun d hd => hsm (h.description d hd) (by decide)⟩) fun a b _ _ h => ?_
  · rw [Std.ExtTreeSet.length_toList]
    exact ⟨hsm h.tags (by decide),
      fun tag hmem => hsm (h.tag tag (Std.ExtTreeSet.mem_toList.mp hmem)) (by decide)⟩
  · simp only [Prod.mk.injEq] at h
    obtain ⟨hid, hrev, hlabel, hclass, hpat, htags, hdesc⟩ := h
    cases a
    cases b
    simp only [ArtifactSignatureDefinition.mk.injEq]
    exact ⟨ArtifactId.value_injective hid, ArtifactRevision.value_injective hrev, hlabel,
      ArtifactObservationClass.asStr_spec.1 hclass, ArtifactPattern.canonical_injective hpat,
      Std.ExtTreeSet.toList_inj.mp htags, hdesc⟩

theorem readsBack_hashPack : ReadsBack ArtifactSignaturePack.Parsed hashPack := by
  have text := readsBack_hashField
  have hsm : ∀ {n limit : Nat}, n ≤ limit → limit ≤ 1024 → n < 256 ^ 8 := by omega
  refine (text.prod ((readsBack_beBytes 8).prod (text.prod (text.prod
    (readsBack_hashSignature.counted 8))))).parts
    (fun p => (p.id.value, p.revision.value, p.title, p.summary, p.signatures))
    (fun p => by simp [hashPack, hashU64]) (fun p h => ⟨p.id.size_lt, p.revision.lt,
      hsm h.title (by decide), hsm h.summary (by decide), hsm h.count (by decide), h.bounded⟩)
    fun a b _ _ h => ?_
  simp only [Prod.mk.injEq] at h
  cases a
  cases b
  simp only [ArtifactSignaturePack.mk.injEq]
  exact ⟨ArtifactId.value_injective h.1, ArtifactRevision.value_injective h.2.1, h.2.2⟩

/-! ### Sets of packs -/

/-- Manifests, and the builder with which their packs are registered in this
order; calls that fail in between change nothing. -/
inductive Registered : List RawSignaturePack → ArtifactCatalogBuilder → Prop
  | new : Registered [] {}
  | register {raws : List RawSignaturePack} {raw : RawSignaturePack} {pack : ArtifactSignaturePack}
    {builder after : ArtifactCatalogBuilder} : Registered raws builder →
    parsePackSource raw = .ok pack → builder.register pack = .ok after → Registered (raws ++ [raw]) after

/-- A set of valid packs. -/
structure PackSet where
  manifests : List RawSignaturePack
  builder : ArtifactCatalogBuilder
  registered : Registered manifests builder

/-- Which packs there are. -/
def PackSet.contents (packs : PackSet) : Set PackContent :=
  { content | ∃ raw ∈ packs.manifests, raw.content = content }

/-- What holds of the packs of a builder. -/
structure Holds (raws : List RawSignaturePack) (builder : ArtifactCatalogBuilder) : Prop where
  parsed : ∀ {id : ArtifactPackId} {pack : ArtifactSignaturePack},
    builder.packs[id]? = some pack → pack.id = id ∧ pack.Parsed
  room : builder.packs.size ≤ maxPacksPerCatalog
  contents : ∀ content : PackContent, (∃ raw ∈ raws, raw.content = content) ↔
    ∃ (id : ArtifactPackId) (pack : ArtifactSignaturePack),
      builder.packs[id]? = some pack ∧ pack.content = content

theorem Registered.holds {raws : List RawSignaturePack} {builder : ArtifactCatalogBuilder}
    (h : Registered raws builder) : Holds raws builder := by
  induction h with
  | new => exact ⟨by simp, by simp, by simp⟩
  | @register raws raw pack builder after _ hprs hreg ih =>
    obtain ⟨hfree, hroom, hpacks⟩ := register_spec hreg
    have hpack := parsePackSource_ok raw
    rw [hprs] at hpack
    refine ⟨fun hget => ?_, ?_, fun content => ?_⟩
    · rw [hpacks, get_insert] at hget
      split_ifs at hget with hid
      · rw [← Option.some.inj hget]
        exact ⟨hid, hpack.2⟩
      · exact ih.parsed hget
    · rw [hpacks, size_insert_new _ hfree]
      exact hroom
    · rw [hpacks]
      constructor
      · rintro ⟨other, hother, rfl⟩
        rcases mem_append.mp hother with hother | hother
        · obtain ⟨id, old, hold, hcont⟩ := (ih.contents _).mp ⟨other, hother, rfl⟩
          refine ⟨id, old, ?_, hcont⟩
          rw [get_insert_ne _ (by rintro rfl; rw [hfree] at hold; cases hold)]
          exact hold
        · rw [mem_singleton.mp hother]
          exact ⟨pack.id, pack, get_insert_self _ _ _, hpack.1⟩
      · rintro ⟨id, other, hget, rfl⟩
        rw [get_insert] at hget
        split_ifs at hget with hid
        · rw [← Option.some.inj hget]
          exact ⟨raw, by simp, hpack.1.symm⟩
        · obtain ⟨old, hold, hcont⟩ := (ih.contents _).mpr ⟨id, other, hget, rfl⟩
          exact ⟨old, mem_append_left _ hold, hcont⟩

/-- **The digest stands for the set of packs.** What two catalogs put under the
hash is equal exactly if their manifests describe the same packs, in whatever
order the packs were registered and their signatures and tags were listed. -/
theorem catalogPreimage_eq_iff (left right : PackSet) :
    catalogPreimage left.builder.packs = catalogPreimage right.builder.packs ↔
      left.contents = right.contents := by
  have hleft := left.registered.holds
  have hright := right.registered.holds
  constructor
  · intro h
    have hcntd : ∀ {packs : PackSet}, Holds packs.manifests packs.builder →
        (packs.builder.packs.toList.map Prod.snd).length < 256 ^ 8 ∧
          ∀ pack ∈ packs.builder.packs.toList.map Prod.snd, pack.Parsed := by
      intro packs hpacks
      rw [List.length_map, Std.ExtTreeMap.length_toList]
      refine ⟨lt_of_le_of_lt hpacks.room (by decide), fun pack hmem => ?_⟩
      obtain ⟨⟨id, _⟩, hent, rfl⟩ := List.mem_map.mp hmem
      exact (hpacks.parsed (mem_toList.mp hent)).2
    have hcnt : ∀ packs : PackSet, packs.builder.packs.size =
        (packs.builder.packs.toList.map Prod.snd).length := fun packs => by
      rw [List.length_map, Std.ExtTreeMap.length_toList]
    rw [← List.append_nil (catalogPreimage _), ← List.append_nil (catalogPreimage right.builder.packs)] at h
    simp only [catalogPreimage, hashU64, hcnt, List.append_assoc] at h
    obtain ⟨-, h⟩ := readsBack_hashField (by decide) (by decide) h
    simp only [← List.append_assoc] at h
    obtain ⟨hpacks, -⟩ := readsBack_hashPack.counted 8 (hcntd hleft) (hcntd hright) h
    have hmem : ∀ {packs : PackSet} {content : PackContent}, Holds packs.manifests packs.builder →
        (content ∈ packs.contents ↔
          ∃ pack ∈ packs.builder.packs.toList.map Prod.snd, pack.content = content) := by
      intro packs content hpacks
      refine (hpacks.contents content).trans ?_
      simp only [List.mem_map, Prod.exists, exists_eq_right, ← mem_toList]
      tauto
    ext content
    rw [hmem hleft, hmem hright, hpacks]
  · intro h
    have hget : ∀ {packs others : PackSet}, Holds packs.manifests packs.builder →
        Holds others.manifests others.builder → packs.contents = others.contents →
        ∀ {id : ArtifactPackId} {pack : ArtifactSignaturePack}, packs.builder.packs[id]? = some pack →
          others.builder.packs[id]? = some pack := by
      intro packs others hpacks hoths hsame id pack hpack
      have hcont : pack.content ∈ others.contents := by
        rw [← hsame]
        exact (hpacks.contents _).mpr ⟨id, pack, hpack, rfl⟩
      obtain ⟨id', other, hother, heq⟩ := (hoths.contents _).mp hcont
      obtain ⟨hid, hprd⟩ := hpacks.parsed hpack
      obtain ⟨hid', hprd'⟩ := hoths.parsed hother
      obtain rfl := hprd'.eq_of_content hprd heq
      rw [← hid, hid']
      exact hother
    have hpacks : left.builder.packs = right.builder.packs := by
      refine Std.ExtTreeMap.ext_getElem? fun id => Option.ext fun pack => ?_
      exact ⟨hget hleft hright h, hget hright hleft h.symm⟩
    rw [hpacks]

end ArtifactCatalogBuilder

end Termivar
