/-
# The signature catalog

`termivar-artifact/src/catalog.rs`: signatures with their identities, and the
sealed catalog that groups them by the offset and byte of their anchors. The
catalog carries what sealing establishes: the groups and the length of the
longest pattern are those of its signatures.
-/
import Termivar.Identifier
import Termivar.Artifact.Pattern

namespace Termivar

open List Option

/-! ### Identities -/

def maxIdBytes : Nat := 64

/-- `str::contains`. -/
def containsText (needle text : List Char) : Bool := text.tails.any fun rest => needle.isPrefixOf rest

/-- The characters of a canonical identity. -/
def isIdChar (c : Char) : Bool := c.isLower || c.isDigit || c = '.' || c = '_' || c = '-'

/-- The check of `validate_id`. -/
def isCanonicalId (value : String) : Bool :=
  let cs := value.toList
  value ≠ "" && value.utf8ByteSize ≤ maxIdBytes &&
    !(cs.head?.any isWhitespace || cs.getLast?.any isWhitespace) &&
    !containsText ['.', '.'] cs && !containsText [':', '/', '/'] cs &&
    !(cs.any fun c => c = '/' || c = '\\' || c = ':' || c = '@') &&
    cs.all isIdChar && cs.head?.any Char.isAlphanum && cs.getLast?.any Char.isAlphanum

/-- A canonical identity of a pack or a signature. -/
structure ArtifactId where
  value : String
  canonical : isCanonicalId value = true
  deriving DecidableEq

abbrev ArtifactPackId : Type := ArtifactId

abbrev ArtifactSignatureId : Type := ArtifactId

/-- A positive revision. -/
structure ArtifactRevision where
  value : Nat
  positive : 0 < value
  bounded : value ≤ u32Max
  deriving DecidableEq

/-- Closed observation-only classification for one signature match. -/
inductive ArtifactObservationClass where
  | fileFormatMarker
  | embeddedFormatMarker
  | userDefinedMarker
  | testCanary
  | suspiciousSequence

/-- Exact catalog identity for a versioned signature. -/
structure ArtifactSignatureRef where
  packId : ArtifactPackId
  signatureId : ArtifactSignatureId
  revision : ArtifactRevision
  deriving DecidableEq

instance : Ord ArtifactSignatureRef where
  compare := compareLex (compareOn (·.packId.value))
    (compareLex (compareOn (·.signatureId.value)) (compareOn (·.revision.value)))

/-- What the matcher reads of a catalog entry. -/
structure ArtifactCatalogSignature where
  signatureRef : ArtifactSignatureRef
  observationClass : ArtifactObservationClass
  pattern : ArtifactPattern

/-! ### Sealing -/

/-- Signature indexes by the offset and the byte of the anchor. -/
abbrev AnchorGroups : Type := BTreeMap Nat (BTreeMap UInt8 (List Nat))

/-- Push the index of one signature to the group of its anchor. -/
def pushAnchor (groups : AnchorGroups) (entry : ArtifactCatalogSignature × Nat) : AnchorGroups :=
  let (offset, byte) := entry.1.pattern.anchor
  let byByte := groups[offset]?.getD ∅
  groups.insert offset (byByte.insert byte (byByte[byte]?.getD [] ++ [entry.2]))

def indexAnchors (signatures : List ArtifactCatalogSignature) : AnchorGroups :=
  signatures.zipIdx.foldl pushAnchor ∅

def longestPattern (signatures : List ArtifactCatalogSignature) : Nat :=
  signatures.foldl (fun longest signature => max longest signature.pattern.len) 0

/-- A sealed immutable signature catalog. -/
structure ArtifactCatalog where
  signatures : List ArtifactCatalogSignature
  anchorGroups : AnchorGroups
  maximumPatternLength : Nat
  digest : String
  anchorGroups_eq : anchorGroups = indexAnchors signatures
  maximumPatternLength_eq : maximumPatternLength = longestPattern signatures

namespace ArtifactCatalog

/-- What sealing makes of the collected signatures. -/
def ofSignatures (signatures : List ArtifactCatalogSignature) (digest : String) :
    ArtifactCatalog where
  signatures := signatures
  anchorGroups := indexAnchors signatures
  maximumPatternLength := longestPattern signatures
  digest := digest
  anchorGroups_eq := rfl
  maximumPatternLength_eq := rfl

/-! ### What the index holds -/

/-- The indexed signatures are among `entries`, under their anchors, and no
group is empty. -/
structure Indexes (entries : List (ArtifactCatalogSignature × Nat)) (groups : AnchorGroups) :
    Prop where
  candidate : ∀ {offset byByte byte candidates index}, groups[offset]? = some byByte →
    byByte[byte]? = some candidates → index ∈ candidates →
    ∃ signature, (signature, index) ∈ entries ∧ signature.pattern.anchor = (offset, byte)
  offset : ∀ {offset byByte}, groups[offset]? = some byByte →
    ∃ entry ∈ entries, entry.1.pattern.anchor.1 = offset

theorem indexes_push {entries : List (ArtifactCatalogSignature × Nat)} {groups : AnchorGroups}
    (h : Indexes entries groups) (entry : ArtifactCatalogSignature × Nat) :
    Indexes (entries ++ [entry]) (pushAnchor groups entry) := by
  have hold : ∀ {signature index}, (signature, index) ∈ entries →
      (signature, index) ∈ entries ++ [entry] := fun hmem => mem_append_left _ hmem
  unfold pushAnchor
  refine { candidate := ?_, offset := ?_ }
  · intro offset byByte byte candidates index hgrp hcands hidx
    rw [get_insert] at hgrp
    split_ifs at hgrp with hoffset
    · rw [some.injEq] at hgrp
      subst hgrp
      rw [get_insert] at hcands
      split_ifs at hcands with hbyte
      · rw [some.injEq] at hcands
        subst hcands
        rcases mem_append.mp hidx with hidx | hidx
        · cases hbef : groups[entry.1.pattern.anchor.1]? with
          | none => simp [hbef] at hidx
          | some earlier =>
            rw [hbef, getD_some] at hidx
            cases hlist : earlier[entry.1.pattern.anchor.2]? with
            | none => simp [hlist] at hidx
            | some list =>
              rw [hlist, getD_some] at hidx
              obtain ⟨signature, hmem, hanchor⟩ := h.candidate hbef hlist hidx
              exact ⟨signature, hold hmem, by rw [hanchor, ← hoffset, ← hbyte]⟩
        · rw [mem_singleton] at hidx
          refine ⟨entry.1, ?_, by rw [← hoffset, ← hbyte]⟩
          rw [hidx]
          exact mem_append_right _ (mem_singleton.mpr rfl)
      · cases hbef : groups[entry.1.pattern.anchor.1]? with
        | none => simp [hbef] at hcands
        | some earlier =>
          rw [hbef, getD_some] at hcands
          obtain ⟨signature, hmem, hanchor⟩ := h.candidate hbef hcands hidx
          exact ⟨signature, hold hmem, by rw [hanchor, ← hoffset]⟩
    · obtain ⟨signature, hmem, hanchor⟩ := h.candidate hgrp hcands hidx
      exact ⟨signature, hold hmem, hanchor⟩
  · intro offset byByte hgrp
    rw [get_insert] at hgrp
    split_ifs at hgrp with hoffset
    · exact ⟨entry, mem_append_right _ (mem_singleton.mpr rfl), hoffset⟩
    · obtain ⟨earlier, hmem, hanchor⟩ := h.offset hgrp
      exact ⟨earlier, mem_append_left _ hmem, hanchor⟩

theorem indexes_foldl (rest : List (ArtifactCatalogSignature × Nat)) :
    ∀ {entries : List (ArtifactCatalogSignature × Nat)} {groups : AnchorGroups},
      Indexes entries groups → Indexes (entries ++ rest) (rest.foldl pushAnchor groups) := by
  induction rest with
  | nil =>
    intro entries groups h
    rw [append_nil]
    exact h
  | cons entry rest ih =>
    intro entries groups h
    have hnext := ih (indexes_push h entry)
    rwa [append_assoc, singleton_append] at hnext

theorem indexes_all (catalog : ArtifactCatalog) :
    Indexes catalog.signatures.zipIdx catalog.anchorGroups := by
  have hemp : Indexes [] ∅ :=
    { candidate := fun hgrp => by simp at hgrp
      offset := fun hgrp => by simp at hgrp }
  rw [catalog.anchorGroups_eq]
  exact indexes_foldl catalog.signatures.zipIdx hemp

theorem le_longestPattern {signatures : List ArtifactCatalogSignature}
    {signature : ArtifactCatalogSignature} (h : signature ∈ signatures) :
    signature.pattern.len ≤ longestPattern signatures := by
  have hfold : ∀ (rest : List ArtifactCatalogSignature) (start : Nat),
      start ≤ rest.foldl (fun longest s => max longest s.pattern.len) start ∧
        ∀ s ∈ rest, s.pattern.len ≤ rest.foldl (fun longest s => max longest s.pattern.len) start := by
    intro rest
    induction rest with
    | nil => simp
    | cons first rest ih =>
      intro start
      obtain ⟨hsta, hrest⟩ := ih (max start first.pattern.len)
      refine ⟨le_trans (le_max_left _ _) hsta, fun s hs => ?_⟩
      rcases mem_cons.mp hs with rfl | hs
      · exact le_trans (le_max_right _ _) hsta
      · exact hrest s hs
  exact (hfold signatures 0).2 signature h

theorem longestPattern_le (signatures : List ArtifactCatalogSignature) :
    longestPattern signatures ≤ maxPatternBytes := by
  have hfold : ∀ (rest : List ArtifactCatalogSignature) (start : Nat), start ≤ maxPatternBytes →
      rest.foldl (fun longest s => max longest s.pattern.len) start ≤ maxPatternBytes := by
    intro rest
    induction rest with
    | nil => exact fun start h => h
    | cons first rest ih => exact fun start h => ih _ (max_le h first.pattern.bounded)
  exact hfold signatures 0 (Nat.zero_le _)

variable (catalog : ArtifactCatalog)

theorem len_le_maximum {signature : ArtifactCatalogSignature} (h : signature ∈ catalog.signatures) :
    signature.pattern.len ≤ catalog.maximumPatternLength := by
  rw [catalog.maximumPatternLength_eq]
  exact le_longestPattern h

theorem maximum_le : catalog.maximumPatternLength ≤ maxPatternBytes := by
  rw [catalog.maximumPatternLength_eq]
  exact longestPattern_le _

/-- An anchor lies inside the longest pattern. -/
theorem offset_lt_maximum {offset : Nat} {byByte : BTreeMap UInt8 (List Nat)}
    (h : catalog.anchorGroups[offset]? = some byByte) : offset < catalog.maximumPatternLength := by
  obtain ⟨⟨signature, index⟩, hmem, hanchor⟩ := catalog.indexes_all.offset h
  have hsig : signature ∈ catalog.signatures :=
    (mem_zipIdx' hmem).2 ▸ getElem_mem _
  have hlt := signature.pattern.anchor_lt_len
  have hle := catalog.len_le_maximum hsig
  simp only at hanchor
  omega

/-- An indexed candidate is a signature of the catalog. -/
theorem candidate_signature {offset index : Nat} {byte : UInt8} {candidates : List Nat}
    {byByte : BTreeMap UInt8 (List Nat)} (hgrp : catalog.anchorGroups[offset]? = some byByte)
    (hcands : byByte[byte]? = some candidates) (hidx : index ∈ candidates) :
    ∃ signature, catalog.signatures[index]? = some signature ∧ signature ∈ catalog.signatures := by
  obtain ⟨signature, hmem, -⟩ := catalog.indexes_all.candidate hgrp hcands hidx
  have hget : catalog.signatures[index]? = some signature := mem_zipIdx_iff_getElem?.mp hmem
  exact ⟨signature, hget, mem_of_getElem? hget⟩

end ArtifactCatalog

end Termivar
