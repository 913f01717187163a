/-
# The semantic digest of a Wordfence feed

`termivar-scanner/src/wordpress_review/wordfence_v3.rs`: the bytes that are
hashed for a feed, in two versions. The second one is used if a source
identity was mapped, or if a record needs more than the first version could
say.
-/
import Termivar.WordPress.Identity

namespace Termivar.Wordfence

/-! ### What needs the second version -/

def sourceVersionRequiresV2 (value : String) : Bool :=
  value.toList.any fun c => 128 ≤ c.toNat || isWhitespace c

def endpointRequiresV2 : WordfenceV3RangeValue → Bool
  | .any => false
  | .declared value => sourceVersionRequiresV2 value

def sourceVersionsRequireExpandedSemantics (ranges : List WordfenceV3AffectedRange)
    (patchedVersions : List String) : Bool :=
  ranges.any (fun range => endpointRequiresV2 range.lower.value || endpointRequiresV2 range.upper.value) ||
    patchedVersions.any sourceVersionRequiresV2

/-- `mapped_association_requires_resource_policy_v2` and its counterpart for
associations that are not mapped. -/
def associationRequiresResourcePolicyV2 (ranges : List WordfenceV3AffectedRange)
    (patchedVersions : List String) : Bool :=
  ranges.length > 64 || patchedVersions.length > 64 ||
    sourceVersionsRequireExpandedSemantics ranges patchedVersions

variable (record : WordfenceV3Record)

def recordHasSourceAssociationVariants : Bool :=
  Slice.adjacentAny (fun a b => a.key.upstreamId = b.key.upstreamId &&
      a.sourceComponent = b.sourceComponent) record.software ||
    Slice.adjacentAny (fun a b => a.upstreamId = b.upstreamId &&
      a.sourceComponent = b.sourceComponent) record.unresolvedSoftware

def recordRequiresSemanticDigestV2 : Bool :=
  record.description.utf8ByteSize > 2048 || recordHasSourceAssociationVariants record ||
    Slice.adjacentAny (fun a b => a = b) record.researchers ||
    record.cwe.any (fun cwe => cwe.description.utf8ByteSize > 2048) ||
    record.software.any (fun a => associationRequiresResourcePolicyV2 a.affectedRanges a.patchedVersions) ||
    record.unresolvedSoftware.any fun a =>
      associationRequiresResourcePolicyV2 a.affectedRanges a.patchedVersions

def recordRequiresResourcePolicyV2 (recordBytes : Nat) (record : WordfenceV3Record) : Bool :=
  recordBytes > 512 * 1024 || recordRequiresSemanticDigestV2 record

/-! ### The bytes that are hashed -/

def WordfenceV3CvssRating.byte : WordfenceV3CvssRating → UInt8
  | .none => 0
  | .low => 1
  | .medium => 2
  | .high => 3
  | .critical => 4

def hashNotice (notice : WordfenceV3Notice) : Bytes :=
  [notice.id, notice.message, notice.party, notice.notice, notice.license, notice.licenseUrl].flatMap
    frameText

def hashNotices (notices : List WordfenceV3Notice) : Bytes :=
  frameUsize notices.length ++ notices.flatMap hashNotice

def hashCwe : Option WordfenceV3Cwe → Bytes
  | some cwe => [1] ++ beBytes 4 cwe.id ++ frameText cwe.name ++ frameText cwe.description
  | none => [0]

def hashCvss : Option WordfenceV3Cvss → Bytes
  | some cvss =>
    [1] ++ frameText cvss.vector ++ frameText cvss.score ++ [WordfenceV3CvssRating.byte cvss.rating]
  | none => [0]

def hashRecordCommon : Bytes :=
  frameText record.upstreamId ++ frameText record.title ++ [frameBool record.informational] ++
    frameText record.description ++ hashStrings record.references ++ hashCwe record.cwe ++
    hashCvss record.cvss ++ hashOptionalString record.cve ++ hashOptionalString record.cveLink ++
    hashStrings record.researchers ++ hashOptionalString record.published ++
    hashOptionalString record.updated ++ hashStrings record.noticeIds

def hashAssociationCommon (association : WordfenceV3SoftwareAssociation) : Bytes :=
  [kindByte association.component.kind] ++ frameText association.component.slug ++
    frameText association.displayName ++
    hashAssociationValues association.affectedRanges association.patched association.patchedVersions
      association.remediation

def hashRecordV1 : Bytes :=
  hashRecordCommon record ++ frameUsize record.software.length ++
    record.software.flatMap hashAssociationCommon

def hashCollisionCount : Option Nat → Bytes
  | some count => 1 :: frameUsize count
  | none => [0]

def hashMapped (association : WordfenceV3SoftwareAssociation) : Bytes :=
  [kindByte association.sourceComponent.kind] ++ frameText association.sourceComponent.slug ++
    frameText association.identityMapping.asStr ++
    hashCollisionCount association.identityCollisionRawCount ++ hashAssociationCommon association

def hashUnresolved (association : WordfenceV3UnresolvedSoftwareAssociation) : Bytes :=
  [kindByte association.sourceComponent.kind] ++ frameText association.sourceComponent.slug ++
    frameText association.displayName ++
    hashAssociationValues association.affectedRanges association.patched association.patchedVersions
      association.remediation

def hashRecordV2 : Bytes :=
  hashRecordCommon record ++ frameUsize record.software.length ++ record.software.flatMap hashMapped ++
    frameUsize record.unresolvedSoftware.length ++ record.unresolvedSoftware.flatMap hashUnresolved

def sourceNamespace : String := "wordfence-intelligence"

def mappingRevisionV1 : String := "termivar-wordfence-v3-production/v1"

def mappingRevisionV2 : String := "termivar-wordfence-v3-production/v2"

def identityMappingPolicy : String :=
  "termivar.wordfence-v3-exact-plus-ascii-lowercase-candidate/v1"

def mappingRevision (counts : WordfenceV3IdentityCounts) : String :=
  if counts.requiresSourceIdentityMapping then mappingRevisionV2 else mappingRevisionV1

def semanticPreimageV1 (records : List WordfenceV3Record) (notices : List WordfenceV3Notice) :
    Bytes :=
  utf8Bytes "termivar.wordfence-v3-production.semantic/v1\x00" ++ frameText sourceNamespace ++
    frameText mappingRevisionV1 ++ frameUsize records.length ++ records.flatMap hashRecordV1 ++
    hashNotices notices

/-- What `semantic_digest` hashes. -/
def semanticPreimage (records : List WordfenceV3Record) (notices : List WordfenceV3Notice)
    (counts : WordfenceV3IdentityCounts) (requiresExpandedSemantics : Bool) : Bytes :=
  if !counts.requiresSourceIdentityMapping && !requiresExpandedSemantics then
    semanticPreimageV1 records notices
  else
    utf8Bytes "termivar.wordfence-v3-production.semantic/v2\x00" ++ frameText sourceNamespace ++
      frameText (mappingRevision counts) ++ frameText identityMappingPolicy ++
      [counts.exact, counts.candidate, counts.ambiguous, counts.unresolved].flatMap frameUsize ++
      frameUsize records.length ++ records.flatMap hashRecordV2 ++ hashNotices notices

end Termivar.Wordfence
