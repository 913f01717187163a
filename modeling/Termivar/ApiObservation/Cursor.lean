/-
# Cursors of visibility reviews

`termivar-scanner/src/api_observation/cursor.rs`: the position after one
relation of a resource, as a text with a digest of the resource and the
relation's identifier. A text is parsed exactly if it is the text of a cursor.
-/
import Termivar.Hex
import Termivar.Knowledge.Bounds
import Termivar.Text

namespace Termivar.ApiObservation

open List

def apiVisibilityReviewCursorPrefix : String := "venom-api-review-v2:"
def apiVisibilityReviewCursorDomain : Bytes :=
  utf8Bytes "venom.api-visibility.review-cursor.v2\x00"
def apiVisibilityReviewResourceDigestHexBytes : Nat := 64
def maxApiVisibilityReviewCursorBytes : Nat := 20 + 64 + 1 + maxKnowledgeRelationIdBytes * 2

/-- The errors of queries and their cursors. -/
inductive ApiObservationError where
  | zeroReviewScanLimit
  | reviewScanLimitExceeded (actual maximum : Nat)
  | reviewCursorTooLong (actual maximum : Nat)
  | resourceBoundReviewCursorTooLong (actual maximum : Nat)
  | invalidResourceBoundReviewCursor (reason : String)
  | unsupportedResourceBoundReviewCursorVersion
  | resourceBoundReviewCursorMismatch
  deriving DecidableEq

/-- `[u8; 32]`. -/
abbrev ResourceDigest : Type := { bytes : Bytes // bytes.length = 32 }

structure ApiVisibilityReviewCursor where
  encoded : String
  resourceDigest : ResourceDigest
  afterRelationId : RelationId

variable (sha256 : Bytes → ResourceDigest)

def reviewCursorResourceDigest (resourceScope : EntityId) : ResourceDigest :=
  sha256 (apiVisibilityReviewCursorDomain ++ frame 8 (utf8Bytes resourceScope.value))

/-- The text of a cursor. -/
def cursorText (resourceDigest : ResourceDigest) (relationId : RelationId) : String :=
  apiVisibilityReviewCursorPrefix ++ hex resourceDigest.1 ++ ":" ++ hex (utf8Bytes relationId.value)

/-! ### Decoding -/

def decodeCursorHex (value : String) : Except ApiObservationError Bytes := do
  if value = "" ∨ value.utf8ByteSize % 2 ≠ 0 then
    throw (.invalidResourceBoundReviewCursor
      "hexadecimal payload must be non-empty and byte-aligned")
  okOr (Hex.decode (utf8Bytes value))
    (.invalidResourceBoundReviewCursor "cursor payload must use lowercase hexadecimal")

/-- The digest of a cursor, from its digits. -/
def decodeResourceDigest (value : String) : Except ApiObservationError ResourceDigest := do
  if value.utf8ByteSize ≠ apiVisibilityReviewResourceDigestHexBytes then
    throw (.invalidResourceBoundReviewCursor
      "resource digest must contain 64 lowercase hexadecimal characters")
  let bytes ← decodeCursorHex value
  if h : bytes.length = 32 then return ⟨bytes, h⟩
  else throw (.invalidResourceBoundReviewCursor "resource digest must contain exactly 32 bytes")

/-- `RelationId::parse`. -/
def parseRelationId (value : String) : Except ApiObservationError RelationId :=
  if h : isBlank value = false then .ok ⟨value, h⟩
  else .error (.invalidResourceBoundReviewCursor "relation identifier is empty")

/-- The relation of a cursor, from its digits. -/
def decodeRelationId (value : String) : Except ApiObservationError RelationId := do
  let bytes ← decodeCursorHex value
  if bytes.length > maxKnowledgeRelationIdBytes then
    throw (.reviewCursorTooLong bytes.length maxKnowledgeRelationIdBytes)
  let relationId ← okOr (String.fromUTF8? ⟨bytes.toArray⟩)
    (.invalidResourceBoundReviewCursor "relation identifier is not valid UTF-8")
  parseRelationId relationId

/-- What stands behind the prefix. -/
def stripCursorPrefix (encoded : String) : Except ApiObservationError (List Char) :=
  match stripPrefix apiVisibilityReviewCursorPrefix.toList encoded.toList with
  | some payload => .ok payload
  | none =>
    if (stripPrefix "venom-api-review-v".toList encoded.toList).isSome then
      .error .unsupportedResourceBoundReviewCursorVersion
    else .error (.invalidResourceBoundReviewCursor "cursor prefix is malformed")

namespace ApiVisibilityReviewCursor

/-- `ApiVisibilityReviewCursor::new`. -/
def new (resourceScope : EntityId) (afterRelationId : RelationId) :
    Except ApiObservationError ApiVisibilityReviewCursor := do
  if afterRelationId.value.utf8ByteSize > maxKnowledgeRelationIdBytes then
    throw (.reviewCursorTooLong afterRelationId.value.utf8ByteSize maxKnowledgeRelationIdBytes)
  let resourceDigest := reviewCursorResourceDigest sha256 resourceScope
  return { encoded := cursorText resourceDigest afterRelationId, resourceDigest, afterRelationId }

/-- `ApiVisibilityReviewCursor::parse`. -/
def parse (encoded : String) : Except ApiObservationError ApiVisibilityReviewCursor := do
  if encoded.utf8ByteSize > maxApiVisibilityReviewCursorBytes then
    throw (.resourceBoundReviewCursorTooLong encoded.utf8ByteSize maxApiVisibilityReviewCursorBytes)
  let payload ← stripCursorPrefix encoded
  let (resourceDigest, relationId) ← okOr (splitOnce ':' payload)
    (.invalidResourceBoundReviewCursor "cursor payload is incomplete")
  let resourceDigest ← decodeResourceDigest (.ofList resourceDigest)
  let afterRelationId ← decodeRelationId (.ofList relationId)
  return { encoded, resourceDigest, afterRelationId }

def asStr (cursor : ApiVisibilityReviewCursor) : String := cursor.encoded

def matchesResource (cursor : ApiVisibilityReviewCursor) (resourceScope : EntityId) : Bool :=
  cursor.resourceDigest = reviewCursorResourceDigest sha256 resourceScope

end ApiVisibilityReviewCursor

/-- The cursors there are: made for a resource, or parsed. -/
def Made (cursor : ApiVisibilityReviewCursor) : Prop :=
  (∃ resourceScope relationId, ApiVisibilityReviewCursor.new sha256 resourceScope relationId =
    .ok cursor) ∨ ∃ text, ApiVisibilityReviewCursor.parse text = .ok cursor

/-! ### Texts -/

variable {sha256} {cursor : ApiVisibilityReviewCursor}

theorem okOr_eq_ok {ε α : Type} {option : Option α} {failure : ε} {value : α} :
    okOr option failure = .ok value ↔ option = some value := by
  cases option <;> simp [okOr]

theorem decodeCursorHex_eq_ok_iff {value : String} {bytes : Bytes} :
    decodeCursorHex value = .ok bytes ↔ bytes ≠ [] ∧ value = hex bytes := by
  have hdecode : Hex.decode (utf8Bytes value) = some bytes ↔ value = hex bytes := by
    rw [Hex.decode_eq_some_iff, ← Hex.utf8Bytes_hex]
    exact utf8Bytes_injective.eq_iff
  have hemp : hex [] = "" := rfl
  unfold decodeCursorHex
  by_cases hrefused : value = "" ∨ value.utf8ByteSize % 2 ≠ 0
  · rw [if_pos hrefused]
    refine ⟨fun h => (by cases h), ?_⟩
    rintro ⟨hbs, rfl⟩
    rw [Hex.utf8ByteSize_hex] at hrefused
    rcases hrefused with hnone | hodd
    · have hsize := congrArg String.utf8ByteSize hnone
      rw [Hex.utf8ByteSize_hex] at hsize
      have hzero : bytes.length = 0 := by
        have : ("" : String).utf8ByteSize = 0 := rfl
        omega
      exact absurd (length_eq_zero_iff.mp hzero) hbs
    · omega
  · rw [if_neg hrefused]
    show okOr _ _ = _ ↔ _
    rw [okOr_eq_ok, hdecode]
    refine ⟨fun h => ⟨?_, h⟩, And.right⟩
    rintro rfl
    exact hrefused (Or.inl (h.trans hemp))

theorem decodeResourceDigest_eq_ok_iff {value : String} {digest : ResourceDigest} :
    decodeResourceDigest value = .ok digest ↔ value = hex digest.1 := by
  have hlength : ∀ bytes : Bytes, bytes.length = 32 →
      (hex bytes).utf8ByteSize = apiVisibilityReviewResourceDigestHexBytes := fun bytes h => by
    rw [Hex.utf8ByteSize_hex, h]
    rfl
  constructor
  · intro h
    unfold decodeResourceDigest at h
    split_ifs at h with hrefused
    · cases h
    obtain ⟨bytes, hbs, h⟩ := bind_ok h
    split_ifs at h with hwidth
    cases h
    exact (decodeCursorHex_eq_ok_iff.mp hbs).2
  · rintro rfl
    have hne : digest.1 ≠ [] := by
      intro hnil
      have hwidth := digest.2
      rw [hnil] at hwidth
      cases hwidth
    unfold decodeResourceDigest
    rw [if_neg (not_not_intro (hlength _ digest.2))]
    simp only [decodeCursorHex_eq_ok_iff.mpr ⟨hne, rfl⟩, bind, Except.bind, dif_pos digest.2]
    rfl

theorem fromUTF8?_eq_some_iff {bytes : Bytes} {text : String} :
    String.fromUTF8? ⟨bytes.toArray⟩ = some text ↔ bytes = utf8Bytes text := by
  unfold String.fromUTF8? utf8Bytes
  constructor
  · intro h
    split_ifs at h with hvalid
    cases h
    rfl
  · rintro rfl
    have hbs : (⟨text.toByteArray.data.toList.toArray⟩ : ByteArray) = text.toByteArray := rfl
    rw [hbs, dif_pos text.isValidUTF8]
    rfl

theorem decodeRelationId_eq_ok_iff {value : String} {relationId : RelationId} :
    decodeRelationId value = .ok relationId ↔
      relationId.value.utf8ByteSize ≤ maxKnowledgeRelationIdBytes ∧
        value = hex (utf8Bytes relationId.value) := by
  constructor
  · intro h
    obtain ⟨bytes, hbs, h⟩ := bind_ok h
    split_ifs at h with hlong
    · cases h
    obtain ⟨text, htext, hprs⟩ := bind_ok h
    obtain rfl := fromUTF8?_eq_some_iff.mp (okOr_eq_ok.mp htext)
    unfold parseRelationId at hprs
    split_ifs at hprs with hblk
    cases hprs
    exact ⟨Nat.le_of_not_lt hlong, (decodeCursorHex_eq_ok_iff.mp hbs).2⟩
  · rintro ⟨hsh, rfl⟩
    have hne : utf8Bytes relationId.value ≠ [] := by
      intro hnil
      have hemp : relationId.value = "" := utf8Bytes_injective hnil
      have hblk := relationId.notBlank
      rw [hemp] at hblk
      cases hblk
    have hbs : ¬ (utf8Bytes relationId.value).length > maxKnowledgeRelationIdBytes :=
      Nat.not_lt.mpr hsh
    unfold decodeRelationId
    simp only [decodeCursorHex_eq_ok_iff.mpr ⟨hne, rfl⟩, bind, Except.bind, if_neg hbs,
      okOr_eq_ok.mpr (fromUTF8?_eq_some_iff.mpr rfl), parseRelationId, dif_pos relationId.notBlank]

theorem stripCursorPrefix_eq_ok_iff {encoded : String} {payload : List Char} :
    stripCursorPrefix encoded = .ok payload ↔
      encoded.toList = apiVisibilityReviewCursorPrefix.toList ++ payload := by
  rw [← stripPrefix_eq_some]
  unfold stripCursorPrefix
  cases hstrip : stripPrefix apiVisibilityReviewCursorPrefix.toList encoded.toList with
  | some rest => simp
  | none =>
    refine ⟨fun h => ?_, fun h => (by cases h)⟩
    split_ifs at h

/-- No digit is a colon. -/
theorem colon_not_mem_hex (bytes : Bytes) : ':' ∉ (hex bytes).toList := by
  have hdig : ∀ n < 16, Char.ofNat (if n < 10 then 48 + n else 87 + n) ≠ ':' := by decide
  rw [hex, String.toList_ofList, mem_flatMap]
  rintro ⟨byte, -, hmem⟩
  simp only [hexByte, mem_cons, not_mem_nil, or_false] at hmem
  rcases hmem with h | h
  · exact hdig _ (by have := byte.toNat_lt; omega) h.symm
  · exact hdig _ (Nat.mod_lt _ (by decide)) h.symm

theorem toList_cursorText (digest : ResourceDigest) (relationId : RelationId) :
    (cursorText digest relationId).toList = apiVisibilityReviewCursorPrefix.toList ++
      ((hex digest.1).toList ++ ':' :: (hex (utf8Bytes relationId.value)).toList) := by
  simp [cursorText, String.toList_append]

/-- **A text is parsed exactly if it is that of a cursor.** -/
theorem parse_eq_ok_iff {text : String} : ApiVisibilityReviewCursor.parse text = .ok cursor ↔
    cursor.encoded = text ∧ cursor.encoded = cursorText cursor.resourceDigest cursor.afterRelationId ∧
      cursor.afterRelationId.value.utf8ByteSize ≤ maxKnowledgeRelationIdBytes := by
  constructor
  · intro h
    unfold ApiVisibilityReviewCursor.parse at h
    split_ifs at h with hlong
    · cases h
    obtain ⟨payload, hpayl, h⟩ := bind_ok h
    obtain ⟨⟨front, back⟩, hspl, h⟩ := bind_ok h
    obtain ⟨digest, hdigest, h⟩ := bind_ok h
    obtain ⟨relationId, hrel, h⟩ := bind_ok h
    cases h
    obtain ⟨rfl, -⟩ := splitOnce_eq_some.mp (okOr_eq_ok.mp hspl)
    obtain ⟨hsh, hback⟩ := decodeRelationId_eq_ok_iff.mp hrel
    refine ⟨rfl, ?_, hsh⟩
    rw [← String.toList_inj, toList_cursorText, stripCursorPrefix_eq_ok_iff.mp hpayl,
      ← decodeResourceDigest_eq_ok_iff.mp hdigest, ← hback, String.toList_ofList,
      String.toList_ofList]
  · rintro ⟨rfl, hcan, hsh⟩
    obtain ⟨encoded, digest, relationId⟩ := cursor
    obtain rfl : encoded = cursorText digest relationId := hcan
    have hsize : ¬ (cursorText digest relationId).utf8ByteSize > maxApiVisibilityReviewCursorBytes := by
      have hpre : apiVisibilityReviewCursorPrefix.utf8ByteSize = 20 := by decide
      have hcol : ":".utf8ByteSize = 1 := by decide
      have hbs : (utf8Bytes relationId.value).length ≤ maxKnowledgeRelationIdBytes := hsh
      rw [cursorText, String.utf8ByteSize_append, String.utf8ByteSize_append,
        String.utf8ByteSize_append, Hex.utf8ByteSize_hex, Hex.utf8ByteSize_hex, digest.2, hpre,
        hcol, maxApiVisibilityReviewCursorBytes]
      omega
    have hspl : splitOnce ':' ((hex digest.1).toList ++
        ':' :: (hex (utf8Bytes relationId.value)).toList) =
        some ((hex digest.1).toList, (hex (utf8Bytes relationId.value)).toList) :=
      splitOnce_eq_some.mpr ⟨rfl, colon_not_mem_hex _⟩
    unfold ApiVisibilityReviewCursor.parse
    rw [if_neg hsize]
    simp only [stripCursorPrefix_eq_ok_iff.mpr (toList_cursorText digest relationId), bind,
      Except.bind, okOr_eq_ok.mpr hspl, String.ofList_toList,
      decodeResourceDigest_eq_ok_iff.mpr rfl, decodeRelationId_eq_ok_iff.mpr ⟨hsh, rfl⟩]
    rfl

/-- Every cursor holds its own text, of a relation within its bound. -/
theorem made_canonical (h : Made sha256 cursor) :
    cursor.encoded = cursorText cursor.resourceDigest cursor.afterRelationId ∧
      cursor.afterRelationId.value.utf8ByteSize ≤ maxKnowledgeRelationIdBytes := by
  rcases h with ⟨resourceScope, relationId, hnew⟩ | ⟨text, hprs⟩
  · unfold ApiVisibilityReviewCursor.new at hnew
    split_ifs at hnew with hlong
    · cases hnew
    cases hnew
    exact ⟨rfl, Nat.le_of_not_lt hlong⟩
  · exact (parse_eq_ok_iff.mp hprs).2

/-- A cursor is parsed back from its text. -/
theorem parse_asStr (h : Made sha256 cursor) :
    ApiVisibilityReviewCursor.parse cursor.asStr = .ok cursor :=
  parse_eq_ok_iff.mpr ⟨rfl, made_canonical h⟩

/-- What is parsed is what some cursor renders to. -/
theorem parses_iff {text : String} : (∃ cursor, ApiVisibilityReviewCursor.parse text = .ok cursor) ↔
    ∃ cursor, Made sha256 cursor ∧ cursor.asStr = text := by
  constructor
  · rintro ⟨cursor, hprs⟩
    exact ⟨cursor, Or.inr ⟨text, hprs⟩, (parse_eq_ok_iff.mp hprs).1⟩
  · rintro ⟨cursor, hmade, rfl⟩
    exact ⟨cursor, parse_asStr hmade⟩

/-! ### Resources -/

theorem new_ok {resourceScope : EntityId} {relationId : RelationId}
    (h : relationId.value.utf8ByteSize ≤ maxKnowledgeRelationIdBytes) :
    ApiVisibilityReviewCursor.new sha256 resourceScope relationId =
      .ok ⟨cursorText (reviewCursorResourceDigest sha256 resourceScope) relationId,
        reviewCursorResourceDigest sha256 resourceScope, relationId⟩ := by
  unfold ApiVisibilityReviewCursor.new
  rw [if_neg (Nat.not_lt.mpr h)]
  rfl

/-- **Without collisions, a cursor matches no resource but its own.** -/
theorem matchesResource_iff {resourceScope other : EntityId} {relationId : RelationId}
    {inputs : Set Bytes} (hinj : Set.InjOn sha256 inputs)
    (hsc : apiVisibilityReviewCursorDomain ++ frame 8 (utf8Bytes resourceScope.value) ∈ inputs)
    (hoth : apiVisibilityReviewCursorDomain ++ frame 8 (utf8Bytes other.value) ∈ inputs)
    (hnew : ApiVisibilityReviewCursor.new sha256 resourceScope relationId = .ok cursor) :
    cursor.matchesResource sha256 other = true ↔ resourceScope = other := by
  have hdigest : cursor.resourceDigest = reviewCursorResourceDigest sha256 resourceScope := by
    unfold ApiVisibilityReviewCursor.new at hnew
    split_ifs at hnew with hlong
    · cases hnew
    cases hnew
    rfl
  rw [ApiVisibilityReviewCursor.matchesResource, hdigest, decide_eq_true_eq,
    reviewCursorResourceDigest, reviewCursorResourceDigest, hinj.eq_iff hsc hoth,
    append_cancel_left_eq]
  refine ⟨fun h => ?_, fun h => by rw [h]⟩
  have hbs := (append_inj h (by rw [length_beBytes, length_beBytes])).2
  exact Identifier.value_injective (utf8Bytes_injective hbs)

end Termivar.ApiObservation
