/-
# Streamed signatures

`termivar-scanner/src/api_evidence.rs` and the comparison contract of
`termivar-core/src/predicates.rs`: one traversal of a snapshot writes two
streams, one with its values and one with its structure alone, each under a
domain and a byte limit. Two views are equivalent in a dimension if the digests
of their streams are the same.

The clock is left out: the time of a comparison is the one that is given.
-/
import Termivar.ApiEvidence.Snapshot
import Termivar.Command
import Termivar.Identifier

namespace Termivar.ApiEvidence

open List Value

open TreeHash (Doc StreamScheme stream streamItems streamMembers)

/-! ### Limits and errors -/

def hardMaxApiVisibilityDepth : Nat := 128
def hardMaxApiVisibilityNodes : Nat := 1000000
def hardMaxApiVisibilityFields : Nat := 250000
def hardMaxApiVisibilityCanonicalBytes : Nat := 64 * 1024 * 1024

inductive ApiVocabularyError where
  | emptyContext (field : String)
  | contextTooLong (field : String) (maximum : Nat)
  | identicalContexts
  deriving DecidableEq

inductive ApiVisibilityEvidenceError where
  | zeroLimit (dimension : String)
  | hardLimitExceeded (dimension : String) (actual maximum : Nat)
  | emptyHandle (field : String)
  | handleTooLong (field : String) (maximum : Nat)
  | invalidHttpStatus (status : Nat)
  | depthLimitExceeded (limit observed : Nat)
  | nodeLimitExceeded (limit observed : Nat)
  | fieldLimitExceeded (limit observed : Nat)
  | canonicalBytesLimitExceeded (signature : String) (limit observed : Nat)
  | limitsMismatch
  | identicalContexts
  | resourceScopeMismatch
  | surfaceMismatch
  | vocabulary (failure : ApiVocabularyError)
  deriving DecidableEq

/-- A limit between one and its hard ceiling. -/
def LimitIn (limit maximum : Nat) : Prop := limit ≠ 0 ∧ limit ≤ maximum

instance (limit maximum : Nat) : Decidable (LimitIn limit maximum) :=
  inferInstanceAs (Decidable (_ ∧ _))

structure ApiVisibilityLimits where
  (maxDepth maxNodes maxFields maxCanonicalBytes : Nat)
  depthValid : LimitIn maxDepth hardMaxApiVisibilityDepth
  nodesValid : LimitIn maxNodes hardMaxApiVisibilityNodes
  fieldsValid : LimitIn maxFields hardMaxApiVisibilityFields
  bytesValid : LimitIn maxCanonicalBytes hardMaxApiVisibilityCanonicalBytes
  deriving DecidableEq

def validateLimit (dimension : String) (actual maximum : Nat) :
    Except ApiVisibilityEvidenceError (PLift (LimitIn actual maximum)) :=
  if hzero : actual = 0 then .error (.zeroLimit dimension)
  else if hmaximum : maximum < actual then .error (.hardLimitExceeded dimension actual maximum)
  else .ok ⟨hzero, Nat.not_lt.mp hmaximum⟩

namespace ApiVisibilityLimits

/-- `ApiVisibilityLimits::new`. -/
def new (maxDepth maxNodes maxFields maxCanonicalBytes : Nat) :
    Except ApiVisibilityEvidenceError ApiVisibilityLimits := do
  let depth ← validateLimit "max_depth" maxDepth hardMaxApiVisibilityDepth
  let nodes ← validateLimit "max_nodes" maxNodes hardMaxApiVisibilityNodes
  let fields ← validateLimit "max_fields" maxFields hardMaxApiVisibilityFields
  let bytes ← validateLimit "max_canonical_bytes" maxCanonicalBytes hardMaxApiVisibilityCanonicalBytes
  return ⟨maxDepth, maxNodes, maxFields, maxCanonicalBytes, depth.down, nodes.down, fields.down,
    bytes.down⟩

/-- `ApiVisibilityLimits::default`. -/
def standard : ApiVisibilityLimits where
  maxDepth := 64
  maxNodes := 100000
  maxFields := 50000
  maxCanonicalBytes := 8 * 1024 * 1024
  depthValid := by decide
  nodesValid := by decide
  fieldsValid := by decide
  bytesValid := by decide

theorem maxCanonicalBytes_lt (limits : ApiVisibilityLimits) : limits.maxCanonicalBytes < 256 ^ 8 :=
  limits.bytesValid.2.trans_lt (by decide)

end ApiVisibilityLimits

/-! ### Comparisons -/

def maxOpaqueContextBytes : Nat := 256
def maxOpaqueHandleBytes : Nat := 256

/-- An opaque identifier: not blank, and of a bounded length. -/
structure OpaqueId where
  value : String
  notBlank : isBlank value = false
  short : value.utf8ByteSize ≤ maxOpaqueContextBytes

instance : DecidableEq OpaqueId := fun a b =>
  decidable_of_iff (a.value = b.value) (by cases a; cases b; simp)

def opaqueContext (value field : String) : Except ApiVocabularyError OpaqueId :=
  if notBlank : isBlank value = false then
    if short : value.utf8ByteSize ≤ maxOpaqueContextBytes then .ok ⟨value, notBlank, short⟩
    else .error (.contextTooLong field maxOpaqueContextBytes)
  else .error (.emptyContext field)

/-- The checks of `opaque_handle` are those of an opaque identifier. -/
def opaqueHandle (value field : String) : Except ApiVisibilityEvidenceError OpaqueId :=
  if notBlank : isBlank value = false then
    if short : value.utf8ByteSize ≤ maxOpaqueHandleBytes then
      .ok ⟨value, notBlank, short.trans (by decide)⟩
    else .error (.handleTooLong field maxOpaqueHandleBytes)
  else .error (.emptyHandle field)

theorem opaqueContext_value (id : OpaqueId) (field : String) :
    opaqueContext id.value field = .ok id := by
  rw [opaqueContext, dif_pos id.notBlank, dif_pos id.short]

theorem opaqueHandle_value (id : OpaqueId) (field : String) :
    opaqueHandle id.value field = .ok id := by
  have hsh : id.value.utf8ByteSize ≤ maxOpaqueHandleBytes := id.short
  rw [opaqueHandle, dif_pos id.notBlank, dif_pos hsh]

inductive ApiSurfaceKind where
  | jsonHttp
  | graphQl
  deriving DecidableEq

inductive ApiVisibilityPairKind where
  | uiApi
  | authorizationContext

inductive ApiVisibilityResult where
  | different
  | equivalent
  deriving DecidableEq

inductive ApiVisibilityDimension where
  | resources
  | fields
  | status
  deriving DecidableEq

def ApiVisibilityDimension.asStr : ApiVisibilityDimension → String
  | .resources => "resources"
  | .fields => "fields"
  | .status => "status"

/-- One comparison of two views under different contexts. -/
structure ApiVisibilityComparison where
  comparisonId : OpaqueId
  surface : ApiSurfaceKind
  pair : ApiVisibilityPairKind
  result : ApiVisibilityResult
  dimension : ApiVisibilityDimension
  (baselineContextId candidateContextId resourceScopeId : OpaqueId)
  observedAtMs : Nat
  distinct : baselineContextId ≠ candidateContextId

/-- `ApiVisibilityComparison::new` and `with_observed_at_ms`. -/
def ApiVisibilityComparison.new (comparisonId : String) (surface : ApiSurfaceKind)
    (pair : ApiVisibilityPairKind) (result : ApiVisibilityResult)
    (dimension : ApiVisibilityDimension)
    (baselineContextId candidateContextId resourceScopeId : String) (observedAtMs : Nat) :
    Except ApiVocabularyError ApiVisibilityComparison := do
  let comparisonId ← opaqueContext comparisonId "comparison id"
  let baselineContextId ← opaqueContext baselineContextId "baseline context id"
  let candidateContextId ← opaqueContext candidateContextId "candidate context id"
  let resourceScopeId ← opaqueContext resourceScopeId "resource scope id"
  if distinct : baselineContextId ≠ candidateContextId then
    return ⟨comparisonId, surface, pair, result, dimension, baselineContextId, candidateContextId,
      resourceScopeId, observedAtMs, distinct⟩
  else throw .identicalContexts

/-! ### Streams -/

def resourceSignatureDomain : Bytes := utf8Bytes "venom.api-visibility.resource.v1\x00"
def fieldSignatureDomain : Bytes := utf8Bytes "venom.api-visibility.fields.v1\x00"

/-- What has been written to a stream after its domain. -/
structure SignatureWriter (limits : ApiVisibilityLimits) where
  name : String
  bytes : Bytes
  bounded : bytes.length ≤ limits.maxCanonicalBytes

variable {limits : ApiVisibilityLimits}

namespace SignatureWriter

def new (limits : ApiVisibilityLimits) (name : String) : SignatureWriter limits :=
  ⟨name, [], Nat.zero_le _⟩

variable (writer : SignatureWriter limits)

def write (bytes : Bytes) :
    Except ApiVisibilityEvidenceError (SignatureWriter limits) :=
  let observed := saturatingAdd u64Max writer.bytes.length bytes.length
  if h : observed ≤ limits.maxCanonicalBytes then
    .ok ⟨writer.name, writer.bytes ++ bytes, by
      have hlimit := limits.bytesValid.2
      simp only [observed, saturatingAdd, u64Max, hardMaxApiVisibilityCanonicalBytes] at h hlimit
      rw [length_append]
      omega⟩
  else .error (.canonicalBytesLimitExceeded writer.name limits.maxCanonicalBytes observed)

def writeLen (length : Nat) :
    Except ApiVisibilityEvidenceError (SignatureWriter limits) :=
  writer.write (beBytes 8 length)

def writeFramed (bytes : Bytes) :
    Except ApiVisibilityEvidenceError (SignatureWriter limits) := do
  let writer ← writer.writeLen bytes.length
  writer.write bytes

theorem write_bytes {writer writer' : SignatureWriter limits} {bytes : Bytes}
    (h : writer.write bytes = .ok writer') : writer'.bytes = writer.bytes ++ bytes := by
  unfold write at h
  simp only at h
  split_ifs at h
  cases h
  rfl

theorem writeFramed_bytes {writer writer' : SignatureWriter limits} {bytes : Bytes}
    (h : writer.writeFramed bytes = .ok writer') :
    writer'.bytes = writer.bytes ++ frame 8 bytes := by
  obtain ⟨middle, hlength, hbs⟩ := bind_ok h
  rw [write_bytes hbs, write_bytes hlength, append_assoc, frame]

end SignatureWriter

/-! ### The traversal -/

structure CanonicalState (limits : ApiVisibilityLimits) where
  (nodes fields : Nat)
  (resource schema : SignatureWriter limits)

namespace CanonicalState

variable (state : CanonicalState limits)

/-- What is checked before a value is visited. -/
def enter (depth : Nat) :
    Except ApiVisibilityEvidenceError (CanonicalState limits) := do
  if depth > limits.maxDepth then throw (.depthLimitExceeded limits.maxDepth depth)
  let nodes := saturatingAdd u64Max state.nodes 1
  if nodes > limits.maxNodes then throw (.nodeLimitExceeded limits.maxNodes nodes)
  return { state with nodes }

/-- What is checked before the members of an object are visited. -/
def admitFields (count : Nat) :
    Except ApiVisibilityEvidenceError (CanonicalState limits) := do
  let fields := saturatingAdd u64Max state.fields count
  if fields > limits.maxFields then throw (.fieldLimitExceeded limits.maxFields fields)
  return { state with fields }

def writeResource (bytes : Bytes) :
    Except ApiVisibilityEvidenceError (CanonicalState limits) := do
  return { state with resource := ← state.resource.write bytes }

def writeSchema (bytes : Bytes) :
    Except ApiVisibilityEvidenceError (CanonicalState limits) := do
  return { state with schema := ← state.schema.write bytes }

def writeResourceFramed (bytes : Bytes) :
    Except ApiVisibilityEvidenceError (CanonicalState limits) := do
  return { state with resource := ← state.resource.writeFramed bytes }

def writeSchemaFramed (bytes : Bytes) :
    Except ApiVisibilityEvidenceError (CanonicalState limits) := do
  return { state with schema := ← state.schema.writeFramed bytes }

/-- The opening of a container, in both streams. -/
def openContainer (bracket : String) (length : Nat) :
    Except ApiVisibilityEvidenceError (CanonicalState limits) := do
  let state ← state.writeResource (utf8Bytes bracket)
  let state ← state.writeResource (beBytes 8 length)
  let state ← state.writeSchema (utf8Bytes bracket)
  state.writeSchema (beBytes 8 length)

/-- The end of a container, in both streams. -/
def closeContainer (bracket : String) :
    Except ApiVisibilityEvidenceError (CanonicalState limits) := do
  let state ← state.writeResource (utf8Bytes bracket)
  state.writeSchema (utf8Bytes bracket)

end CanonicalState

variable {F : Type} (showFloat : F → String)

mutual

/-- `CanonicalState::visit`, of a value whose members are sorted. -/
def visit (depth : Nat) (state : CanonicalState limits) :
    Value F → Except ApiVisibilityEvidenceError (CanonicalState limits)
  | .null => do
    let state ← state.enter depth
    let state ← state.writeResource (utf8Bytes "0")
    state.writeSchema (utf8Bytes "0")
  | .bool value => do
    let state ← state.enter depth
    let state ← state.writeResource (utf8Bytes (if value then "t" else "f"))
    state.writeSchema (utf8Bytes "b")
  | .number value => do
    let state ← state.enter depth
    let state ← state.writeResource (utf8Bytes "n")
    let state ← state.writeResourceFramed (utf8Bytes (value.show showFloat))
    state.writeSchema (utf8Bytes (if value.isInteger then "i" else "n"))
  | .string value => do
    let state ← state.enter depth
    let state ← state.writeResource (utf8Bytes "s")
    let state ← state.writeResourceFramed (utf8Bytes value)
    state.writeSchema (utf8Bytes "s")
  | .array items => do
    let state ← state.enter depth
    let state ← state.openContainer "[" items.length
    let state ← visitItems (saturatingAdd u64Max depth 1) state items
    state.closeContainer "]"
  | .object members => do
    let state ← state.enter depth
    let state ← state.admitFields members.length
    let state ← state.openContainer "\x7b" members.length
    let state ← visitMembers (saturatingAdd u64Max depth 1) state members
    state.closeContainer "\x7d"

def visitItems (depth : Nat) (state : CanonicalState limits) :
    List (Value F) → Except ApiVisibilityEvidenceError (CanonicalState limits)
  | [] => .ok state
  | item :: items => do
    let state ← visit depth state item
    visitItems depth state items

def visitMembers (depth : Nat) (state : CanonicalState limits) :
    List (String × Value F) → Except ApiVisibilityEvidenceError (CanonicalState limits)
  | [] => .ok state
  | (name, item) :: members => do
    let state ← state.writeResourceFramed (utf8Bytes name)
    let state ← state.writeSchemaFramed (utf8Bytes name)
    let state ← visit depth state item
    visitMembers depth state members

end

/-! ### What is written -/

section Streams

variable {before middle after : CanonicalState limits}
  {resource resource' schema schema' : Bytes}

/-- What is appended to the two streams. -/
structure Writes (before after : CanonicalState limits) (resource schema : Bytes) : Prop where
  resource : after.resource.bytes = before.resource.bytes ++ resource
  schema : after.schema.bytes = before.schema.bytes ++ schema

theorem Writes.trans (h : Writes before middle resource schema)
    (h' : Writes middle after resource' schema') :
    Writes before after (resource ++ resource') (schema ++ schema') where
  resource := by rw [h'.resource, h.resource, append_assoc]
  schema := by rw [h'.schema, h.schema, append_assoc]

namespace CanonicalState

theorem enter_writes {depth : Nat} (h : before.enter depth = .ok after) :
    Writes before after [] [] := by
  unfold enter at h
  by_cases hdep : depth > limits.maxDepth
  · rw [if_pos hdep] at h
    cases h
  rw [if_neg hdep] at h
  simp only [bind, Except.bind] at h
  split_ifs at h
  cases h
  exact ⟨(append_nil _).symm, (append_nil _).symm⟩

theorem admitFields_writes {count : Nat} (h : before.admitFields count = .ok after) :
    Writes before after [] [] := by
  unfold admitFields at h
  simp only [bind, Except.bind] at h
  split_ifs at h
  cases h
  exact ⟨(append_nil _).symm, (append_nil _).symm⟩

theorem writeResource_writes {bytes : Bytes} (h : before.writeResource bytes = .ok after) :
    Writes before after bytes [] := by
  obtain ⟨writer, hwriter, h⟩ := bind_ok h
  cases h
  exact ⟨SignatureWriter.write_bytes hwriter, (append_nil _).symm⟩

theorem writeSchema_writes {bytes : Bytes} (h : before.writeSchema bytes = .ok after) :
    Writes before after [] bytes := by
  obtain ⟨writer, hwriter, h⟩ := bind_ok h
  cases h
  exact ⟨(append_nil _).symm, SignatureWriter.write_bytes hwriter⟩

theorem writeResourceFramed_writes {bytes : Bytes}
    (h : before.writeResourceFramed bytes = .ok after) :
    Writes before after (frame 8 bytes) [] := by
  obtain ⟨writer, hwriter, h⟩ := bind_ok h
  cases h
  exact ⟨SignatureWriter.writeFramed_bytes hwriter, (append_nil _).symm⟩

theorem writeSchemaFramed_writes {bytes : Bytes} (h : before.writeSchemaFramed bytes = .ok after) :
    Writes before after [] (frame 8 bytes) := by
  obtain ⟨writer, hwriter, h⟩ := bind_ok h
  cases h
  exact ⟨(append_nil _).symm, SignatureWriter.writeFramed_bytes hwriter⟩

theorem openContainer_writes {bracket : String} {length : Nat}
    (h : before.openContainer bracket length = .ok after) :
    Writes before after (utf8Bytes bracket ++ beBytes 8 length)
      (utf8Bytes bracket ++ beBytes 8 length) := by
  obtain ⟨first, hfirst, h⟩ := bind_ok h
  obtain ⟨second, hsnd, h⟩ := bind_ok h
  obtain ⟨third, hthd, h⟩ := bind_ok h
  simpa using (writeResource_writes hfirst).trans ((writeResource_writes hsnd).trans
    ((writeSchema_writes hthd).trans (writeSchema_writes h)))

theorem closeContainer_writes {bracket : String} (h : before.closeContainer bracket = .ok after) :
    Writes before after (utf8Bytes bracket) (utf8Bytes bracket) := by
  obtain ⟨first, hfirst, h⟩ := bind_ok h
  simpa using (writeResource_writes hfirst).trans (writeSchema_writes h)

end CanonicalState

/-- What the stream of values writes for a scalar. -/
def shownBytes : Shown → Bytes
  | .null => utf8Bytes "0"
  | .bool value => utf8Bytes (if value then "t" else "f")
  | .number text => utf8Bytes "n" ++ frame 8 (utf8Bytes text)
  | .string value => utf8Bytes "s" ++ frame 8 (utf8Bytes value)

/-- What the stream of the structure writes for a scalar. -/
def kindBytes : Kind → Bytes
  | .null => utf8Bytes "0"
  | .bool => utf8Bytes "b"
  | .integer => utf8Bytes "i"
  | .number => utf8Bytes "n"
  | .string => utf8Bytes "s"

/-- The length of a text can be written. -/
def ShortShown : Shown → Prop
  | .number text | .string text => (utf8Bytes text).length < 256 ^ 8
  | _ => True

/-- The bytes that scalars start with. -/
theorem utf8Bytes_tags : utf8Bytes "0" = [48] ∧ utf8Bytes "t" = [116] ∧ utf8Bytes "f" = [102] ∧
    utf8Bytes "n" = [110] ∧ utf8Bytes "s" = [115] ∧ utf8Bytes "b" = [98] ∧ utf8Bytes "i" = [105] := by
  decide

theorem shownBytes_append_inj {label label' : Shown} {rest rest' : Bytes}
    (hsh : ShortShown label) (hsh' : ShortShown label')
    (h : shownBytes label ++ rest = shownBytes label' ++ rest') : label = label' ∧ rest = rest' := by
  obtain ⟨hzero, htrue, hfalse, hnumber, hstring, -, -⟩ := utf8Bytes_tags
  rcases label with _ | (_ | _) | text | text <;> rcases label' with _ | (_ | _) | text' | text' <;>
    simp [shownBytes, hzero, htrue, hfalse, hnumber, hstring] at h ⊢
  -- numbers and texts are left, whose texts are framed
  all_goals first
    | exact h
    | obtain ⟨htext, hrest⟩ := frame_append_inj hsh hsh' h
      exact ⟨utf8Bytes_injective htext, hrest⟩

theorem kindBytes_append_inj {label label' : Kind} {rest rest' : Bytes}
    (h : kindBytes label ++ rest = kindBytes label' ++ rest') : label = label' ∧ rest = rest' := by
  obtain ⟨hzero, -, -, hnumber, hstring, hbool, hinteger⟩ := utf8Bytes_tags
  cases label <;> cases label' <;>
    simp_all [kindBytes]

theorem shortShown_of_length (label : Shown) (h : (shownBytes label).length < 256 ^ 8) :
    ShortShown label := by
  cases label with
  | null | bool _ => trivial
  | number text | string text =>
    simp only [shownBytes, frame, length_append] at h
    exact lt_of_le_of_lt (by omega) h

/-- How the stream of values is written. -/
def shownStream : StreamScheme Shown where
  leaf := shownBytes
  short := ShortShown
  openArray := 91
  closeArray := 93
  openObject := 123
  closeObject := 125
  leaf_pos label := by
    obtain ⟨hzero, htrue, hfalse, hnumber, hstring, -, -⟩ := utf8Bytes_tags
    rcases label with _ | (_ | _) | _ | _ <;>
      simp [shownBytes, hzero, htrue, hfalse, hnumber, hstring]
  short_of_length := shortShown_of_length
  leaf_append_inj := shownBytes_append_inj
  leaf_array label rest rest' := by
    obtain ⟨hzero, htrue, hfalse, hnumber, hstring, -, -⟩ := utf8Bytes_tags
    rcases label with _ | (_ | _) | _ | _ <;>
      simp [shownBytes, hzero, htrue, hfalse, hnumber, hstring]
  leaf_object label rest rest' := by
    obtain ⟨hzero, htrue, hfalse, hnumber, hstring, -, -⟩ := utf8Bytes_tags
    rcases label with _ | (_ | _) | _ | _ <;>
      simp [shownBytes, hzero, htrue, hfalse, hnumber, hstring]
  array_object := by decide

/-- How the stream of the structure is written. -/
def kindStream : StreamScheme Kind where
  leaf := kindBytes
  short := fun _ => True
  openArray := 91
  closeArray := 93
  openObject := 123
  closeObject := 125
  leaf_pos label := by cases label <;> decide
  short_of_length _ _ := trivial
  leaf_append_inj := fun _ _ h => kindBytes_append_inj h
  leaf_array label rest rest' := by
    obtain ⟨hzero, -, -, hnumber, hstring, hbool, hinteger⟩ := utf8Bytes_tags
    cases label <;> simp [kindBytes, hzero, hnumber, hstring, hbool, hinteger]
  leaf_object label rest rest' := by
    obtain ⟨hzero, -, -, hnumber, hstring, hbool, hinteger⟩ := utf8Bytes_tags
    cases label <;> simp [kindBytes, hzero, hnumber, hstring, hbool, hinteger]
  array_object := by decide

theorem utf8Bytes_brackets : utf8Bytes "[" = [91] ∧ utf8Bytes "]" = [93] ∧
    utf8Bytes "\x7b" = [123] ∧ utf8Bytes "\x7d" = [125] := by
  decide

variable {showFloat : F → String}

theorem length_treeItems : ∀ {L : Type} (f : Scalar F → L) (items : List (Value F)),
    (Doc.mapItems f (treeItems items)).length = items.length
  | _, _, [] => rfl
  | _, f, item :: items => by simp [treeItems, Doc.mapItems, length_treeItems f items]

theorem length_treeMembers : ∀ {L : Type} (f : Scalar F → L) (members : List (String × Value F)),
    (Doc.mapMembers f (treeMembers members)).length = members.length
  | _, _, [] => rfl
  | _, f, (_, _) :: members => by
    simp [treeMembers, Doc.mapMembers, length_treeMembers f members]

mutual

/-- A visit writes the streams of the value. -/
theorem visit_writes : ∀ {depth : Nat} {before after : CanonicalState limits} {value : Value F},
    visit showFloat depth before value = .ok after →
    Writes before after (stream shownStream (value.tree.map (Scalar.shown showFloat)))
      (stream kindStream (value.tree.map Scalar.kind))
  | depth, before, after, .null, h => by
    rw [visit] at h
    obtain ⟨first, hfirst, h⟩ := bind_ok h
    obtain ⟨second, hsnd, h⟩ := bind_ok h
    exact (CanonicalState.enter_writes hfirst).trans
      ((CanonicalState.writeResource_writes hsnd).trans (CanonicalState.writeSchema_writes h))
  | depth, before, after, .bool value, h => by
    rw [visit] at h
    obtain ⟨first, hfirst, h⟩ := bind_ok h
    obtain ⟨second, hsnd, h⟩ := bind_ok h
    have hwrs := (CanonicalState.enter_writes hfirst).trans
      ((CanonicalState.writeResource_writes hsnd).trans (CanonicalState.writeSchema_writes h))
    simpa [tree, Doc.map, stream, shownStream, kindStream, shownBytes, kindBytes,
      Scalar.shown, Scalar.kind] using hwrs
  | depth, before, after, .number value, h => by
    rw [visit] at h
    obtain ⟨first, hfirst, h⟩ := bind_ok h
    obtain ⟨second, hsnd, h⟩ := bind_ok h
    obtain ⟨third, hthd, h⟩ := bind_ok h
    have hwrs := (CanonicalState.enter_writes hfirst).trans
      ((CanonicalState.writeResource_writes hsnd).trans
        ((CanonicalState.writeResourceFramed_writes hthd).trans
          (CanonicalState.writeSchema_writes h)))
    have hkind : kindBytes (Scalar.kind (.number value)) =
        utf8Bytes (if value.isInteger then "i" else "n") := by
      cases hinteger : value.isInteger <;> simp [Scalar.kind, hinteger, kindBytes]
    simpa [tree, Doc.map, stream, shownStream, kindStream, shownBytes, Scalar.shown, hkind]
      using hwrs
  | depth, before, after, .string value, h => by
    rw [visit] at h
    obtain ⟨first, hfirst, h⟩ := bind_ok h
    obtain ⟨second, hsnd, h⟩ := bind_ok h
    obtain ⟨third, hthd, h⟩ := bind_ok h
    have hwrs := (CanonicalState.enter_writes hfirst).trans
      ((CanonicalState.writeResource_writes hsnd).trans
        ((CanonicalState.writeResourceFramed_writes hthd).trans
          (CanonicalState.writeSchema_writes h)))
    simpa [tree, Doc.map, stream, shownStream, kindStream, shownBytes, kindBytes,
      Scalar.shown, Scalar.kind] using hwrs
  | depth, before, after, .array items, h => by
    rw [visit] at h
    obtain ⟨first, hfirst, h⟩ := bind_ok h
    obtain ⟨second, hsnd, h⟩ := bind_ok h
    obtain ⟨third, hthd, h⟩ := bind_ok h
    have hwrs := (CanonicalState.enter_writes hfirst).trans
      ((CanonicalState.openContainer_writes hsnd).trans
        ((visitItems_writes hthd).trans (CanonicalState.closeContainer_writes h)))
    obtain ⟨hopen, hclose, -, -⟩ := utf8Bytes_brackets
    simpa [tree, Doc.map, stream, shownStream, kindStream, hopen, hclose, length_treeItems]
      using hwrs
  | depth, before, after, .object members, h => by
    rw [visit] at h
    obtain ⟨first, hfirst, h⟩ := bind_ok h
    obtain ⟨counted, hcntd, h⟩ := bind_ok h
    obtain ⟨second, hsnd, h⟩ := bind_ok h
    obtain ⟨third, hthd, h⟩ := bind_ok h
    have hwrs := (CanonicalState.enter_writes hfirst).trans
      ((CanonicalState.admitFields_writes hcntd).trans
        ((CanonicalState.openContainer_writes hsnd).trans
          ((visitMembers_writes hthd).trans (CanonicalState.closeContainer_writes h))))
    obtain ⟨-, -, hopen, hclose⟩ := utf8Bytes_brackets
    simpa [tree, Doc.map, stream, shownStream, kindStream, hopen, hclose, length_treeMembers]
      using hwrs

theorem visitItems_writes : ∀ {depth : Nat} {before after : CanonicalState limits}
    {items : List (Value F)}, visitItems showFloat depth before items = .ok after →
    Writes before after
      (streamItems shownStream (Doc.mapItems (Scalar.shown showFloat) (treeItems items)))
      (streamItems kindStream (Doc.mapItems Scalar.kind (treeItems items)))
  | depth, before, after, [], h => by
    cases h
    exact ⟨(append_nil _).symm, (append_nil _).symm⟩
  | depth, before, after, item :: items, h => by
    rw [visitItems] at h
    obtain ⟨middle, hmid, h⟩ := bind_ok h
    exact (visit_writes hmid).trans (visitItems_writes h)

theorem visitMembers_writes : ∀ {depth : Nat} {before after : CanonicalState limits}
    {members : List (String × Value F)}, visitMembers showFloat depth before members = .ok after →
    Writes before after
      (streamMembers shownStream (Doc.mapMembers (Scalar.shown showFloat) (treeMembers members)))
      (streamMembers kindStream (Doc.mapMembers Scalar.kind (treeMembers members)))
  | depth, before, after, [], h => by
    cases h
    exact ⟨(append_nil _).symm, (append_nil _).symm⟩
  | depth, before, after, (name, item) :: members, h => by
    rw [visitMembers] at h
    obtain ⟨first, hfirst, h⟩ := bind_ok h
    obtain ⟨second, hsnd, h⟩ := bind_ok h
    obtain ⟨third, hthd, h⟩ := bind_ok h
    have hwrs := (CanonicalState.writeResourceFramed_writes hfirst).trans
      ((CanonicalState.writeSchemaFramed_writes hsnd).trans
        ((visit_writes hthd).trans (visitMembers_writes h)))
    simpa [treeMembers, Doc.mapMembers, streamMembers] using hwrs

end

end Streams

structure CanonicalSignatures where
  (resource fields : Bytes)

variable (sha256 : Bytes → Bytes)

def canonicalSignatures (value : Value F) (limits : ApiVisibilityLimits) :
    Except ApiVisibilityEvidenceError CanonicalSignatures := do
  let state ← visit showFloat 1
    ⟨0, 0, SignatureWriter.new limits "resources", SignatureWriter.new limits "fields"⟩ value.sorted
  return {
    resource := sha256 (resourceSignatureDomain ++ state.resource.bytes)
    fields := sha256 (fieldSignatureDomain ++ state.schema.bytes) }

/-- The texts of a snapshot, members sorted. -/
def Value.shownTree (showFloat : F → String) (value : Value F) : Doc Shown :=
  value.sorted.tree.map (Scalar.shown showFloat)

/-- The types of a snapshot, members sorted. -/
def Value.kindTree (value : Value F) : Doc Kind := value.sorted.tree.map Scalar.kind

/-- What is hashed for the streams of a snapshot. -/
def signatureInputs (value : Value F) : List Bytes :=
  [resourceSignatureDomain ++ stream shownStream (value.shownTree showFloat),
    fieldSignatureDomain ++ stream kindStream value.kindTree]

section Signatures

variable {showFloat sha256} {limits limits' : ApiVisibilityLimits} {value other : Value F}
  {signatures signatures' : CanonicalSignatures} {inputs : Set Bytes}

/-- A snapshot within the limits: its streams are short, and their digests are
its signatures. -/
theorem canonicalSignatures_ok (h : canonicalSignatures showFloat sha256 value limits = .ok signatures) :
    (stream shownStream (value.shownTree showFloat)).length < 256 ^ 8 ∧
    (stream kindStream value.kindTree).length < 256 ^ 8 ∧
    signatures = {
      resource := sha256 (resourceSignatureDomain ++ stream shownStream (value.shownTree showFloat))
      fields := sha256 (fieldSignatureDomain ++ stream kindStream value.kindTree) } := by
  obtain ⟨state, hst, h⟩ := bind_ok h
  cases h
  have hwrs := visit_writes hst
  have hrsrc : state.resource.bytes = stream shownStream (value.shownTree showFloat) :=
    hwrs.resource
  have hschema : state.schema.bytes = stream kindStream value.kindTree := hwrs.schema
  rw [← hrsrc, ← hschema]
  exact ⟨state.resource.bounded.trans_lt limits.maxCanonicalBytes_lt,
    state.schema.bounded.trans_lt limits.maxCanonicalBytes_lt, rfl⟩

/-- Reordering members does not change what the signatures are. -/
theorem Reordered.canonicalSignatures_eq (h : Reordered value other) (hkd : value.Keyed) :
    canonicalSignatures showFloat sha256 value limits =
      canonicalSignatures showFloat sha256 other limits := by
  rw [canonicalSignatures, canonicalSignatures, (h.sorted_eq hkd).1]

variable (hinj : Set.InjOn sha256 inputs)
  (hvalue : ∀ input ∈ signatureInputs showFloat value, input ∈ inputs)
  (hoth : ∀ input ∈ signatureInputs showFloat other, input ∈ inputs)
  (h : canonicalSignatures showFloat sha256 value limits = .ok signatures)
  (h' : canonicalSignatures showFloat sha256 other limits' = .ok signatures')

include hinj hvalue hoth h h'

/-- Without collisions, the signatures of snapshots tell whether they have the
same texts. -/
theorem resource_signature_iff : signatures.resource = signatures'.resource ↔
    value.shownTree showFloat = other.shownTree showFloat := by
  obtain ⟨hsh, -, rfl⟩ := canonicalSignatures_ok h
  obtain ⟨hsh', -, rfl⟩ := canonicalSignatures_ok h'
  rw [hinj.eq_iff (hvalue _ (by simp [signatureInputs])) (hoth _ (by simp [signatureInputs])),
    append_cancel_left_eq]
  exact TreeHash.stream_inj (ordered_tree _ _) (ordered_tree _ _)
    (TreeHash.short_of_length hsh) (TreeHash.short_of_length hsh')

/-- Without collisions, the signatures of snapshots tell whether they have the
same types. -/
theorem field_signature_iff : signatures.fields = signatures'.fields ↔ value.kindTree = other.kindTree := by
  obtain ⟨-, hsh, rfl⟩ := canonicalSignatures_ok h
  obtain ⟨-, hsh', rfl⟩ := canonicalSignatures_ok h'
  rw [hinj.eq_iff (hvalue _ (by simp [signatureInputs])) (hoth _ (by simp [signatureInputs])),
    append_cancel_left_eq]
  exact TreeHash.stream_inj (ordered_tree _ _) (ordered_tree _ _)
    (TreeHash.short_of_length hsh) (TreeHash.short_of_length hsh')

end Signatures

/-! ### Views -/

structure ApiVisibilityView where
  (contextId resourceScopeId : OpaqueId)
  surface : ApiSurfaceKind
  status : Nat
  (resourceSignature fieldSignature : Bytes)
  limits : ApiVisibilityLimits

/-- Whether two views are equivalent in a dimension. -/
def ApiVisibilityView.equivalent (dimension : ApiVisibilityDimension)
    (baseline candidate : ApiVisibilityView) : Bool :=
  match dimension with
  | .fields => baseline.fieldSignature = candidate.fieldSignature
  | .resources => baseline.resourceSignature = candidate.resourceSignature
  | .status => baseline.status = candidate.status

def ApiVisibilityResult.ofEquivalent (equivalent : Bool) : ApiVisibilityResult :=
  if equivalent then .equivalent else .different

namespace ApiVisibilityComparator

/-- `ApiVisibilityComparator::capture_view`. -/
def captureView (limits : ApiVisibilityLimits) (contextId resourceScopeId : String)
    (surface : ApiSurfaceKind) (status : Nat) (snapshot : Value F) :
    Except ApiVisibilityEvidenceError ApiVisibilityView := do
  let contextId ← opaqueHandle contextId "context id"
  let resourceScopeId ← opaqueHandle resourceScopeId "resource scope id"
  if ¬ (100 ≤ status ∧ status ≤ 599) then throw (.invalidHttpStatus status)
  let signatures ← canonicalSignatures showFloat sha256 snapshot limits
  return {
    contextId, resourceScopeId, surface, status, limits
    resourceSignature := signatures.resource
    fieldSignature := signatures.fields }

/-- `ApiVisibilityComparator::compare`. -/
def compare (limits : ApiVisibilityLimits) (comparisonId : String) (pair : ApiVisibilityPairKind)
    (dimension : ApiVisibilityDimension) (baseline candidate : ApiVisibilityView)
    (observedAtMs : Nat) : Except ApiVisibilityEvidenceError ApiVisibilityComparison := do
  if baseline.limits ≠ limits ∨ candidate.limits ≠ limits then throw .limitsMismatch
  if baseline.contextId = candidate.contextId then throw .identicalContexts
  if baseline.resourceScopeId ≠ candidate.resourceScopeId then throw .resourceScopeMismatch
  if baseline.surface ≠ candidate.surface then throw .surfaceMismatch
  (ApiVisibilityComparison.new comparisonId baseline.surface pair
    (.ofEquivalent (ApiVisibilityView.equivalent dimension baseline candidate)) dimension baseline.contextId.value
    candidate.contextId.value baseline.resourceScopeId.value observedAtMs).mapError .vocabulary

end ApiVisibilityComparator

end Termivar.ApiEvidence
