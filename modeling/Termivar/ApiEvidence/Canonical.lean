/-
# Projected tree hashing

`termivar-scanner/src/api_evidence/profiled/canonical.rs` and the fingerprints
of `diff.rs`: a visit of the snapshot under a profile leaves out what is ignored
or not relevant, hashes what is kept from the leaves up, once with its values
and once with its types, collects the types and scalars found under each
structural path, and notes whether something selected is there.

A hasher is the bytes it was given; only what is written after the domain counts
towards the limit.
-/
import Termivar.ApiEvidence.Profile

namespace Termivar.ApiEvidence

def resourceNodeDomain : Bytes := utf8Bytes "venom.api-visibility.resource-node.v2\x00"
def fieldNodeDomain : Bytes := utf8Bytes "venom.api-visibility.field-node.v2\x00"
def pathDigestDomain : Bytes := utf8Bytes "venom.api-visibility.path.v2\x00"
def scalarValueDomain : Bytes := utf8Bytes "venom.api-visibility.scalar-value.v2\x00"

/-! ### Fingerprints -/

/-- The types and the scalars under a path. -/
structure PathFingerprint where
  typeMask : Nat
  scalarValueDigests : List Bytes

namespace PathFingerprint

def new (typeMask : Nat) (scalarValueDigest : Option Bytes) : PathFingerprint :=
  ⟨typeMask, scalarValueDigest.toList⟩

def merge (self other : PathFingerprint) : PathFingerprint :=
  ⟨self.typeMask ||| other.typeMask, self.scalarValueDigests ++ other.scalarValueDigests⟩

def canonicalize (self : PathFingerprint) : PathFingerprint :=
  { self with scalarValueDigests := self.scalarValueDigests.insertionSort TreeHash.bytesLe }

end PathFingerprint

abbrev PathIndex : Type := BTreeMap Bytes PathFingerprint

variable {F : Type} (showFloat : F → String) (sha256 : Bytes → Bytes)

/-- The bit of a value's type, and the text of a scalar. -/
def typeAndScalar : Value F → Nat × Option Bytes
  | .null => (1 <<< 0, some (utf8Bytes "null"))
  | .bool value => (1 <<< 1, some (utf8Bytes (if value then "true" else "false")))
  | .number value =>
    (if value.isInteger then 1 <<< 2 else 1 <<< 3, some (utf8Bytes (value.show showFloat)))
  | .string value => (1 <<< 4, some (utf8Bytes value))
  | .array _ => (1 <<< 5, none)
  | .object _ => (1 <<< 6, none)

def fingerprint (value : Value F) : Nat × Option Bytes :=
  let (mask, scalar) := typeAndScalar showFloat value
  (mask, scalar.map fun text => sha256 (scalarValueDomain ++ frame 8 text))

def digestPath (tokens : List String) : Bytes :=
  sha256 (pathDigestDomain ++ beBytes 8 tokens.length ++ tokens.flatMap framedText)

/-! ### Hashers -/

inductive ProfiledStream where
  | resources
  | fields

def ProfiledStream.name : ProfiledStream → String
  | .resources => "profiled-resources"
  | .fields => "profiled-fields"

structure NodeDigests where
  (resource fields : Bytes)

structure ProfiledCanonicalState where
  (resourceWritten fieldsWritten : Nat)
  pathIndex : PathIndex
  materialSelectedValue : Bool

namespace ProfiledCanonicalState

def new : ProfiledCanonicalState := ⟨0, 0, ∅, false⟩

variable (limits : ApiVisibilityLimits)

def writeProfiled (stream : ProfiledStream) (written : Nat) (bytes : Bytes) :
    Except ProfiledApiVisibilityError Nat :=
  let observed := saturatingAdd u64Max written bytes.length
  if observed > limits.maxCanonicalBytes then
    .error (.evidence (.canonicalBytesLimitExceeded stream.name limits.maxCanonicalBytes observed))
  else .ok observed

/-- One write to a hasher of a stream. -/
def writeStream (stream : ProfiledStream) (bytes : Bytes)
    (hasher : Bytes × ProfiledCanonicalState) :
    Except ProfiledApiVisibilityError (Bytes × ProfiledCanonicalState) := do
  let (hashed, state) := hasher
  match stream with
  | .resources =>
    let written ← writeProfiled limits .resources state.resourceWritten bytes
    return (hashed ++ bytes, { state with resourceWritten := written })
  | .fields =>
    let written ← writeProfiled limits .fields state.fieldsWritten bytes
    return (hashed ++ bytes, { state with fieldsWritten := written })

def writeStreamLen (stream : ProfiledStream) (length : Nat)
    (hasher : Bytes × ProfiledCanonicalState) :
    Except ProfiledApiVisibilityError (Bytes × ProfiledCanonicalState) :=
  writeStream limits stream (beBytes 8 length) hasher

/-- Byte strings written one after the other. -/
def writeAll (stream : ProfiledStream) (chunks : List Bytes)
    (hasher : Bytes × ProfiledCanonicalState) :
    Except ProfiledApiVisibilityError (Bytes × ProfiledCanonicalState) :=
  chunks.foldlM (fun hasher bytes => writeStream limits stream bytes hasher) hasher

/-- The text of a scalar, if it has one, behind its length. -/
def writeValue (value : Option Bytes) (hasher : Bytes × ProfiledCanonicalState) :
    Except ProfiledApiVisibilityError (Bytes × ProfiledCanonicalState) :=
  match value with
  | none => .ok hasher
  | some text => do
    let hasher ← writeStreamLen limits .resources text.length hasher
    writeStream limits .resources text hasher

def scalarNode (resourceType fieldType : String) (value : Option Bytes)
    (state : ProfiledCanonicalState) :
    Except ProfiledApiVisibilityError (NodeDigests × ProfiledCanonicalState) := do
  let hasher ← writeStream limits .resources (utf8Bytes resourceType) (resourceNodeDomain, state)
  let (resource, state) ← writeValue limits value hasher
  let (fields, state) ← writeStream limits .fields (utf8Bytes fieldType) (fieldNodeDomain, state)
  return (⟨sha256 resource, sha256 fields⟩, state)

def containerHash (domain : Bytes) (containerType orderTag : String)
    (children : List Bytes) (stream : ProfiledStream) (state : ProfiledCanonicalState) :
    Except ProfiledApiVisibilityError (Bytes × ProfiledCanonicalState) := do
  let hasher ← writeStream limits stream (utf8Bytes containerType) (domain, state)
  let hasher ← writeStream limits stream (utf8Bytes orderTag) hasher
  let hasher ← writeStreamLen limits stream children.length hasher
  let (hashed, state) ← writeAll limits stream children hasher
  return (sha256 hashed, state)

def orderTag (unordered : Bool) : String := if unordered then "unordered" else "ordered"

def arrayNode (children : List NodeDigests) (unordered : Bool) (state : ProfiledCanonicalState) :
    Except ProfiledApiVisibilityError (NodeDigests × ProfiledCanonicalState) := do
  let resourceChildren := TreeHash.arrange unordered (children.map NodeDigests.resource)
  let fieldChildren := TreeHash.arrange unordered (children.map NodeDigests.fields)
  let (resource, state) ← containerHash sha256 limits resourceNodeDomain "array"
    (orderTag unordered) resourceChildren .resources state
  let (fields, state) ← containerHash sha256 limits fieldNodeDomain "array"
    (orderTag unordered) fieldChildren .fields state
  return (⟨resource, fields⟩, state)

/-- What is written for one member, to both hashers. -/
def writeMember (hashers : Bytes × Bytes × ProfiledCanonicalState)
    (child : String × NodeDigests) :
    Except ProfiledApiVisibilityError (Bytes × Bytes × ProfiledCanonicalState) := do
  let (resource, fields, state) := hashers
  let key := utf8Bytes child.1
  let hasher ← writeStreamLen limits .resources key.length (resource, state)
  let hasher ← writeStream limits .resources key hasher
  let (resource, state) ← writeStream limits .resources child.2.resource hasher
  let hasher ← writeStreamLen limits .fields key.length (fields, state)
  let hasher ← writeStream limits .fields key hasher
  let (fields, state) ← writeStream limits .fields child.2.fields hasher
  return (resource, fields, state)

def objectNode (children : List (String × NodeDigests)) (state : ProfiledCanonicalState) :
    Except ProfiledApiVisibilityError (NodeDigests × ProfiledCanonicalState) := do
  let hasher ← writeStream limits .resources (utf8Bytes "object") (resourceNodeDomain, state)
  let (resource, state) ← writeStreamLen limits .resources children.length hasher
  let hasher ← writeStream limits .fields (utf8Bytes "object") (fieldNodeDomain, state)
  let (fields, state) ← writeStreamLen limits .fields children.length hasher
  let (resource, fields, state) ← children.foldlM (writeMember limits) (resource, fields, state)
  return (⟨sha256 resource, sha256 fields⟩, state)

/-! ### The visit -/

variable (profile : ApiComparisonProfile sha256)

/-- The fingerprint of a value, under its structural path. -/
def index (structural : List String) (value : Value F) (state : ProfiledCanonicalState) :
    ProfiledCanonicalState :=
  if structural = [] then state
  else
    let (typeMask, scalarValueDigest) := fingerprint showFloat sha256 value
    let digest := digestPath sha256 structural
    let entry := PathFingerprint.new typeMask scalarValueDigest
    let merged := (state.pathIndex[digest]?.map fun existing => existing.merge entry).getD entry
    { state with pathIndex := state.pathIndex.insert digest merged }

/-- What a visit of every value does around the part that depends on its type:
`body` gives its node, and whether something is there. -/
def visitNode (actual structural : List String) (value : Value F)
    (body : ProfiledCanonicalState →
      Except ProfiledApiVisibilityError (NodeDigests × Bool × ProfiledCanonicalState))
    (state : ProfiledCanonicalState) :
    Except ProfiledApiVisibilityError (Option NodeDigests × ProfiledCanonicalState) :=
  if profile.isIgnored actual || !profile.isRelevant actual then .ok (none, state)
  else do
    let (node, materialHere, state) ← body (index showFloat sha256 structural value state)
    return (some node, { state with
      materialSelectedValue :=
        state.materialSelectedValue || (profile.isSelectedRoot actual && materialHere) })

mutual

/-- `ProfiledCanonicalState::visit`, of a value whose members are sorted. -/
def visit (actual structural : List String) (state : ProfiledCanonicalState) : Value F →
    Except ProfiledApiVisibilityError (Option NodeDigests × ProfiledCanonicalState)
  | .null => visitNode showFloat sha256 profile actual structural .null (fun state => do
      let (node, state) ← scalarNode sha256 limits "null" "null" none state
      return (node, false, state)) state
  | .bool value => visitNode showFloat sha256 profile actual structural (.bool value) (fun state => do
      let (node, state) ← scalarNode sha256 limits "bool" "bool"
        (some (utf8Bytes (if value then "true" else "false"))) state
      return (node, true, state)) state
  | .number value => visitNode showFloat sha256 profile actual structural (.number value)
      (fun state => do
        let fieldType := if value.isInteger then "integer" else "number"
        let (node, state) ← scalarNode sha256 limits "number" fieldType
          (some (utf8Bytes (value.show showFloat))) state
        return (node, true, state)) state
  | .string value => visitNode showFloat sha256 profile actual structural (.string value)
      (fun state => do
        let (node, state) ← scalarNode sha256 limits "string" "string" (some (utf8Bytes value)) state
        return (node, true, state)) state
  | .array items => visitNode showFloat sha256 profile actual structural (.array items)
      (fun state => do
        let (children, state) ← visitItems actual structural 0 state items
        let (node, state) ←
          arrayNode sha256 limits children (profile.isUnorderedArray actual) state
        return (node, !children.isEmpty, state)) state
  | .object members => visitNode showFloat sha256 profile actual structural (.object members)
      (fun state => do
        let (children, state) ← visitMembers actual structural state members
        let (node, state) ← objectNode sha256 limits children state
        return (node, !children.isEmpty, state)) state

def visitItems (actual structural : List String) (position : Nat) (state : ProfiledCanonicalState) :
    List (Value F) →
    Except ProfiledApiVisibilityError (List NodeDigests × ProfiledCanonicalState)
  | [] => .ok ([], state)
  | item :: items => do
    let (child, state) ← visit (actual ++ [toString position]) (structural ++ ["*"]) state item
    let (children, state) ← visitItems actual structural (position + 1) state items
    return (child.toList ++ children, state)

def visitMembers (actual structural : List String) (state : ProfiledCanonicalState) :
    List (String × Value F) →
    Except ProfiledApiVisibilityError (List (String × NodeDigests) × ProfiledCanonicalState)
  | [] => .ok ([], state)
  | (name, item) :: members => do
    let (child, state) ← visit (actual ++ [name]) (structural ++ [name]) state item
    let (children, state) ← visitMembers actual structural state members
    return ((child.map fun node => (name, node)).toList ++ children, state)

end

/-- The root of a document, bound to the versions and the policy. -/
def bindRootSignature (domain root : Bytes) (stream : ProfiledStream)
    (state : ProfiledCanonicalState) :
    Except ProfiledApiVisibilityError (Bytes × ProfiledCanonicalState) := do
  let hasher ← writeStream limits stream (utf8Bytes currentApiComparisonAlgorithmVersion.asStr)
    (domain, state)
  let hasher ← writeStream limits stream
    (utf8Bytes currentApiVisibilityCanonicalizationVersion.asStr) hasher
  let hasher ← writeStream limits stream profile.projectionPolicyId hasher
  let (hashed, state) ← writeStream limits stream root hasher
  return (sha256 hashed, state)

end ProfiledCanonicalState

structure ProfiledCanonicalResult where
  (resource fields : Bytes)
  pathIndex : PathIndex
  materialSelectedValue : Bool

open ProfiledCanonicalState in
/-- `ProfiledCanonicalState::capture`. -/
def ProfiledCanonicalState.capture (limits : ApiVisibilityLimits)
    (profile : ApiComparisonProfile sha256) (snapshot : Value F) :
    Except ProfiledApiVisibilityError ProfiledCanonicalResult := do
  let (visited, state) ← visit showFloat sha256 limits profile [] [] new snapshot.sorted
  -- the omitted node is hashed, and counted, whether it is needed or not
  let (omitted, state) ← scalarNode sha256 limits "omitted" "omitted" none state
  let root := visited.getD omitted
  let (resource, state) ← bindRootSignature sha256 limits profile resourceNodeDomain root.resource
    .resources state
  let (fields, state) ← bindRootSignature sha256 limits profile fieldNodeDomain root.fields
    .fields state
  return {
    resource, fields
    pathIndex := state.pathIndex.map fun _ entry => entry.canonicalize
    materialSelectedValue := state.materialSelectedValue }

end Termivar.ApiEvidence
