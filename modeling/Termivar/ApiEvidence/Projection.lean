/-
# What a projected capture computes

The projection of a snapshot under a profile is a tree: ignored subtrees and
what is not relevant are left out, and the arrays whose order does not matter
are marked. A visit hashes the projection (`visit_ok`), so without collisions
the signatures of two captures tell whether their projections are alike
(`resource_alike_iff`, `field_alike_iff`). A visit adds the entries of the
snapshot to the path index, and notes whether something selected is there.
-/
import Termivar.ApiEvidence.Canonical

namespace Termivar.ApiEvidence

open ProfiledCanonicalState List

open TreeHash (Doc HashScheme digest digests nodeBytes arrange rootDigest rootHashed)

variable {F : Type} {showFloat : F → String} {sha256 : Bytes → Bytes}
  {limits : ApiVisibilityLimits}

/-! ### Hashers -/

namespace ProfiledCanonicalState

variable {before after : ProfiledCanonicalState}

/-- Only the counts of what was written may differ. -/
structure Kept (before after : ProfiledCanonicalState) : Prop where
  pathIndex : after.pathIndex = before.pathIndex
  material : after.materialSelectedValue = before.materialSelectedValue

theorem Kept.refl (state : ProfiledCanonicalState) : Kept state state := ⟨rfl, rfl⟩

theorem Kept.trans {middle : ProfiledCanonicalState} (h : Kept before middle)
    (h' : Kept middle after) : Kept before after :=
  ⟨h'.pathIndex.trans h.pathIndex, h'.material.trans h.material⟩

theorem writeStream_ok {stream : ProfiledStream} {bytes hashed hashed' : Bytes}
    (h : writeStream limits stream bytes (hashed, before) = .ok (hashed', after)) :
    hashed' = hashed ++ bytes ∧ Kept before after := by
  cases stream <;>
  · obtain ⟨written, -, h⟩ := bind_ok h
    cases h
    exact ⟨rfl, rfl, rfl⟩

theorem writeStreamLen_ok {stream : ProfiledStream} {length : Nat} {hashed hashed' : Bytes}
    (h : writeStreamLen limits stream length (hashed, before) = .ok (hashed', after)) :
    hashed' = hashed ++ beBytes 8 length ∧ Kept before after :=
  writeStream_ok h

theorem writeAll_ok {stream : ProfiledStream} : ∀ {chunks : List Bytes}
    {hashed hashed' : Bytes} {before after : ProfiledCanonicalState},
    writeAll limits stream chunks (hashed, before) = .ok (hashed', after) →
    hashed' = hashed ++ chunks.flatten ∧ Kept before after
  | [], hashed, hashed', before, after, h => by
    cases h
    exact ⟨(append_nil _).symm, Kept.refl _⟩
  | bytes :: chunks, hashed, hashed', before, after, h => by
    rw [writeAll, foldlM_cons] at h
    obtain ⟨⟨middle, state⟩, hfirst, h⟩ := bind_ok h
    obtain ⟨rfl, hkept⟩ := writeStream_ok hfirst
    obtain ⟨rfl, hkept'⟩ := writeAll_ok h
    exact ⟨by simp, hkept.trans hkept'⟩

theorem writeValue_ok {value : Option Bytes} {hashed hashed' : Bytes}
    (h : writeValue limits value (hashed, before) = .ok (hashed', after)) :
    hashed' = hashed ++ (value.map (frame 8)).getD [] ∧ Kept before after := by
  cases value with
  | none =>
    cases h
    exact ⟨(append_nil _).symm, Kept.refl _⟩
  | some text =>
    obtain ⟨⟨middle, state⟩, hlength, h⟩ := bind_ok h
    obtain ⟨rfl, hkept⟩ := writeStreamLen_ok hlength
    obtain ⟨rfl, hkept'⟩ := writeStream_ok h
    exact ⟨by simp [frame], hkept.trans hkept'⟩

theorem scalarNode_ok {resourceType fieldType : String} {value : Option Bytes}
    {node : NodeDigests}
    (h : scalarNode sha256 limits resourceType fieldType value before = .ok (node, after)) :
    node = ⟨sha256 (resourceNodeDomain ++ (utf8Bytes resourceType ++ (value.map (frame 8)).getD [])),
      sha256 (fieldNodeDomain ++ utf8Bytes fieldType)⟩ ∧ Kept before after := by
  obtain ⟨⟨resource, state⟩, hrsrc, h⟩ := bind_ok h
  obtain ⟨⟨resource', state'⟩, hvalue, h⟩ := bind_ok h
  obtain ⟨⟨fields, state''⟩, hfields, h⟩ := bind_ok h
  cases h
  obtain ⟨rfl, hkept⟩ := writeStream_ok hrsrc
  obtain ⟨rfl, hkept'⟩ := writeValue_ok hvalue
  obtain ⟨rfl, hkept''⟩ := writeStream_ok hfields
  exact ⟨by simp, hkept.trans (hkept'.trans hkept'')⟩

theorem containerHash_ok {domain hashed : Bytes} {containerType orderTag : String}
    {children : List Bytes} {stream : ProfiledStream}
    (h : containerHash sha256 limits domain containerType orderTag children stream before =
      .ok (hashed, after)) :
    hashed = sha256 (domain ++ (utf8Bytes containerType ++ utf8Bytes orderTag ++
      beBytes 8 children.length ++ children.flatten)) ∧ Kept before after := by
  obtain ⟨⟨first, s1⟩, h1, h⟩ := bind_ok h
  obtain ⟨⟨second, s2⟩, h2, h⟩ := bind_ok h
  obtain ⟨⟨third, s3⟩, h3, h⟩ := bind_ok h
  obtain ⟨⟨fourth, s4⟩, h4, h⟩ := bind_ok h
  cases h
  obtain ⟨rfl, k1⟩ := writeStream_ok h1
  obtain ⟨rfl, k2⟩ := writeStream_ok h2
  obtain ⟨rfl, k3⟩ := writeStreamLen_ok h3
  obtain ⟨rfl, k4⟩ := writeAll_ok h4
  exact ⟨by simp, k1.trans (k2.trans (k3.trans k4))⟩

theorem arrayNode_ok {children : List NodeDigests} {unordered : Bool} {node : NodeDigests}
    (h : arrayNode sha256 limits children unordered before = .ok (node, after)) :
    node = ⟨ sha256 (resourceNodeDomain ++ (utf8Bytes "array" ++ utf8Bytes (orderTag unordered) ++
        beBytes 8 children.length ++
        (arrange unordered (children.map NodeDigests.resource)).flatten)),
      sha256 (fieldNodeDomain ++ (utf8Bytes "array" ++ utf8Bytes (orderTag unordered) ++
        beBytes 8 children.length ++
        (arrange unordered (children.map NodeDigests.fields)).flatten))⟩ ∧ Kept before after := by
  obtain ⟨⟨resource, s1⟩, h1, h⟩ := bind_ok h
  obtain ⟨⟨fields, s2⟩, h2, h⟩ := bind_ok h
  cases h
  obtain ⟨rfl, k1⟩ := containerHash_ok h1
  obtain ⟨rfl, k2⟩ := containerHash_ok h2
  exact ⟨by simp only [TreeHash.length_arrange, length_map], k1.trans k2⟩

/-- What is written for the members, in one stream. -/
def childBytes (part : NodeDigests → Bytes) (children : List (String × NodeDigests)) :
    Bytes :=
  children.flatMap fun child => frame 8 (utf8Bytes child.1) ++ part child.2

theorem writeMembers_ok : ∀ {children : List (String × NodeDigests)}
    {resource resource' fields fields' : Bytes} {before after : ProfiledCanonicalState},
    children.foldlM (writeMember limits) (resource, fields, before) =
      .ok (resource', fields', after) →
    resource' = resource ++ childBytes NodeDigests.resource children ∧
      fields' = fields ++ childBytes NodeDigests.fields children ∧ Kept before after
  | [], _, _, _, _, _, _, h => by
    cases h
    exact ⟨(append_nil _).symm, (append_nil _).symm, Kept.refl _⟩
  | child :: children, _, _, _, _, _, _, h => by
    rw [foldlM_cons] at h
    obtain ⟨⟨resource, fields, state⟩, hmbr, h⟩ := bind_ok h
    obtain ⟨⟨r1, s1⟩, h1, hmbr⟩ := bind_ok hmbr
    obtain ⟨⟨r2, s2⟩, h2, hmbr⟩ := bind_ok hmbr
    obtain ⟨⟨r3, s3⟩, h3, hmbr⟩ := bind_ok hmbr
    obtain ⟨⟨f1, s4⟩, h4, hmbr⟩ := bind_ok hmbr
    obtain ⟨⟨f2, s5⟩, h5, hmbr⟩ := bind_ok hmbr
    obtain ⟨⟨f3, s6⟩, h6, hmbr⟩ := bind_ok hmbr
    cases hmbr
    obtain ⟨rfl, k1⟩ := writeStreamLen_ok h1
    obtain ⟨rfl, k2⟩ := writeStream_ok h2
    obtain ⟨rfl, k3⟩ := writeStream_ok h3
    obtain ⟨rfl, k4⟩ := writeStreamLen_ok h4
    obtain ⟨rfl, k5⟩ := writeStream_ok h5
    obtain ⟨rfl, k6⟩ := writeStream_ok h6
    obtain ⟨rfl, rfl, k7⟩ := writeMembers_ok h
    exact ⟨by simp [childBytes, frame], by simp [childBytes, frame],
      k1.trans (k2.trans (k3.trans (k4.trans (k5.trans (k6.trans k7)))))⟩

theorem objectNode_ok {children : List (String × NodeDigests)} {node : NodeDigests}
    (h : objectNode sha256 limits children before = .ok (node, after)) :
    node = ⟨ sha256 (resourceNodeDomain ++ (utf8Bytes "object" ++ beBytes 8 children.length ++
        childBytes NodeDigests.resource children)),
      sha256 (fieldNodeDomain ++ (utf8Bytes "object" ++ beBytes 8 children.length ++
        childBytes NodeDigests.fields children))⟩ ∧ Kept before after := by
  obtain ⟨⟨r1, s1⟩, h1, h⟩ := bind_ok h
  obtain ⟨⟨r2, s2⟩, h2, h⟩ := bind_ok h
  obtain ⟨⟨f1, s3⟩, h3, h⟩ := bind_ok h
  obtain ⟨⟨f2, s4⟩, h4, h⟩ := bind_ok h
  obtain ⟨⟨r3, f3, s5⟩, h5, h⟩ := bind_ok h
  cases h
  obtain ⟨rfl, k1⟩ := writeStream_ok h1
  obtain ⟨rfl, k2⟩ := writeStreamLen_ok h2
  obtain ⟨rfl, k3⟩ := writeStream_ok h3
  obtain ⟨rfl, k4⟩ := writeStreamLen_ok h4
  obtain ⟨rfl, rfl, k5⟩ := writeMembers_ok h5
  exact ⟨by simp, k1.trans (k2.trans (k3.trans (k4.trans k5)))⟩

theorem bindRootSignature_ok {profile : ApiComparisonProfile sha256} {domain root hashed : Bytes}
    {stream : ProfiledStream}
    (h : bindRootSignature sha256 limits profile domain root stream before = .ok (hashed, after)) :
    hashed = sha256 (domain ++ (utf8Bytes currentApiComparisonAlgorithmVersion.asStr ++
      utf8Bytes currentApiVisibilityCanonicalizationVersion.asStr ++
      profile.projectionPolicyId ++ root)) ∧ Kept before after := by
  obtain ⟨⟨h1', s1⟩, h1, h⟩ := bind_ok h
  obtain ⟨⟨h2', s2⟩, h2, h⟩ := bind_ok h
  obtain ⟨⟨h3', s3⟩, h3, h⟩ := bind_ok h
  obtain ⟨⟨h4', s4⟩, h4, h⟩ := bind_ok h
  cases h
  obtain ⟨rfl, k1⟩ := writeStream_ok h1
  obtain ⟨rfl, k2⟩ := writeStream_ok h2
  obtain ⟨rfl, k3⟩ := writeStream_ok h3
  obtain ⟨rfl, k4⟩ := writeStream_ok h4
  exact ⟨by simp, k1.trans (k2.trans (k3.trans k4))⟩

end ProfiledCanonicalState

/-! ### How nodes are written -/

def shownNodeBytes : Shown → Bytes
  | .null => utf8Bytes "null"
  | .bool value => utf8Bytes "bool" ++ frame 8 (utf8Bytes (if value then "true" else "false"))
  | .number text => utf8Bytes "number" ++ frame 8 (utf8Bytes text)
  | .string value => utf8Bytes "string" ++ frame 8 (utf8Bytes value)

def kindNodeBytes : Kind → Bytes
  | .null => utf8Bytes "null"
  | .bool => utf8Bytes "bool"
  | .integer => utf8Bytes "integer"
  | .number => utf8Bytes "number"
  | .string => utf8Bytes "string"

def arrayBytes (unordered : Bool) : Bytes :=
  utf8Bytes "array" ++ utf8Bytes (orderTag unordered)

/-- The types that nodes start with. -/
theorem utf8Bytes_types : utf8Bytes "null" = [110, 117, 108, 108] ∧
    utf8Bytes "bool" = [98, 111, 111, 108] ∧
    utf8Bytes "integer" = [105, 110, 116, 101, 103, 101, 114] ∧
    utf8Bytes "number" = [110, 117, 109, 98, 101, 114] ∧
    utf8Bytes "string" = [115, 116, 114, 105, 110, 103] := by
  decide

theorem utf8Bytes_containers : utf8Bytes "array" = [97, 114, 114, 97, 121] ∧
    utf8Bytes "object" = [111, 98, 106, 101, 99, 116] ∧
    utf8Bytes "ordered" = [111, 114, 100, 101, 114, 101, 100] ∧
    utf8Bytes "unordered" = [117, 110, 111, 114, 100, 101, 114, 101, 100] := by
  decide

theorem frame_inj {width : Nat} {left right : Bytes}
    (h : frame width left = frame width right) : left = right :=
  (append_inj h (by simp)).2

theorem shownNodeBytes_injective : Function.Injective shownNodeBytes := by
  obtain ⟨hnull, hbool, -, hnumber, hstring⟩ := utf8Bytes_types
  intro left right h
  cases left <;> cases right <;>
    simp only [shownNodeBytes, hnull, hbool, hnumber, hstring, cons_append, nil_append,
      cons.injEq, true_and, reduceCtorEq] at h ⊢
  case bool.bool value value' =>
    have htext := utf8Bytes_injective (frame_inj h)
    cases value <;> cases value' <;> simp_all
  case number.number | string.string =>
    rw [utf8Bytes_injective (frame_inj h)]
  all_goals simp_all

theorem kindNodeBytes_injective : Function.Injective kindNodeBytes := by
  intro left right h
  revert h
  cases left <;> cases right <;> decide

theorem arrayBytes_apart (rest rest' : Bytes) :
    arrayBytes true ++ rest ≠ arrayBytes false ++ rest' := by
  obtain ⟨harray, -, hord, hunor⟩ := utf8Bytes_containers
  simp [arrayBytes, orderTag, harray, hord, hunor]

theorem arrayBytes_ne_object (unordered : Bool) (rest rest' : Bytes) :
    arrayBytes unordered ++ rest ≠ utf8Bytes "object" ++ rest' := by
  obtain ⟨harray, hobject, -, -⟩ := utf8Bytes_containers
  simp [arrayBytes, harray, hobject]

/-- The nodes of the stream of values. -/
def shownNodes : HashScheme Shown where
  leaf := shownNodeBytes
  array := arrayBytes
  object := utf8Bytes "object"
  leaf_injective := shownNodeBytes_injective
  array_apart := arrayBytes_apart
  leaf_array label unordered rest := by
    obtain ⟨hnull, hbool, -, hnumber, hstring⟩ := utf8Bytes_types
    obtain ⟨harray, -, -, -⟩ := utf8Bytes_containers
    cases label <;> simp [shownNodeBytes, arrayBytes, hnull, hbool, hnumber, hstring, harray]
  leaf_object label rest := by
    obtain ⟨hnull, hbool, -, hnumber, hstring⟩ := utf8Bytes_types
    obtain ⟨-, hobject, -, -⟩ := utf8Bytes_containers
    cases label <;> simp [shownNodeBytes, hnull, hbool, hnumber, hstring, hobject]
  array_object := arrayBytes_ne_object

/-- The nodes of the stream of types. -/
def kindNodes : HashScheme Kind where
  leaf := kindNodeBytes
  array := arrayBytes
  object := utf8Bytes "object"
  leaf_injective := kindNodeBytes_injective
  array_apart := arrayBytes_apart
  leaf_array label unordered rest := by
    obtain ⟨hnull, hbool, hinteger, hnumber, hstring⟩ := utf8Bytes_types
    obtain ⟨harray, -, -, -⟩ := utf8Bytes_containers
    cases label <;>
      simp [kindNodeBytes, arrayBytes, hnull, hbool, hinteger, hnumber, hstring, harray]
  leaf_object label rest := by
    obtain ⟨hnull, hbool, hinteger, hnumber, hstring⟩ := utf8Bytes_types
    obtain ⟨-, hobject, -, -⟩ := utf8Bytes_containers
    cases label <;> simp [kindNodeBytes, hnull, hbool, hinteger, hnumber, hstring, hobject]
  array_object := arrayBytes_ne_object

def resourceHash (sha256 : Bytes → Bytes) (bytes : Bytes) : Bytes :=
  sha256 (resourceNodeDomain ++ bytes)

def fieldHash (sha256 : Bytes → Bytes) (bytes : Bytes) : Bytes :=
  sha256 (fieldNodeDomain ++ bytes)

/-- The digests of a projected document, of its values and of its types. -/
def docDigests (showFloat : F → String) (sha256 : Bytes → Bytes) (doc : Doc (Scalar F)) :
    NodeDigests where
  resource := digest shownNodes (resourceHash sha256) (doc.map (Scalar.shown showFloat))
  fields := digest kindNodes (fieldHash sha256) (doc.map Scalar.kind)

/-! ### Projections -/

variable (profile : ApiComparisonProfile sha256)

/-- The path is neither ignored nor irrelevant. -/
def ApiComparisonProfile.keeps (path : List String) : Bool :=
  !(profile.isIgnored path || !profile.isRelevant path)

namespace Value

mutual

/-- What a profile keeps of a value. -/
def project (path : List String) : Value F → Option (Doc (Scalar F))
  | .null => if profile.keeps path then some (.leaf .null) else none
  | .bool value => if profile.keeps path then some (.leaf (.bool value)) else none
  | .number value => if profile.keeps path then some (.leaf (.number value)) else none
  | .string value => if profile.keeps path then some (.leaf (.string value)) else none
  | .array items =>
    if profile.keeps path then
      some (.array (profile.isUnorderedArray path) (projectItems path 0 items))
    else none
  | .object members =>
    if profile.keeps path then some (.object (projectMembers path members)) else none

def projectItems (path : List String) (position : Nat) : List (Value F) → List (Doc (Scalar F))
  | [] => []
  | item :: items => (project (path ++ [toString position]) item).toList ++
      projectItems path (position + 1) items

def projectMembers (path : List String) :
    List (String × Value F) → List (String × Doc (Scalar F))
  | [] => []
  | (name, item) :: members => ((project (path ++ [name]) item).map (Prod.mk name)).toList ++
      projectMembers path members

end

/-- Something is there: neither null, nor a container of which nothing is kept. -/
def present (path : List String) : Value F → Bool
  | .null => false
  | .array items => !(projectItems profile path 0 items).isEmpty
  | .object members => !(projectMembers profile path members).isEmpty
  | _ => true

mutual

/-- Something is there at a selected path, in what is kept. -/
def material (path : List String) : Value F → Bool
  | .array items => profile.keeps path && (profile.isSelectedRoot path &&
      present profile path (.array items) || materialItems path 0 items)
  | .object members => profile.keeps path && (profile.isSelectedRoot path &&
      present profile path (.object members) || materialMembers path members)
  | value => profile.keeps path && (profile.isSelectedRoot path && present profile path value)

def materialItems (path : List String) (position : Nat) : List (Value F) → Bool
  | [] => false
  | item :: items => material (path ++ [toString position]) item ||
      materialItems path (position + 1) items

def materialMembers (path : List String) : List (String × Value F) → Bool
  | [] => false
  | (name, item) :: members => material (path ++ [name]) item || materialMembers path members

end

/-- The entry of a value itself. The root has none. -/
def ownEntry (sha256 : Bytes → Bytes) (showFloat : F → String) (structural : List String) (value : Value F) :
    List (List String × PathFingerprint) :=
  if structural = [] then []
  else
    let (typeMask, scalarValueDigest) := fingerprint showFloat sha256 value
    [(structural, .new typeMask scalarValueDigest)]

mutual

/-- The entries that a visit adds, under their structural paths. -/
def entries (showFloat : F → String) (path structural : List String) :
    Value F → List (List String × PathFingerprint)
  | .array items =>
    if profile.keeps path then
      ownEntry sha256 showFloat structural (.array items) ++
        entriesItems showFloat path structural 0 items
    else []
  | .object members =>
    if profile.keeps path then
      ownEntry sha256 showFloat structural (.object members) ++
        entriesMembers showFloat path structural members
    else []
  | value =>
    if profile.keeps path then ownEntry sha256 showFloat structural value else []

def entriesItems (showFloat : F → String) (path structural : List String) (position : Nat) :
    List (Value F) → List (List String × PathFingerprint)
  | [] => []
  | item :: items =>
    entries showFloat (path ++ [toString position]) (structural ++ ["*"]) item ++
      entriesItems showFloat path structural (position + 1) items

def entriesMembers (showFloat : F → String) (path structural : List String) :
    List (String × Value F) → List (List String × PathFingerprint)
  | [] => []
  | (name, item) :: members =>
    entries showFloat (path ++ [name]) (structural ++ [name]) item ++
      entriesMembers showFloat path structural members

end

end Value

/-! ### What a visit computes -/

/-- One entry added to a path index. -/
def addEntry (sha256 : Bytes → Bytes) (index : PathIndex)
    (entry : List String × PathFingerprint) : PathIndex :=
  let path := digestPath sha256 entry.1
  index.insert path ((index[path]?.map fun existing => existing.merge entry.2).getD entry.2)

namespace ProfiledCanonicalState

open Value

/-- A visit adds entries to the path index, and notes whether something selected
is there. -/
structure Adds (sha256 : Bytes → Bytes) (before after : ProfiledCanonicalState)
    (entries : List (List String × PathFingerprint)) (material : Bool) : Prop where
  pathIndex : after.pathIndex = entries.foldl (addEntry sha256) before.pathIndex
  material : after.materialSelectedValue = (before.materialSelectedValue || material)

variable {profile} {before middle after : ProfiledCanonicalState}

theorem Adds.trans {entries entries' : List (List String × PathFingerprint)}
    {material material' : Bool} (h : Adds sha256 before middle entries material)
    (h' : Adds sha256 middle after entries' material') :
    Adds sha256 before after (entries ++ entries') (material || material') where
  pathIndex := by rw [h'.pathIndex, h.pathIndex, foldl_append]
  material := by rw [h'.material, h.material, Bool.or_assoc]

theorem Kept.adds (h : Kept before after) : Adds sha256 before after [] false :=
  ⟨h.pathIndex, by rw [h.material, Bool.or_false]⟩

theorem index_adds (structural : List String) (value : Value F) (state : ProfiledCanonicalState) :
    Adds sha256 state (index showFloat sha256 structural value state)
      (ownEntry sha256 showFloat structural value) false := by
  unfold index ownEntry
  split_ifs with hroot
  · exact ⟨rfl, (Bool.or_false _).symm⟩
  · exact ⟨rfl, (Bool.or_false _).symm⟩

/-- A visit of a value that is kept runs its body. -/
theorem visitNode_ok {actual structural : List String} {value : Value F}
    {body : ProfiledCanonicalState →
      Except ProfiledApiVisibilityError (NodeDigests × Bool × ProfiledCanonicalState)}
    {result : Option NodeDigests} (expected : NodeDigests)
    (entries : List (List String × PathFingerprint)) (here below : Bool)
    (hbody : ∀ state node materialHere state', body state = .ok (node, materialHere, state') →
      node = expected ∧ materialHere = here ∧ Adds sha256 state state' entries below)
    (h : visitNode showFloat sha256 profile actual structural value body before =
      .ok (result, after)) :
    result = (if profile.keeps actual then some expected else none) ∧ Adds sha256 before after
        (if profile.keeps actual then ownEntry sha256 showFloat structural value ++ entries else [])
        (profile.keeps actual && (profile.isSelectedRoot actual && here || below)) := by
  unfold visitNode at h
  by_cases hkept : (profile.isIgnored actual || !profile.isRelevant actual) = true
  · have hkeep : profile.keeps actual = false := by
      rw [ApiComparisonProfile.keeps, hkept, Bool.not_true]
    rw [if_pos hkept] at h
    cases h
    simp only [hkeep, Bool.false_eq_true, if_false, Bool.false_and, true_and]
    exact (Kept.refl _).adds
  · have hkeep : profile.keeps actual = true := by
      rw [ApiComparisonProfile.keeps, Bool.eq_false_iff.mpr hkept, Bool.not_false]
    rw [if_neg hkept] at h
    obtain ⟨⟨node, materialHere, state'⟩, hrun, h⟩ := bind_ok h
    cases h
    obtain ⟨rfl, rfl, hadds⟩ := hbody _ _ _ _ hrun
    have hidx : Adds sha256 before (index showFloat sha256 structural value before)
        (ownEntry sha256 showFloat structural value) false := index_adds structural value before
    have hall := hidx.trans hadds
    simp only [hkeep, if_true, Bool.true_and, true_and]
    refine ⟨hall.pathIndex, ?_⟩
    rw [hall.material]
    cases before.materialSelectedValue <;> cases below <;> simp

/-! The nodes that a body gives are those of the projection. -/

theorem scalarNode_docDigests {resourceType fieldType : String} {value : Option Bytes}
    {scalar : Scalar F} {node : NodeDigests} {here materialHere : Bool}
    (hshown : shownNodeBytes (scalar.shown showFloat) =
      utf8Bytes resourceType ++ (value.map (frame 8)).getD [])
    (hkind : kindNodeBytes scalar.kind = utf8Bytes fieldType)
    (h : (do
      let (node, state) ← scalarNode sha256 limits resourceType fieldType value before
      return (node, here, state)) =
        (.ok (node, materialHere, after) : Except ProfiledApiVisibilityError _)) :
    node = docDigests showFloat sha256 (.leaf scalar) ∧ materialHere = here ∧
      Adds sha256 before after [] false := by
  obtain ⟨⟨written, state⟩, hnode, h⟩ := bind_ok h
  cases h
  obtain ⟨rfl, hkept⟩ := scalarNode_ok hnode
  refine ⟨?_, rfl, hkept.adds⟩
  show _ = NodeDigests.mk (sha256 (resourceNodeDomain ++ shownNodeBytes (scalar.shown showFloat)))
    (sha256 (fieldNodeDomain ++ kindNodeBytes scalar.kind))
  rw [hshown, hkind]

theorem arrayNode_docDigests {docs : List (Doc (Scalar F))} {unordered : Bool} {node : NodeDigests}
    (h : arrayNode sha256 limits (docs.map (docDigests showFloat sha256)) unordered before =
      .ok (node, after)) :
    node = docDigests showFloat sha256 (.array unordered docs) ∧ Kept before after := by
  obtain ⟨rfl, hkept⟩ := arrayNode_ok h
  refine ⟨?_, hkept⟩
  simp only [docDigests, Doc.map, digest, Doc.mapItems_eq_map, TreeHash.digests_eq_map,
    length_map, map_map, resourceHash, fieldHash]
  rfl

theorem objectNode_docDigests {members : List (String × Doc (Scalar F))} {node : NodeDigests}
    (h : objectNode sha256 limits
      (members.map fun member => (member.1, docDigests showFloat sha256 member.2)) before =
      .ok (node, after)) :
    node = docDigests showFloat sha256 (.object members) ∧ Kept before after := by
  obtain ⟨rfl, hkept⟩ := objectNode_ok h
  refine ⟨?_, hkept⟩
  simp only [docDigests, Doc.map, digest, Doc.mapMembers_eq_map, TreeHash.memberBytes_eq_flatMap,
    length_map, flatMap_map, resourceHash, fieldHash, childBytes]
  rfl

mutual

/-- **A visit hashes the projection of the value, adds its entries and notes
whether something selected is there.** -/
theorem visit_ok : ∀ {actual structural : List String} {before after : ProfiledCanonicalState}
    {value : Value F} {result : Option NodeDigests},
    visit showFloat sha256 limits profile actual structural before value = .ok (result, after) →
    result = (project profile actual value).map (docDigests showFloat sha256) ∧
      Adds sha256 before after (entries profile showFloat actual structural value)
        (material profile actual value)
  | actual, structural, before, after, .null, result, h => by
    rw [visit] at h
    obtain ⟨rfl, hadds⟩ := visitNode_ok _ _ _ _ (fun _ _ _ _ =>
      @scalarNode_docDigests F showFloat sha256 limits _ _ _ _ none .null _ _ _ rfl rfl) h
    refine ⟨?_, ?_⟩
    · rw [project]
      split_ifs <;> rfl
    · simpa [entries, material, present] using hadds
  | actual, structural, before, after, .bool value, result, h => by
    rw [visit] at h
    obtain ⟨rfl, hadds⟩ := visitNode_ok _ _ _ _ (fun _ _ _ _ =>
      @scalarNode_docDigests F showFloat sha256 limits _ _ _ _ _ (.bool value) _ _ _ rfl rfl) h
    refine ⟨?_, ?_⟩
    · rw [project]
      split_ifs <;> rfl
    · simpa [entries, material, present] using hadds
  | actual, structural, before, after, .number value, result, h => by
    rw [visit] at h
    have hkind : kindNodeBytes (Scalar.kind (.number value)) =
        utf8Bytes (if value.isInteger then "integer" else "number") := by
      cases hinteger : value.isInteger <;> simp [Scalar.kind, hinteger, kindNodeBytes]
    obtain ⟨rfl, hadds⟩ := visitNode_ok _ _ _ _ (fun _ _ _ _ =>
      @scalarNode_docDigests F showFloat sha256 limits _ _ _ _ _ (.number value) _ _ _ rfl hkind) h
    refine ⟨?_, ?_⟩
    · rw [project]
      split_ifs <;> rfl
    · simpa [entries, material, present] using hadds
  | actual, structural, before, after, .string value, result, h => by
    rw [visit] at h
    obtain ⟨rfl, hadds⟩ := visitNode_ok _ _ _ _ (fun _ _ _ _ =>
      @scalarNode_docDigests F showFloat sha256 limits _ _ _ _ _ (.string value) _ _ _ rfl rfl) h
    refine ⟨?_, ?_⟩
    · rw [project]
      split_ifs <;> rfl
    · simpa [entries, material, present] using hadds
  | actual, structural, before, after, .array items, result, h => by
    rw [visit] at h
    obtain ⟨rfl, hadds⟩ := visitNode_ok (docDigests showFloat sha256
        (.array (profile.isUnorderedArray actual) (projectItems profile actual 0 items)))
      (entriesItems profile showFloat actual structural 0 items)
      (present profile actual (.array items)) (materialItems profile actual 0 items)
      (fun state node materialHere state' hbody => by
        obtain ⟨⟨children, visited⟩, hit, hbody⟩ := bind_ok hbody
        obtain ⟨⟨array, written⟩, harray, hbody⟩ := bind_ok hbody
        cases hbody
        obtain ⟨rfl, hadds⟩ := visitItems_ok hit
        obtain ⟨rfl, hkept⟩ := arrayNode_docDigests harray
        refine ⟨rfl, by simp [present], ?_⟩
        simpa using hadds.trans hkept.adds) h
    refine ⟨?_, ?_⟩
    · rw [project]
      split_ifs <;> rfl
    · simpa [entries, material] using hadds
  | actual, structural, before, after, .object members, result, h => by
    rw [visit] at h
    obtain ⟨rfl, hadds⟩ := visitNode_ok
      (docDigests showFloat sha256 (.object (projectMembers profile actual members)))
      (entriesMembers profile showFloat actual structural members)
      (present profile actual (.object members)) (materialMembers profile actual members)
      (fun state node materialHere state' hbody => by
        obtain ⟨⟨children, visited⟩, hmems, hbody⟩ := bind_ok hbody
        obtain ⟨⟨object, written⟩, hobject, hbody⟩ := bind_ok hbody
        cases hbody
        obtain ⟨rfl, hadds⟩ := visitMembers_ok hmems
        obtain ⟨rfl, hkept⟩ := objectNode_docDigests hobject
        refine ⟨rfl, by simp [present], ?_⟩
        simpa using hadds.trans hkept.adds) h
    refine ⟨?_, ?_⟩
    · rw [project]
      split_ifs <;> rfl
    · simpa [entries, material] using hadds

theorem visitItems_ok : ∀ {actual structural : List String} {position : Nat}
    {before after : ProfiledCanonicalState} {items : List (Value F)} {children : List NodeDigests},
    visitItems showFloat sha256 limits profile actual structural position before items =
      .ok (children, after) →
    children = (projectItems profile actual position items).map (docDigests showFloat sha256) ∧
      Adds sha256 before after (entriesItems profile showFloat actual structural position items)
        (materialItems profile actual position items)
  | _, _, _, before, after, [], children, h => by
    cases h
    exact ⟨rfl, (Kept.refl _).adds⟩
  | actual, structural, position, before, after, item :: items, children, h => by
    rw [visitItems] at h
    obtain ⟨⟨child, middle⟩, hitem, h⟩ := bind_ok h
    obtain ⟨⟨rest, last⟩, hrest, h⟩ := bind_ok h
    cases h
    obtain ⟨rfl, hadds⟩ := visit_ok hitem
    obtain ⟨rfl, hadds'⟩ := visitItems_ok hrest
    refine ⟨?_, hadds.trans hadds'⟩
    rw [projectItems, map_append]
    cases project profile (actual ++ [toString position]) item <;> rfl

theorem visitMembers_ok : ∀ {actual structural : List String}
    {before after : ProfiledCanonicalState} {members : List (String × Value F)}
    {children : List (String × NodeDigests)},
    visitMembers showFloat sha256 limits profile actual structural before members =
      .ok (children, after) →
    children = (projectMembers profile actual members).map
        (fun member => (member.1, docDigests showFloat sha256 member.2)) ∧
      Adds sha256 before after (entriesMembers profile showFloat actual structural members)
        (materialMembers profile actual members)
  | _, _, before, after, [], children, h => by
    cases h
    exact ⟨rfl, (Kept.refl _).adds⟩
  | actual, structural, before, after, (name, item) :: members, children, h => by
    rw [visitMembers] at h
    obtain ⟨⟨child, middle⟩, hitem, h⟩ := bind_ok h
    obtain ⟨⟨rest, last⟩, hrest, h⟩ := bind_ok h
    cases h
    obtain ⟨rfl, hadds⟩ := visit_ok hitem
    obtain ⟨rfl, hadds'⟩ := visitMembers_ok hrest
    refine ⟨?_, hadds.trans hadds'⟩
    rw [projectMembers, map_append]
    cases project profile (actual ++ [name]) item <;> rfl

end

end ProfiledCanonicalState

/-! ### Captures -/

/-- The projection of a snapshot, its members sorted. -/
def Value.projected (value : Value F) : Option (Doc (Scalar F)) := value.sorted.project profile []

/-- The digests of the root, where nothing at all may be kept. -/
def rootDigests (showFloat : F → String) (sha256 : Bytes → Bytes)
    (doc : Option (Doc (Scalar F))) : NodeDigests where
  resource := rootDigest shownNodes (resourceHash sha256) (utf8Bytes "omitted")
    (doc.map (Doc.map (Scalar.shown showFloat)))
  fields := rootDigest kindNodes (fieldHash sha256) (utf8Bytes "omitted")
    (doc.map (Doc.map Scalar.kind))

/-- What is hashed in front of the root: the versions and the policy. -/
def rootPrefix : Bytes :=
  utf8Bytes currentApiComparisonAlgorithmVersion.asStr ++
    utf8Bytes currentApiVisibilityCanonicalizationVersion.asStr ++ profile.projectionPolicyId

/-- The path index of a snapshot. -/
def pathIndexOf (showFloat : F → String) (value : Value F) : PathIndex :=
  ((value.sorted.entries profile showFloat [] []).foldl (addEntry sha256) ∅).map
    fun _ entry => entry.canonicalize

variable {profile} {value : Value F} {result : ProfiledCanonicalResult}

/-- What a capture returns. -/
theorem capture_ok (h : capture showFloat sha256 limits profile value = .ok result) :
    result.resource = resourceHash sha256 (rootPrefix profile ++
        (rootDigests showFloat sha256 (value.projected profile)).resource) ∧
      result.fields = fieldHash sha256 (rootPrefix profile ++
        (rootDigests showFloat sha256 (value.projected profile)).fields) ∧
      result.pathIndex = pathIndexOf profile showFloat value ∧
      result.materialSelectedValue = value.sorted.material profile [] := by
  obtain ⟨⟨visited, s1⟩, hvis, h⟩ := bind_ok h
  obtain ⟨⟨omitted, s2⟩, homit, h⟩ := bind_ok h
  obtain ⟨⟨resource, s3⟩, hrsrc, h⟩ := bind_ok h
  obtain ⟨⟨fields, s4⟩, hfields, h⟩ := bind_ok h
  cases h
  obtain ⟨rfl, hadds⟩ := visit_ok hvis
  obtain ⟨rfl, k2⟩ := scalarNode_ok homit
  obtain ⟨rfl, k3⟩ := bindRootSignature_ok hrsrc
  obtain ⟨rfl, k4⟩ := bindRootSignature_ok hfields
  have hroot : ((value.projected profile).map (docDigests showFloat sha256)).getD
      ⟨sha256 (resourceNodeDomain ++ utf8Bytes "omitted"),
        sha256 (fieldNodeDomain ++ utf8Bytes "omitted")⟩ =
      rootDigests showFloat sha256 (value.projected profile) := by
    cases value.projected profile <;> rfl
  rw [← hroot]
  refine ⟨?_, ?_, ?_, ?_⟩
  · simp [resourceHash, rootPrefix, Value.projected]
  · simp [fieldHash, rootPrefix, Value.projected]
  · rw [k4.pathIndex, k3.pathIndex, k2.pathIndex, hadds.pathIndex]
    rfl
  · rw [k4.material, k3.material, k2.material, hadds.material]
    simp [new]

/-- All that is hashed for the signatures of a captured snapshot. -/
def captureInputs (showFloat : F → String) (sha256 : Bytes → Bytes)
    (profile : ApiComparisonProfile sha256) (value : Value F) : List Bytes :=
  let doc := value.projected profile
  (rootHashed shownNodes (resourceHash sha256) (utf8Bytes "omitted")
      (doc.map (Doc.map (Scalar.shown showFloat)))).map (resourceNodeDomain ++ ·) ++
    (rootHashed kindNodes (fieldHash sha256) (utf8Bytes "omitted")
      (doc.map (Doc.map Scalar.kind))).map (fieldNodeDomain ++ ·) ++
    [resourceNodeDomain ++ (rootPrefix profile ++ (rootDigests showFloat sha256 doc).resource),
      fieldNodeDomain ++ (rootPrefix profile ++ (rootDigests showFloat sha256 doc).fields)]

mutual

/-- A projection keeps no names that the value does not have. -/
theorem shortNames_project {L M : Type} {f : Scalar F → L} {g : Scalar F → M} :
    ∀ {path : List String} {value : Value F}, (value.tree.map f).ShortNames →
    ∀ doc ∈ value.project profile path, (doc.map g).ShortNames
  | path, .null, _, doc, hdoc | path, .bool _, _, doc, hdoc | path, .number _, _, doc, hdoc
  | path, .string _, _, doc, hdoc => by
    rw [Value.project] at hdoc
    split_ifs at hdoc
    · cases hdoc
      trivial
    · cases hdoc
  | path, .array items, h, doc, hdoc => by
    rw [Value.project] at hdoc
    split_ifs at hdoc
    · cases hdoc
      exact shortNames_projectItems h
    · cases hdoc
  | path, .object members, h, doc, hdoc => by
    rw [Value.project] at hdoc
    split_ifs at hdoc
    · cases hdoc
      exact shortNames_projectMembers h
    · cases hdoc

theorem shortNames_projectItems {L M : Type} {f : Scalar F → L} {g : Scalar F → M} :
    ∀ {path : List String} {position : Nat} {items : List (Value F)},
    Doc.ShortNamesItems (Doc.mapItems f (Value.treeItems items)) →
    Doc.ShortNamesItems (Doc.mapItems g (Value.projectItems profile path position items))
  | path, position, [], _ => trivial
  | path, position, item :: items, ⟨hitem, hit⟩ => by
    have hrest : Doc.ShortNamesItems (Doc.mapItems g
        (Value.projectItems profile path (position + 1) items)) := shortNames_projectItems hit
    rw [Value.projectItems]
    cases hproj : item.project profile (path ++ [toString position]) with
    | none => exact hrest
    | some doc => exact ⟨shortNames_project hitem doc hproj, hrest⟩

theorem shortNames_projectMembers {L M : Type} {f : Scalar F → L} {g : Scalar F → M} :
    ∀ {path : List String} {members : List (String × Value F)},
    Doc.ShortNamesMembers (Doc.mapMembers f (Value.treeMembers members)) →
    Doc.ShortNamesMembers (Doc.mapMembers g (Value.projectMembers profile path members))
  | path, [], _ => trivial
  | path, (name, item) :: members, ⟨hname, hitem, hmems⟩ => by
    have hrest : Doc.ShortNamesMembers (Doc.mapMembers g
        (Value.projectMembers profile path members)) := shortNames_projectMembers hmems
    rw [Value.projectMembers]
    cases hproj : item.project profile (path ++ [name]) with
    | none => exact hrest
    | some doc => exact ⟨hname, shortNames_project hitem doc hproj, hrest⟩

end

theorem nodeBytes_ne_omitted {L : Type} {scheme : HashScheme L} {hash : Bytes → Bytes}
    (hleaf : ∀ label, scheme.leaf label ≠ utf8Bytes "omitted")
    (harray : scheme.array = arrayBytes) (hobject : scheme.object = utf8Bytes "object")
    (doc : Doc L) : nodeBytes scheme hash doc ≠ utf8Bytes "omitted" := by
  have homit : utf8Bytes "omitted" = [111, 109, 105, 116, 116, 101, 100] := by decide
  obtain ⟨htag, hobj, -, -⟩ := utf8Bytes_containers
  cases doc with
  | leaf label => exact hleaf label
  | array unordered items => simp [nodeBytes, harray, arrayBytes, htag, homit]
  | object members => simp [nodeBytes, hobject, hobj, homit]

theorem shownNodeBytes_ne_omitted (label : Shown) : shownNodeBytes label ≠ utf8Bytes "omitted" := by
  have homit : utf8Bytes "omitted" = [111, 109, 105, 116, 116, 101, 100] := by decide
  obtain ⟨hnull, hbool, -, hnumber, hstring⟩ := utf8Bytes_types
  cases label <;> simp [shownNodeBytes, hnull, hbool, hnumber, hstring, homit]

theorem kindNodeBytes_ne_omitted (label : Kind) : kindNodeBytes label ≠ utf8Bytes "omitted" := by
  cases label <;> decide

section Comparisons

variable {other : Value F} {result' : ProfiledCanonicalResult} {limits' : ApiVisibilityLimits}
  {signatures signatures' : CanonicalSignatures} {inputs : Set Bytes}

theorem shortNames_captured {A : Type} (f : Scalar F → A)
    (hlims : canonicalSignatures showFloat sha256 value limits = .ok signatures) :
    ∀ doc ∈ (value.projected profile).map (Doc.map f), doc.ShortNames := by
  intro doc hdoc
  obtain ⟨kept, hkept, rfl⟩ := Option.mem_map.mp hdoc
  exact shortNames_project (TreeHash.shortNames_of_short
    (TreeHash.short_of_length (canonicalSignatures_ok hlims).1)) kept hkept

theorem injOn_prefixed (hinj : Set.InjOn sha256 inputs) (domain : Bytes) :
    Set.InjOn (fun bytes => sha256 (domain ++ bytes)) { bytes | domain ++ bytes ∈ inputs } :=
  fun _ hx _ hy heq => append_cancel_left (hinj hx hy heq)

section Captured

variable (hwidth : ∀ bytes, (sha256 bytes).length = 32) (hinj : Set.InjOn sha256 inputs)
  (hvalue : ∀ input ∈ captureInputs showFloat sha256 profile value, input ∈ inputs)
  (hoth : ∀ input ∈ captureInputs showFloat sha256 profile other, input ∈ inputs)
  (hlims : canonicalSignatures showFloat sha256 value limits = .ok signatures)
  (hlims' : canonicalSignatures showFloat sha256 other limits' = .ok signatures')
  (h : capture showFloat sha256 limits profile value = .ok result)
  (h' : capture showFloat sha256 limits' profile other = .ok result')

include hwidth hinj hvalue hoth hlims hlims' h h'

/-- **Without collisions, the resource signatures of captured snapshots tell
whether their projections are alike.** -/
theorem capture_resource_iff : result.resource = result'.resource ↔ Option.Rel Doc.Alike
    ((value.projected profile).map (Doc.map (Scalar.shown showFloat)))
    ((other.projected profile).map (Doc.map (Scalar.shown showFloat))) := by
  have hinj' : Set.InjOn (resourceHash sha256) _ := injOn_prefixed hinj resourceNodeDomain
  rw [(capture_ok h).1, (capture_ok h').1,
    hinj'.eq_iff (hvalue _ (by simp [captureInputs])) (hoth _ (by simp [captureInputs])),
    append_cancel_left_eq]
  exact TreeHash.rootDigest_eq_iff (fun _ => hwidth _) (by decide) hinj'
    (nodeBytes_ne_omitted shownNodeBytes_ne_omitted rfl rfl)
    (fun _ hinp => hvalue _ (mem_append_left _ (mem_append_left _ (mem_map_of_mem hinp))))
    (fun _ hinp => hoth _ (mem_append_left _ (mem_append_left _ (mem_map_of_mem hinp))))
    (shortNames_captured _ hlims) (shortNames_captured _ hlims')

/-- **Without collisions, the field signatures of captured snapshots tell
whether the types of their projections are alike.** -/
theorem capture_fields_iff : result.fields = result'.fields ↔ Option.Rel Doc.Alike
    ((value.projected profile).map (Doc.map Scalar.kind))
    ((other.projected profile).map (Doc.map Scalar.kind)) := by
  have hinj' : Set.InjOn (fieldHash sha256) _ := injOn_prefixed hinj fieldNodeDomain
  rw [(capture_ok h).2.1, (capture_ok h').2.1,
    hinj'.eq_iff (hvalue _ (by simp [captureInputs])) (hoth _ (by simp [captureInputs])),
    append_cancel_left_eq]
  exact TreeHash.rootDigest_eq_iff (fun _ => hwidth _) (by decide) hinj'
    (nodeBytes_ne_omitted kindNodeBytes_ne_omitted rfl rfl)
    (fun _ hinp => hvalue _ (mem_append_left _ (mem_append_right _ (mem_map_of_mem hinp))))
    (fun _ hinp => hoth _ (mem_append_left _ (mem_append_right _ (mem_map_of_mem hinp))))
    (shortNames_captured _ hlims) (shortNames_captured _ hlims')

end Captured

end Comparisons

end Termivar.ApiEvidence
