/-
# Building a catalog

`termivar-artifact/src/catalog.rs`: a pack has signatures of distinct
identities; a builder registers packs of distinct identities, and sealing
collects their signatures in the order of their references and indexes them.
What a sealed catalog has for the matcher is that no two of its signatures have
one reference.

The manifests and their compilation are outside. So is SHA-256: the digest of
the packs is a parameter of sealing.
-/
import Termivar.Command
import Termivar.Artifact.Catalog

namespace Termivar

open Checked List

def maxPacksPerCatalog : Nat := 64
def maxTotalSignatures : Nat := 4096
def maxTotalCompiledPatternBytes : Nat := maxTotalSignatures * maxPatternBytes

/-! ### Orders -/

theorem ArtifactId.value_injective : Function.Injective ArtifactId.value := by
  rintro ⟨a, _⟩ ⟨b, _⟩ h
  simp only at h
  subst h
  rfl

theorem ArtifactRevision.value_injective : Function.Injective ArtifactRevision.value := by
  rintro ⟨a, _, _⟩ ⟨b, _, _⟩ h
  simp only at h
  subst h
  rfl

instance : Ord ArtifactId where
  compare := compareOn (·.value)

instance : Std.TransOrd ArtifactId :=
  inferInstanceAs (Std.TransCmp (compareOn ArtifactId.value))

instance : Std.LawfulEqOrd ArtifactId := lawfulEqCmp_compareOn ArtifactId.value_injective

instance : Std.TransOrd ArtifactSignatureRef :=
  inferInstanceAs (Std.TransCmp (compareLex (compareOn fun r : ArtifactSignatureRef => r.packId.value)
    (compareLex (compareOn fun r : ArtifactSignatureRef => r.signatureId.value)
      (compareOn fun r : ArtifactSignatureRef => r.revision.value))))

instance : Std.LawfulEqOrd ArtifactSignatureRef := by
  refine lawfulEqCmp_compareLex (fun _ => by simp [compareOn]) (fun _ => by simp [compareLex, compareOn])
    fun {a b} hpack hrest => ?_
  simp only [compareLex, compareOn, Ordering.then_eq_eq, Std.LawfulEqOrd.compare_eq_iff_eq] at hpack hrest
  cases a
  cases b
  simp only [ArtifactSignatureRef.mk.injEq]
  exact ⟨ArtifactId.value_injective hpack, ArtifactId.value_injective hrest.1,
    ArtifactRevision.value_injective hrest.2⟩

/-! ### Packs -/

/-- One digit of `{:02X}`. -/
def hexUpper (n : Nat) : Char :=
  if n < 10 then Char.ofNat ('0'.toNat + n) else Char.ofNat ('A'.toNat + (n - 10))

def PatternAtom.text : PatternAtom → String
  | .exact byte => String.ofList [hexUpper (byte.toNat / 16), hexUpper (byte.toNat % 16)]
  | .wildcard => "??"

/-- The deterministic textual representation. -/
def ArtifactPattern.canonical (pattern : ArtifactPattern) : String :=
  " ".intercalate (pattern.atoms.map PatternAtom.text)

/-- `char::is_control`: the Unicode category `Cc`. -/
def isControl (c : Char) : Bool := c.toNat < 0x20 || (0x7F ≤ c.toNat && c.toNat ≤ 0x9F)

/-- `value.trim() != value`. -/
def hasOuterWhitespace (value : String) : Bool :=
  value.toList.head?.any isWhitespace || value.toList.getLast?.any isWhitespace

/-- One checked, compiled signature definition of a pack. -/
structure ArtifactSignatureDefinition where
  id : ArtifactSignatureId
  revision : ArtifactRevision
  label : String
  observationClass : ArtifactObservationClass
  pattern : ArtifactPattern
  tags : BTreeSet String
  description : Option String

/-- One fully checked signature pack. -/
structure ArtifactSignaturePack where
  id : ArtifactPackId
  revision : ArtifactRevision
  (title summary : String)
  signatures : List ArtifactSignatureDefinition
  distinct : (signatures.map (·.id)).Nodup

/-! ### Registering and sealing -/

/-- The packs collected so far. -/
structure ArtifactCatalogBuilder where
  packs : BTreeMap ArtifactPackId ArtifactSignaturePack := ∅
  semanticPatterns : BTreeMap String ArtifactSignatureRef := ∅
  signatureCount : Nat := 0
  compiledPatternBytes : Nat := 0

/-- The reference of a signature of the pack. -/
def ArtifactSignaturePack.refOf (pack : ArtifactSignaturePack)
    (signature : ArtifactSignatureDefinition) : ArtifactSignatureRef :=
  { packId := pack.id, signatureId := signature.id, revision := signature.revision }

namespace ArtifactCatalogBuilder

variable (builder : ArtifactCatalogBuilder) (pack : ArtifactSignaturePack)

/-- The capacity left for the signatures of a pack and their pattern bytes:
the two counts after it. -/
def checkCapacity :
    Except ArtifactError (Nat × Nat) := do
  if builder.packs.size ≥ maxPacksPerCatalog then throw .catalogCapacityExceeded
  let signatureCount ← okOr (checkedAdd u64Max builder.signatureCount pack.signatures.length)
    .catalogCapacityExceeded
  if signatureCount > maxTotalSignatures then throw .catalogCapacityExceeded
  let addedPatternBytes ← pack.signatures.foldlM
    (fun total signature => okOr (checkedAdd u64Max total signature.pattern.len)
      ArtifactError.catalogCapacityExceeded) 0
  let compiledPatternBytes ← okOr
    (checkedAdd u64Max builder.compiledPatternBytes addedPatternBytes) .catalogCapacityExceeded
  if compiledPatternBytes > maxTotalCompiledPatternBytes then throw .catalogCapacityExceeded
  return (signatureCount, compiledPatternBytes)

/-- A pack joins the catalog, unless its identity or one of its patterns is
there. A failure leaves the builder as it is. -/
def register :
    Except ArtifactError ArtifactCatalogBuilder := do
  match builder.packs[pack.id]? with
  | some existing =>
    throw (if existing.revision = pack.revision then .duplicatePack else .conflictingPackRevision)
  | none =>
    let (signatureCount, compiledPatternBytes) ← builder.checkCapacity pack
    each (fun signature =>
      if builder.semanticPatterns.contains signature.pattern.canonical then
        .error .duplicateSemanticPattern
      else .ok ()) pack.signatures
    return {
      packs := builder.packs.insert pack.id pack
      semanticPatterns := pack.signatures.foldl
        (fun patterns signature => patterns.insert signature.pattern.canonical (pack.refOf signature))
        builder.semanticPatterns
      signatureCount, compiledPatternBytes }

/-- A signature of the pack as the catalog holds it. -/
def catalogSignature (signature : ArtifactSignatureDefinition) :
    ArtifactCatalogSignature :=
  { signatureRef := pack.refOf signature
    observationClass := signature.observationClass
    pattern := signature.pattern }

/-- The signatures of all packs, pack after pack. -/
def collected : List ArtifactCatalogSignature :=
  builder.packs.toList.flatMap fun entry => entry.2.signatures.map (catalogSignature entry.2)

/-- The order of the signatures of a catalog. -/
def refLe (left right : ArtifactCatalogSignature) : Bool :=
  (compare left.signatureRef right.signatureRef).isLE

/-- Sealing cannot fail. -/
def sealCatalog (digestCatalog : BTreeMap ArtifactPackId ArtifactSignaturePack → String)
    (builder : ArtifactCatalogBuilder) : Except ArtifactError ArtifactCatalog :=
  .ok (.ofSignatures (builder.collected.mergeSort refLe) (digestCatalog builder.packs))

/-- What `register` calls build from an empty builder; one that fails changes
nothing. -/
inductive Built : ArtifactCatalogBuilder → Prop
  | new : Built {}
  | register {builder after : ArtifactCatalogBuilder} {pack : ArtifactSignaturePack} :
    Built builder → builder.register pack = .ok after → Built after

/-- A pack is registered under its own identity. -/
def Keyed : Prop :=
  ∀ (id : ArtifactPackId) (pack : ArtifactSignaturePack), builder.packs[id]? = some pack → pack.id = id

theorem register_spec {builder after : ArtifactCatalogBuilder} {pack : ArtifactSignaturePack}
    (h : builder.register pack = .ok after) : builder.packs[pack.id]? = none ∧
      builder.packs.size < maxPacksPerCatalog ∧ after.packs = builder.packs.insert pack.id pack := by
  have hcap : wp (builder.checkCapacity pack)
      (fun _ => builder.packs.size < maxPacksPerCatalog) (fun _ => True) := by
    unfold checkCapacity
    simp only [wp_bind, wp_ite, wp_throw]
    refine ⟨fun _ => trivial, fun hroom => ?_⟩
    have hroom := Nat.lt_of_not_le hroom
    refine wp_of_forall (fun _ => ⟨fun _ => trivial, fun _ => ?_⟩) fun _ => trivial
    exact wp_of_forall (fun _ => wp_of_forall
      (fun _ => ⟨fun _ => trivial, fun _ => hroom⟩) fun _ => trivial) fun _ => trivial
  have hwp : wp (builder.register pack) (fun after => builder.packs[pack.id]? = none ∧
      builder.packs.size < maxPacksPerCatalog ∧ after.packs = builder.packs.insert pack.id pack)
      (fun _ => True) := by
    unfold register
    cases builder.packs[pack.id]? with
    | some existing => trivial
    | none =>
      simp only [wp_bind, wp_pure]
      refine wp_imp hcap fun counts hroom => ?_
      exact wp_of_forall (fun _ => ⟨trivial, hroom, trivial⟩) (fun _ => trivial)
  rw [h] at hwp
  exact hwp

theorem Built.keyed {builder : ArtifactCatalogBuilder} (h : Built builder) : Keyed builder := by
  induction h with
  | new =>
    intro id pack hget
    simp at hget
  | register _ hreg ih =>
    intro id pack hget
    rw [(register_spec hreg).2.2, get_insert] at hget
    split_ifs at hget with hid
    · rw [← Option.some.inj hget]
      exact hid
    · exact ih id pack hget

/-- The references of the signatures of one pack differ by their identities,
those of two packs by the identity of the pack. -/
theorem collected_refs_nodup {builder : ArtifactCatalogBuilder} (h : Keyed builder) :
    (builder.collected.map (·.signatureRef)).Nodup := by
  unfold collected
  rw [map_flatMap, nodup_flatMap]
  refine ⟨fun entry _ => ?_, ?_⟩
  · rw [map_map]
    refine List.Nodup.of_map ArtifactSignatureRef.signatureId ?_
    rw [map_map]
    exact entry.2.distinct
  · refine (pairwise_map.mp (keys_nodup builder.packs)).imp_of_mem ?_
    intro left right hleft hright hne
    rw [Function.onFun, disjoint_left]
    intro ref hmem hmem'
    rw [map_map, mem_map] at hmem hmem'
    obtain ⟨signature, -, hsig⟩ := hmem
    obtain ⟨other, -, hoth⟩ := hmem'
    apply hne
    rw [← h left.1 left.2 (mem_toList.mp hleft), ← h right.1 right.2 (mem_toList.mp hright)]
    exact congrArg ArtifactSignatureRef.packId (hsig.trans hoth.symm)

/-- No two signatures of a sealed catalog have one reference. -/
theorem sealed_refs_nodup {digestCatalog : BTreeMap ArtifactPackId ArtifactSignaturePack → String}
    {builder : ArtifactCatalogBuilder} {catalog : ArtifactCatalog} (h : Built builder)
    (hseal : sealCatalog digestCatalog builder = .ok catalog) :
    (catalog.signatures.map (·.signatureRef)).Nodup := by
  cases hseal
  exact ((mergeSort_perm _ _).map _).nodup_iff.mpr (collected_refs_nodup h.keyed)

end ArtifactCatalogBuilder

end Termivar
