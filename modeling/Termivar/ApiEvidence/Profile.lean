/-
# Comparison profiles

`termivar-scanner/src/api_evidence/profiled/policy.rs`: which parts of a
document a comparison looks at. The selected and the ignored patterns are
sorted, without duplicates, and pruned in one pass of the patterns that one
kept before them covers; arrays without an order are sorted, without
duplicates. The identifier of a profile is the digest of what is kept.

The hash is a parameter. A profile carries what `new` checks, so every value of
its type can be built, and is read back from its wire form
(`ApiComparisonProfile.round_trip`).
-/
import Termivar.Adaptive.Ledger
import Termivar.ApiEvidence.Pattern
import Termivar.Pruning

namespace Termivar.ApiEvidence

open List JsonPathPattern

open Pruning (Covered CoveredInOrder Antichain sortDedup)

def hardMaxApiVisibilityDiffPaths : Nat := 1024
def defaultApiVisibilityDiffPaths : Nat := 64

inductive ComparisonAlgorithmVersion where
  | v2
  | v3
  deriving DecidableEq

def ComparisonAlgorithmVersion.asStr : ComparisonAlgorithmVersion → String
  | .v2 => "v2"
  | .v3 => "v3"

inductive CanonicalizationVersion where
  | v2
  deriving DecidableEq

def CanonicalizationVersion.asStr : CanonicalizationVersion → String
  | .v2 => "v2"

def currentApiComparisonAlgorithmVersion : ComparisonAlgorithmVersion := .v3
def currentApiVisibilityCanonicalizationVersion : CanonicalizationVersion := .v2

/-! ### Normalization -/

def normalizedPatterns (patterns : List JsonPathPattern) : List JsonPathPattern :=
  sortDedup patterns

def normalizedSubtrees (patterns : List JsonPathPattern) : List JsonPathPattern :=
  Pruning.normalize covers patterns

/-! ### Identifiers -/

def profileIdDomain : String := "venom.api-visibility.projection-policy.v3\x00"

def framedText (text : String) : Bytes := frame 8 (utf8Bytes text)

def patternListBytes (name : String) (patterns : List JsonPathPattern) : Bytes :=
  framedText name ++ beBytes 8 patterns.length ++
    patterns.flatMap fun pattern => framedText pattern.canonical

/-- What the identifier of a profile is the digest of. -/
def policyBytes (version : ComparisonAlgorithmVersion)
    (selected ignored unordered : List JsonPathPattern) (maxDiffPaths : Nat) : Bytes :=
  utf8Bytes profileIdDomain ++ framedText version.asStr ++
    framedText currentApiVisibilityCanonicalizationVersion.asStr ++
    patternListBytes "selected" selected ++ patternListBytes "ignored" ignored ++
    patternListBytes "unordered" unordered ++ beBytes 2 maxDiffPaths

variable (sha256 : Bytes → Bytes)

def projectionPolicyId (version : ComparisonAlgorithmVersion)
    (selected ignored unordered : List JsonPathPattern) (maxDiffPaths : Nat) : Bytes :=
  sha256 (policyBytes version selected ignored unordered maxDiffPaths)

/-! ### Profiles -/

/-- An ignored pattern covers a selected one. -/
def conflicting (selected ignored : List JsonPathPattern) : Bool :=
  selected.any fun pattern => ignored.any fun other => other.matchesPrefixOf pattern.tokens

/-- A profile, with what its constructor checks. -/
structure ApiComparisonProfile where
  algorithmVersion : ComparisonAlgorithmVersion
  (selectedPaths ignoredPaths unorderedArrays : List JsonPathPattern)
  maxDiffPaths : Nat
  projectionPolicyId : Bytes
  current : algorithmVersion = currentApiComparisonAlgorithmVersion
  selectedNormal : normalizedSubtrees selectedPaths = selectedPaths
  ignoredNormal : normalizedSubtrees ignoredPaths = ignoredPaths
  unorderedNormal : normalizedPatterns unorderedArrays = unorderedArrays
  fewDiffs : maxDiffPaths ≤ hardMaxApiVisibilityDiffPaths
  few : selectedPaths.length + ignoredPaths.length + unorderedArrays.length ≤
    hardMaxApiComparisonProfilePaths
  compatible : conflicting selectedPaths ignoredPaths = false
  identified : projectionPolicyId = ApiEvidence.projectionPolicyId sha256 algorithmVersion
    selectedPaths ignoredPaths unorderedArrays maxDiffPaths

variable (patterns : List JsonPathPattern)

theorem normalizedSubtrees_idem :
    normalizedSubtrees (normalizedSubtrees patterns) = normalizedSubtrees patterns :=
  Pruning.normalize_idem patterns

theorem normalizedPatterns_idem :
    normalizedPatterns (normalizedPatterns patterns) = normalizedPatterns patterns :=
  Pruning.sortDedup_eq_self (Pruning.sorted_sortDedup patterns)

namespace ApiComparisonProfile

/-- `ApiComparisonProfile::new`. -/
def new (selected ignored unordered : List JsonPathPattern) (maxDiffPaths : Nat) :
    Except ProfiledApiVisibilityError (ApiComparisonProfile sha256) :=
  if fewDiffs : maxDiffPaths ≤ hardMaxApiVisibilityDiffPaths then
    if few : (normalizedSubtrees selected).length + (normalizedSubtrees ignored).length +
        (normalizedPatterns unordered).length ≤ hardMaxApiComparisonProfilePaths then
      if compatible : conflicting (normalizedSubtrees selected) (normalizedSubtrees ignored) = false then
        .ok {
          algorithmVersion := currentApiComparisonAlgorithmVersion
          selectedPaths := normalizedSubtrees selected
          ignoredPaths := normalizedSubtrees ignored
          unorderedArrays := normalizedPatterns unordered
          maxDiffPaths
          projectionPolicyId := ApiEvidence.projectionPolicyId sha256
            currentApiComparisonAlgorithmVersion (normalizedSubtrees selected)
            (normalizedSubtrees ignored) (normalizedPatterns unordered) maxDiffPaths
          current := rfl
          selectedNormal := normalizedSubtrees_idem selected
          ignoredNormal := normalizedSubtrees_idem ignored
          unorderedNormal := normalizedPatterns_idem unordered
          fewDiffs, few, compatible
          identified := rfl }
      else .error .conflictingPathPolicy
    else .error (.tooManyProfilePaths hardMaxApiComparisonProfilePaths)
  else .error (.tooManyDiffPaths hardMaxApiVisibilityDiffPaths)

variable {sha256} (profile : ApiComparisonProfile sha256)

def isIgnored (path : List String) : Bool :=
  profile.ignoredPaths.any fun pattern => pattern.matchesPrefixOf path

def isRelevant (path : List String) : Bool :=
  profile.selectedPaths.isEmpty || profile.selectedPaths.any fun pattern => pattern.meets path

def isUnorderedArray (path : List String) : Bool :=
  profile.unorderedArrays.any fun pattern => pattern.matchesExactly path

def isSelectedRoot (path : List String) : Bool :=
  if profile.selectedPaths.isEmpty then path.isEmpty
  else profile.selectedPaths.any fun pattern => pattern.matchesExactly path

/-- Every profile is built from its own patterns. -/
theorem new_self : new sha256 profile.selectedPaths profile.ignoredPaths profile.unorderedArrays
    profile.maxDiffPaths = .ok profile := by
  obtain ⟨_, selected, ignored, unordered, maxDiffPaths, _, rfl, hselected, hign, hunor,
    hdiffs, hfew, hcomp, rfl⟩ := profile
  unfold new
  simp only [hselected, hign, hunor, dif_pos hdiffs, dif_pos hfew, dif_pos hcomp]

/-- What is built depends on the normalized patterns alone. -/
theorem new_congr {selected selected' ignored ignored' unordered unordered' : List JsonPathPattern}
    (hselected : normalizedSubtrees selected = normalizedSubtrees selected')
    (hign : normalizedSubtrees ignored = normalizedSubtrees ignored')
    (hunor : normalizedPatterns unordered = normalizedPatterns unordered')
    (maxDiffPaths : Nat) : new sha256 selected ignored unordered maxDiffPaths =
      new sha256 selected' ignored' unordered' maxDiffPaths := by
  unfold new
  simp only [hselected, hign, hunor]

end ApiComparisonProfile
/-! ### The wire form -/

/-- Why a profile is not read. -/
inductive ProfileWireError where
  | wire (failure : WireError)
  | profile (failure : ProfiledApiVisibilityError)
  | custom (message : String)

def JsonPathPattern.serialize (pattern : JsonPathPattern) : Data := .text pattern.canonical

def JsonPathPattern.deserialize (data : Data) : Except ProfileWireError JsonPathPattern := do
  let value ← (Wire.readText data).mapError .wire
  (new value).mapError .profile

/-- `deserialize_patterns`: no more patterns are read than a profile may have. -/
def deserializePatterns : Data → Except ProfileWireError (List JsonPathPattern)
  | .seq items => do
    let patterns ← (items.take hardMaxApiComparisonProfilePaths).mapM deserialize
    if hardMaxApiComparisonProfilePaths < items.length then
      throw (.custom "API comparison path-pattern list exceeds compiled limit")
    return patterns
  | _ => .error (.wire .invalidType)

def ComparisonAlgorithmVersion.deserialize (data : Data) :
    Except ProfileWireError ComparisonAlgorithmVersion :=
  (Wire.readVariant [ComparisonAlgorithmVersion.v2, .v3] ComparisonAlgorithmVersion.asStr data).mapError
    .wire

inductive ProfileField where
  | algorithmVersion
  | selectedPaths
  | ignoredPaths
  | unorderedArrays
  | maxDiffPaths
  deriving DecidableEq

def ProfileField.Slot : ProfileField → Type
  | .algorithmVersion => ComparisonAlgorithmVersion
  | .selectedPaths | .ignoredPaths | .unorderedArrays => List JsonPathPattern
  | .maxDiffPaths => Nat

def profileSchema : Record.Schema ProfileField Data ProfileWireError ProfileField.Slot where
  fields := [.algorithmVersion, .selectedPaths, .ignoredPaths, .unorderedArrays, .maxDiffPaths]
  name
    | .algorithmVersion => "algorithm_version"
    | .selectedPaths => "selected_paths"
    | .ignoredPaths => "ignored_paths"
    | .unorderedArrays => "unordered_arrays"
    | .maxDiffPaths => "max_diff_paths"
  read
    | .algorithmVersion => ComparisonAlgorithmVersion.deserialize
    | .selectedPaths => deserializePatterns
    | .ignoredPaths => deserializePatterns
    | .unorderedArrays => deserializePatterns
    | .maxDiffPaths => fun data => (Wire.readUnsigned u16Max data).mapError .wire
  duplicate := fun name => .wire (.duplicateField name)
  unknown := some fun name => .wire (.unknownField name)
  nodup := by decide
  named := by decide

namespace ApiComparisonProfile

/-- The value of a field that must be there. -/
def requireField {α : Type} (name : String) (slot : Option α) : Except ProfileWireError α :=
  okOr slot (.wire (.missingField name))

def ofSlots (slots : Record.Slots ProfileField.Slot) :
    Except ProfileWireError (ApiComparisonProfile sha256) := do
  let version : ComparisonAlgorithmVersion ←
    requireField "algorithm_version" (slots .algorithmVersion)
  let selected : List JsonPathPattern ← requireField "selected_paths" (slots .selectedPaths)
  let ignored : List JsonPathPattern ← requireField "ignored_paths" (slots .ignoredPaths)
  let unordered : List JsonPathPattern ← requireField "unordered_arrays" (slots .unorderedArrays)
  let maxDiffPaths : Nat ← requireField "max_diff_paths" (slots .maxDiffPaths)
  if version ≠ currentApiComparisonAlgorithmVersion then
    throw (.custom "unsupported API comparison algorithm version")
  (new sha256 selected ignored unordered maxDiffPaths).mapError .profile

def deserialize : Data → Except ProfileWireError (ApiComparisonProfile sha256)
  | .map entries => do ofSlots sha256 (← profileSchema.collect entries)
  | _ => .error (.wire .invalidType)

variable {sha256} (profile : ApiComparisonProfile sha256)

def rawFields : ProfileField → Option Data
  | .algorithmVersion => some (.text profile.algorithmVersion.asStr)
  | .selectedPaths => some (.seq (profile.selectedPaths.map serialize))
  | .ignoredPaths => some (.seq (profile.ignoredPaths.map serialize))
  | .unorderedArrays => some (.seq (profile.unorderedArrays.map serialize))
  | .maxDiffPaths => some (Wire.writeUnsigned profile.maxDiffPaths)

def serialize : Data :=
  .map (Record.encode profileSchema.fields profileSchema.name profile.rawFields)

theorem deserializePatterns_serialize {patterns : List JsonPathPattern}
    (h : patterns.length ≤ hardMaxApiComparisonProfilePaths) :
    deserializePatterns (.seq (patterns.map JsonPathPattern.serialize)) = .ok patterns := by
  have hread : ∀ pattern : JsonPathPattern,
      JsonPathPattern.deserialize pattern.serialize = .ok pattern := by
    intro pattern
    show (JsonPathPattern.new pattern.asStr).mapError ProfileWireError.profile = .ok pattern
    rw [JsonPathPattern.new_eq_ok_iff.mpr rfl]
    rfl
  have hmap : (patterns.map JsonPathPattern.serialize).mapM JsonPathPattern.deserialize =
      .ok patterns := by
    rw [Checked.mapM_eq_ok_iff, forall₂_map_left_iff, forall₂_same]
    exact fun pattern _ => hread pattern
  have hlength : (patterns.map JsonPathPattern.serialize).length ≤
      hardMaxApiComparisonProfilePaths := by rwa [length_map]
  rw [deserializePatterns, take_of_length_le hlength, hmap]
  simp only [bind, Except.bind, if_neg (Nat.not_lt.mpr hlength)]
  rfl

/-- **Every profile is read back from its wire form.** -/
theorem round_trip : deserialize sha256 profile.serialize = .ok profile := by
  let slots : Record.Slots ProfileField.Slot := fun
    | .algorithmVersion => some profile.algorithmVersion
    | .selectedPaths => some profile.selectedPaths
    | .ignoredPaths => some profile.ignoredPaths
    | .unorderedArrays => some profile.unorderedArrays
    | .maxDiffPaths => some profile.maxDiffPaths
  have hfew := profile.few
  have hdiffs : profile.maxDiffPaths ≤ u16Max := profile.fewDiffs.trans (by decide)
  have hrd : Record.Reads profileSchema profile.rawFields slots := by
    intro field
    refine Or.inr ⟨by cases field <;> decide, ?_⟩
    cases field with
    | algorithmVersion =>
      refine ⟨_, _, rfl, rfl, ?_⟩
      show ComparisonAlgorithmVersion.deserialize (.text profile.algorithmVersion.asStr) = _
      cases profile.algorithmVersion <;> rfl
    | selectedPaths => exact ⟨_, _, rfl, rfl, deserializePatterns_serialize (by omega)⟩
    | ignoredPaths => exact ⟨_, _, rfl, rfl, deserializePatterns_serialize (by omega)⟩
    | unorderedArrays => exact ⟨_, _, rfl, rfl, deserializePatterns_serialize (by omega)⟩
    | maxDiffPaths =>
      refine ⟨_, _, rfl, rfl, ?_⟩
      show (Wire.readUnsigned u16Max (Wire.writeUnsigned profile.maxDiffPaths)).mapError
        ProfileWireError.wire = .ok profile.maxDiffPaths
      rw [Wire.readUnsigned_writeUnsigned hdiffs]
      rfl
  have hslots : ofSlots sha256 slots = .ok profile := by
    show (if profile.algorithmVersion ≠ currentApiComparisonAlgorithmVersion then _ else
      (new sha256 profile.selectedPaths profile.ignoredPaths profile.unorderedArrays
        profile.maxDiffPaths).mapError ProfileWireError.profile) = .ok profile
    rw [if_neg (not_not_intro profile.current), new_self]
    rfl
  simp only [serialize, deserialize, Record.collect_encode hrd]
  exact hslots

end ApiComparisonProfile

/-! ### What normalization depends on -/

/-- Lists obtained from each other by reordering, by repeating patterns, and by
adding patterns that a pattern of the list covers. -/
inductive Rewritten : List JsonPathPattern → List JsonPathPattern → Prop
  | reordered {patterns others : List JsonPathPattern} (h : patterns.Perm others) :
      Rewritten patterns others
  | repeated {patterns : List JsonPathPattern} {pattern : JsonPathPattern} (h : pattern ∈ patterns) :
      Rewritten patterns (pattern :: patterns)
  | covered {patterns : List JsonPathPattern} {ancestor pattern : JsonPathPattern}
      (h : ancestor ∈ patterns) (hcovers : ancestor.covers pattern = true) :
      Rewritten patterns (pattern :: patterns)
  | symm {patterns others : List JsonPathPattern} (h : Rewritten patterns others) :
      Rewritten others patterns
  | trans {patterns middle others : List JsonPathPattern} (h : Rewritten patterns middle)
      (h' : Rewritten middle others) : Rewritten patterns others

/-- Lists with the same patterns. -/
def SamePatterns (patterns others : List JsonPathPattern) : Prop :=
  ∀ pattern, pattern ∈ patterns ↔ pattern ∈ others

/-- Rewriting a list changes nothing that it covers. -/
theorem Rewritten.covered_iff {patterns others : List JsonPathPattern} (h : Rewritten patterns others)
    (target : JsonPathPattern) : Covered covers patterns target ↔ Covered covers others target := by
  induction h with
  | reordered h =>
    simp only [Covered, h.mem_iff]
  | repeated h =>
    simp only [Covered, exists_mem_cons_iff]
    exact ⟨Or.inr, fun hor => hor.elim (fun hcovers => ⟨_, h, hcovers⟩) id⟩
  | covered h hcovers =>
    simp only [Covered, exists_mem_cons_iff]
    exact ⟨Or.inr, fun hor => hor.elim (fun htgt => ⟨_, h, covers_trans _ _ _ hcovers htgt⟩) id⟩
  | symm _ ih => exact ih.symm
  | trans _ _ ih ih' => exact ih.trans ih'

/-- The normalized list selects what the list selects. -/
structure SelectsSame (patterns normalized : List JsonPathPattern) : Prop where
  subtrees : ∀ path, (normalized.any fun pattern => pattern.matchesPrefixOf path) =
    patterns.any fun pattern => pattern.matchesPrefixOf path
  nodes : ∀ path, (normalized.isEmpty || normalized.any fun pattern => pattern.meets path) =
    (patterns.isEmpty || patterns.any fun pattern => pattern.meets path)

theorem any_normalizedSubtrees {test : JsonPathPattern → Bool}
    (hup : ∀ ancestor pattern, ancestor.covers pattern = true → test pattern = true →
      test ancestor = true) (patterns : List JsonPathPattern) :
    (normalizedSubtrees patterns).any test = patterns.any test := by
  rw [Bool.eq_iff_iff, any_eq_true, any_eq_true]
  constructor
  · rintro ⟨pattern, hmem, htest⟩
    exact ⟨pattern, Pruning.mem_of_mem_normalize hmem, htest⟩
  · rintro ⟨pattern, hmem, htest⟩
    obtain ⟨ancestor, hanc, hcovers⟩ :=
      (Pruning.normalize_covers covers_refl covers_trans).mpr ⟨pattern, hmem, covers_refl pattern⟩
    exact ⟨ancestor, hanc, hup ancestor pattern hcovers htest⟩

theorem isEmpty_normalizedSubtrees :
    (normalizedSubtrees patterns).isEmpty = patterns.isEmpty := by
  have hany := @any_normalizedSubtrees (fun _ => true) (fun _ _ _ _ => rfl) patterns
  cases hn : normalizedSubtrees patterns <;> cases patterns <;> simp_all

theorem selectsSame_normalizedSubtrees :
    SelectsSame patterns (normalizedSubtrees patterns) where
  subtrees path := any_normalizedSubtrees
    (fun _ _ hcovers htest => matchesPrefixOf_of_covers hcovers htest) patterns
  nodes path := by
    rw [isEmpty_normalizedSubtrees]
    rw [any_normalizedSubtrees (fun _ _ hcovers htest => meets_of_covers hcovers htest)]

/-- What normalization promises of a list. -/
structure Normalizes (patterns : List JsonPathPattern) : Prop where
  selects : SelectsSame patterns (normalizedSubtrees patterns)
  uncovered : Antichain covers (normalizedSubtrees patterns)

theorem normalizes_iff :
    Normalizes patterns ↔ CoveredInOrder covers patterns := by
  have hant := @Pruning.normalize_antichain_iff _ _ covers patterns
    covers_refl covers_trans covers_antisymm
  exact ⟨fun h => hant.mp h.uncovered,
    fun h => ⟨selectsSame_normalizedSubtrees patterns, hant.mpr h⟩⟩

/-- Covered in order, rewriting a list does not change what it is normalized to. -/
theorem Rewritten.normalizedSubtrees_eq {patterns others : List JsonPathPattern}
    (h : Rewritten patterns others) (hord : CoveredInOrder covers patterns)
    (hord' : CoveredInOrder covers others) :
    normalizedSubtrees patterns = normalizedSubtrees others :=
  Pruning.normalize_eq covers_refl covers_trans covers_antisymm hord hord' h.covered_iff

/-- What normalization promises of two requests for a profile. -/
structure CanonicalNormalization (selected selected' ignored ignored' unordered unordered' :
    List JsonPathPattern) (maxDiffPaths : Nat) : Prop where
  selectedNormalizes : Normalizes selected ∧ Normalizes selected'
  ignoredNormalizes : Normalizes ignored ∧ Normalizes ignored'
  sameProfile : ApiComparisonProfile.new sha256 selected ignored unordered maxDiffPaths =
    ApiComparisonProfile.new sha256 selected' ignored' unordered' maxDiffPaths
  sameId : ∀ profile profile' : ApiComparisonProfile sha256,
    ApiComparisonProfile.new sha256 selected ignored unordered maxDiffPaths = .ok profile →
    ApiComparisonProfile.new sha256 selected' ignored' unordered' maxDiffPaths = .ok profile' →
    profile.projectionPolicyId = profile'.projectionPolicyId
  roundTrip : ∀ profile : ApiComparisonProfile sha256,
    ApiComparisonProfile.deserialize sha256 profile.serialize = .ok profile
  parses : ∀ pattern : JsonPathPattern, new pattern.asStr = .ok pattern

/-- **Normalization is canonical for two requests, whose lists are rewritten
from each other, exactly if in each list what is covered is covered by a
pattern that sorts before it.** -/
theorem normalization_canonical_iff
    {selected selected' ignored ignored' unordered unordered' : List JsonPathPattern}
    (hselected : Rewritten selected selected') (hignored : Rewritten ignored ignored')
    (hunordered : SamePatterns unordered unordered') (maxDiffPaths : Nat) :
    CanonicalNormalization sha256 selected selected' ignored ignored' unordered unordered'
        maxDiffPaths ↔
      (CoveredInOrder JsonPathPattern.covers selected ∧
        CoveredInOrder JsonPathPattern.covers selected') ∧
      CoveredInOrder JsonPathPattern.covers ignored ∧
        CoveredInOrder JsonPathPattern.covers ignored' := by
  constructor
  · intro h
    exact ⟨⟨(normalizes_iff _).mp h.selectedNormalizes.1, (normalizes_iff _).mp h.selectedNormalizes.2⟩,
      (normalizes_iff _).mp h.ignoredNormalizes.1, (normalizes_iff _).mp h.ignoredNormalizes.2⟩
  · rintro ⟨⟨hs, hs'⟩, hi, hi'⟩
    have hsame : ApiComparisonProfile.new sha256 selected ignored unordered maxDiffPaths =
        ApiComparisonProfile.new sha256 selected' ignored' unordered' maxDiffPaths :=
      ApiComparisonProfile.new_congr (hselected.normalizedSubtrees_eq hs hs')
        (hignored.normalizedSubtrees_eq hi hi') (Pruning.sortDedup_congr hunordered) maxDiffPaths
    refine {
      selectedNormalizes := ⟨(normalizes_iff _).mpr hs, (normalizes_iff _).mpr hs'⟩
      ignoredNormalizes := ⟨(normalizes_iff _).mpr hi, (normalizes_iff _).mpr hi'⟩
      sameProfile := hsame
      sameId := ?_
      roundTrip := ApiComparisonProfile.round_trip
      parses := fun pattern => JsonPathPattern.new_eq_ok_iff.mpr rfl }
    intro profile profile' hprof hprof'
    rw [hsame, hprof'] at hprof
    cases hprof
    rfl

theorem encodes_self (tokens : List String) : encodePointer tokens = encodePointer tokens := rfl

/-- The pattern of a short pointer. -/
def pointer (tokens : List String)
    (short : (encodePointer tokens).utf8ByteSize ≤ hardMaxApiComparisonPathBytes)
    (shallow : tokens.length ≤ hardMaxApiComparisonPathDepth) : JsonPathPattern :=
  ⟨encodePointer tokens, tokens, encodes_self tokens, short, shallow⟩

def dataPointer : JsonPathPattern := pointer ["data"] (by decide) (by decide)
def dataNamePointer : JsonPathPattern := pointer ["data", "name"] (by decide) (by decide)
def anyPointer : JsonPathPattern := pointer ["*"] (by decide) (by decide)
def refPointer : JsonPathPattern := pointer ["$ref"] (by decide) (by decide)

theorem normalization_canonical_iff_sample :
    (CoveredInOrder JsonPathPattern.covers [dataPointer] ∧
      CoveredInOrder JsonPathPattern.covers [dataNamePointer, dataPointer]) ∧
    CanonicalNormalization id [dataPointer] [dataNamePointer, dataPointer] [] [] [] [] 64 := by
  have hord : CoveredInOrder JsonPathPattern.covers [dataPointer] ∧
      CoveredInOrder JsonPathPattern.covers [dataNamePointer, dataPointer] := by decide +kernel
  have hemp : CoveredInOrder JsonPathPattern.covers [] := by decide
  exact ⟨hord, (normalization_canonical_iff id
    (.covered (List.mem_singleton_self dataPointer) (by decide +kernel)) (.reordered (.refl []))
    (fun _ => Iff.rfl) 64).mpr ⟨hord, hemp, hemp⟩⟩

/-- A dollar sign sorts before a star, so `/$ref` is met before the pattern
that covers it, and is kept. -/
theorem wildcard_covers_later_pattern :
    Rewritten [anyPointer] [refPointer, anyPointer] ∧
    normalizedSubtrees [refPointer, anyPointer] = [refPointer, anyPointer] ∧
    refPointer ≠ anyPointer ∧ anyPointer.covers refPointer = true ∧
    (ApiComparisonProfile.new id [anyPointer] [] [] 64).map (·.projectionPolicyId) ≠
      (ApiComparisonProfile.new id [refPointer, anyPointer] [] [] 64).map (·.projectionPolicyId) ∧
    ¬ CanonicalNormalization id [anyPointer] [refPointer, anyPointer] [] [] [] [] 64 := by
  have hcovers : anyPointer.covers refPointer = true := by decide +kernel
  have hkept : normalizedSubtrees [refPointer, anyPointer] = [refPointer, anyPointer] := by
    decide +kernel
  have hne : refPointer ≠ anyPointer := by decide +kernel
  refine ⟨.covered (List.mem_singleton_self anyPointer) hcovers, hkept, hne, hcovers,
    by decide +kernel, fun h => ?_⟩
  have hunc := h.selectedNormalizes.2.uncovered
  rw [hkept] at hunc
  exact hne (hunc anyPointer (by simp) refPointer (by simp) hcovers).symm

end Termivar.ApiEvidence
