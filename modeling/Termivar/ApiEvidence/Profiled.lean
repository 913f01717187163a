/-
# Comparing under a profile

`termivar-scanner/src/api_evidence/profiled.rs`: views captured under a profile
and their comparison. The snapshot must be within the limits as a whole before
its projection is hashed. A comparison is bound to the versions and the policy
by its identifier.
-/
import Termivar.ApiEvidence.Diff
import Termivar.ApiEvidence.Projection
import Termivar.Hex

namespace Termivar.ApiEvidence

def profiledComparisonIdDomain : Bytes :=
  utf8Bytes "venom.api-visibility.comparison-id.v3\x00"

/-- A view captured under a profile. -/
structure ProfiledApiVisibilityView where
  (contextId resourceScopeId : OpaqueId)
  surface : ApiSurfaceKind
  status : Nat
  (resourceSignature fieldSignature : Bytes)
  pathIndex : PathIndex
  limits : ApiVisibilityLimits
  comparatorVersion : ComparisonAlgorithmVersion
  canonicalizationVersion : CanonicalizationVersion
  projectionPolicyId : Bytes

/-- Whether two views are equivalent in a dimension. -/
def ProfiledApiVisibilityView.equivalent (dimension : ApiVisibilityDimension)
    (baseline candidate : ProfiledApiVisibilityView) : Bool :=
  match dimension with
  | .fields => baseline.fieldSignature = candidate.fieldSignature
  | .resources => baseline.resourceSignature = candidate.resourceSignature
  | .status => baseline.status = candidate.status

/-- A comparison with the metadata it can be replayed from. -/
structure ProfiledApiVisibilityComparison where
  comparison : ApiVisibilityComparison
  comparatorVersion : ComparisonAlgorithmVersion
  canonicalizationVersion : CanonicalizationVersion
  projectionPolicyId : Bytes
  limits : ApiVisibilityLimits
  diff : RedactedVisibilityDiff

variable {F : Type} (showFloat : F → String) {sha256 : Bytes → Bytes}

namespace ApiVisibilityComparator

/-- `ApiVisibilityComparator::capture_profiled_view_with_material`. -/
def captureProfiledViewWithMaterial (limits : ApiVisibilityLimits)
    (profile : ApiComparisonProfile sha256) (contextId resourceScopeId : String)
    (surface : ApiSurfaceKind) (status : Nat) (snapshot : Value F) :
    Except ProfiledApiVisibilityError (ProfiledApiVisibilityView × Bool) := do
  let contextId ← (opaqueHandle contextId "context id").mapError .evidence
  let resourceScopeId ← (opaqueHandle resourceScopeId "resource scope id").mapError .evidence
  if ¬ (100 ≤ status ∧ status ≤ 599) then throw (.evidence (.invalidHttpStatus status))
  let _ ← (canonicalSignatures showFloat sha256 snapshot limits).mapError .evidence
  let canonical ← ProfiledCanonicalState.capture showFloat sha256 limits profile snapshot
  return ({
    contextId, resourceScopeId, surface, status, limits
    resourceSignature := canonical.resource
    fieldSignature := canonical.fields
    pathIndex := canonical.pathIndex
    comparatorVersion := currentApiComparisonAlgorithmVersion
    canonicalizationVersion := currentApiVisibilityCanonicalizationVersion
    projectionPolicyId := profile.projectionPolicyId }, canonical.materialSelectedValue)

/-- `ApiVisibilityComparator::capture_profiled_view`. -/
def captureProfiledView (limits : ApiVisibilityLimits) (profile : ApiComparisonProfile sha256)
    (contextId resourceScopeId : String) (surface : ApiSurfaceKind) (status : Nat)
    (snapshot : Value F) : Except ProfiledApiVisibilityError ProfiledApiVisibilityView :=
  Prod.fst <$> captureProfiledViewWithMaterial showFloat limits profile contextId resourceScopeId
    surface status snapshot

end ApiVisibilityComparator

/-- What every comparison identifier of a policy starts with. -/
def comparisonIdPrefix (comparatorVersion : ComparisonAlgorithmVersion)
    (canonicalizationVersion : CanonicalizationVersion) (policyId : Bytes) : String :=
  "profiled:" ++ comparatorVersion.asStr ++ ":" ++ canonicalizationVersion.asStr ++ ":" ++
    hex policyId ++ ":"

variable (sha256) in
def profiledComparisonId (comparisonId : String) (policyId : Bytes)
    (comparatorVersion : ComparisonAlgorithmVersion)
    (canonicalizationVersion : CanonicalizationVersion) :
    Except ProfiledApiVisibilityError String := do
  let comparisonId ← (opaqueHandle comparisonId "comparison id").mapError .evidence
  return comparisonIdPrefix comparatorVersion canonicalizationVersion policyId ++
    hex (sha256 (profiledComparisonIdDomain ++ frame 8 (utf8Bytes comparisonId.value)))

namespace ApiVisibilityComparator

/-- What is checked of each view, before the two are compared. -/
def checkView (limits : ApiVisibilityLimits) (profile : ApiComparisonProfile sha256)
    (view : ProfiledApiVisibilityView) : Except ProfiledApiVisibilityError Unit := do
  if view.comparatorVersion ≠ currentApiComparisonAlgorithmVersion ∨
      view.comparatorVersion ≠ profile.algorithmVersion then throw .comparatorVersionMismatch
  if view.canonicalizationVersion ≠ currentApiVisibilityCanonicalizationVersion then
    throw .canonicalizationVersionMismatch
  if view.projectionPolicyId ≠ profile.projectionPolicyId then throw .projectionPolicyMismatch
  if view.limits ≠ limits then throw (.evidence .limitsMismatch)

/-- `ApiVisibilityComparator::compare_profiled`. -/
def compareProfiled (limits : ApiVisibilityLimits) (profile : ApiComparisonProfile sha256)
    (comparisonId : String) (pair : ApiVisibilityPairKind) (dimension : ApiVisibilityDimension)
    (baseline candidate : ProfiledApiVisibilityView) (observedAtMs : Nat) :
    Except ProfiledApiVisibilityError ProfiledApiVisibilityComparison := do
  checkView limits profile baseline
  checkView limits profile candidate
  if baseline.contextId = candidate.contextId then throw (.evidence .identicalContexts)
  if baseline.resourceScopeId ≠ candidate.resourceScopeId then
    throw (.evidence .resourceScopeMismatch)
  if baseline.surface ≠ candidate.surface then throw (.evidence .surfaceMismatch)
  let result := ApiVisibilityResult.ofEquivalent
    (ProfiledApiVisibilityView.equivalent dimension baseline candidate)
  let diff ← visibilityDiff dimension baseline.pathIndex candidate.pathIndex profile.maxDiffPaths
  let comparisonId ← profiledComparisonId sha256 comparisonId profile.projectionPolicyId
    currentApiComparisonAlgorithmVersion currentApiVisibilityCanonicalizationVersion
  let comparison ← (ApiVisibilityComparison.new comparisonId baseline.surface pair result dimension
    baseline.contextId.value candidate.contextId.value baseline.resourceScopeId.value
    observedAtMs).mapError .vocabulary
  return {
    comparison, limits, diff
    comparatorVersion := currentApiComparisonAlgorithmVersion
    canonicalizationVersion := currentApiVisibilityCanonicalizationVersion
    projectionPolicyId := profile.projectionPolicyId }

end ApiVisibilityComparator

/-! ### Captured views -/

section Captures

variable {showFloat} {limits : ApiVisibilityLimits} {profile : ApiComparisonProfile sha256}
  {contextId resourceScopeId : String} {surface : ApiSurfaceKind} {status : Nat} {snapshot : Value F}
  {view : ProfiledApiVisibilityView} {material : Bool}

open ApiVisibilityComparator

theorem opaqueHandle_ok {value field : String} {id : OpaqueId} (h : opaqueHandle value field = .ok id) :
    id.value = value := by
  unfold opaqueHandle at h
  split_ifs at h
  cases h
  rfl

/-- What the capture of a view under a profile sets. -/
structure Captured (limits : ApiVisibilityLimits) (profile : ApiComparisonProfile sha256)
    (view : ProfiledApiVisibilityView) : Prop where
  comparatorVersion : view.comparatorVersion = currentApiComparisonAlgorithmVersion
  canonicalizationVersion :
    view.canonicalizationVersion = currentApiVisibilityCanonicalizationVersion
  projectionPolicyId : view.projectionPolicyId = profile.projectionPolicyId
  limits : view.limits = limits

/-- The view of a snapshot: what is asked for, and what its capture computes. -/
structure ViewOf (showFloat : F → String) (limits : ApiVisibilityLimits)
    (profile : ApiComparisonProfile sha256) (contextId resourceScopeId : String)
    (surface : ApiSurfaceKind) (status : Nat) (snapshot : Value F)
    (view : ProfiledApiVisibilityView) (material : Bool) : Prop where
  captured : Captured limits profile view
  contextId : opaqueHandle contextId "context id" = .ok view.contextId
  resourceScopeId : opaqueHandle resourceScopeId "resource scope id" = .ok view.resourceScopeId
  validStatus : 100 ≤ status ∧ status ≤ 599
  surface : view.surface = surface
  status : view.status = status
  within : ∃ signatures, canonicalSignatures showFloat sha256 snapshot limits = .ok signatures
  capture : ProfiledCanonicalState.capture showFloat sha256 limits profile snapshot =
    .ok ⟨view.resourceSignature, view.fieldSignature, view.pathIndex, material⟩

theorem mapError_eq_ok {ε ε' α : Type} {f : ε → ε'} {result : Except ε α} {value : α} :
    result.mapError f = .ok value ↔ result = .ok value := by
  cases result <;> simp [Except.mapError]

theorem captureProfiledViewWithMaterial_eq_ok_iff :
    captureProfiledViewWithMaterial showFloat limits profile contextId resourceScopeId surface status
        snapshot = .ok (view, material) ↔
      ViewOf showFloat limits profile contextId resourceScopeId surface status snapshot view
        material := by
  constructor
  · intro h
    obtain ⟨context, hctx, h⟩ := bind_ok h
    obtain ⟨scope, hsc, h⟩ := bind_ok h
    by_cases hstat : 100 ≤ status ∧ status ≤ 599
    · rw [if_neg (not_not_intro hstat)] at h
      obtain ⟨signatures, hsigs, h⟩ := bind_ok h
      obtain ⟨canonical, hcanon, h⟩ := bind_ok h
      cases h
      exact ⟨⟨rfl, rfl, rfl, rfl⟩, mapError_eq_ok.mp hctx, mapError_eq_ok.mp hsc, hstat, rfl,
        rfl, ⟨signatures, mapError_eq_ok.mp hsigs⟩, hcanon⟩
    · rw [if_pos hstat] at h
      cases h
  · intro h
    obtain ⟨signatures, hsigs⟩ := h.within
    unfold captureProfiledViewWithMaterial
    rw [h.contextId, h.resourceScopeId, hsigs, h.capture]
    simp only [Except.mapError, bind, Except.bind, if_neg (not_not_intro h.validStatus)]
    obtain ⟨⟨hcomp, hcan, hpol, hlims⟩, -, -, -, hsurf, hstat, -, -⟩ := h
    obtain ⟨context, scope, _, _, resource, fields, index, _, _, _, _⟩ := view
    subst hcomp hcan hpol hlims hsurf hstat
    rfl

end Captures

/-! ### Comparisons -/

section Comparisons

variable {limits : ApiVisibilityLimits} {profile : ApiComparisonProfile sha256}
  {baseline candidate : ProfiledApiVisibilityView}

theorem isBlank_append_left {front : String} (h : isBlank front = false) (back : String) :
    isBlank (front ++ back) = false := by
  unfold isBlank at h ⊢
  rw [String.toList_append, List.all_append, h, Bool.false_and]

/-- The identifier that a comparison is given. -/
def boundComparisonId (sha256 : Bytes → Bytes) (profile : ApiComparisonProfile sha256)
    (comparisonId : OpaqueId) : String :=
  comparisonIdPrefix currentApiComparisonAlgorithmVersion
      currentApiVisibilityCanonicalizationVersion profile.projectionPolicyId ++
    hex (sha256 (profiledComparisonIdDomain ++ frame 8 (utf8Bytes comparisonId.value)))

/-- Two digests and the versions are a valid identifier. -/
theorem boundComparisonId_valid (hwidth : ∀ bytes, (sha256 bytes).length = 32)
    (profile : ApiComparisonProfile sha256) (comparisonId : OpaqueId) :
    isBlank (boundComparisonId sha256 profile comparisonId) = false ∧
      (boundComparisonId sha256 profile comparisonId).utf8ByteSize ≤ maxOpaqueContextBytes := by
  have hpol : profile.projectionPolicyId.length = 32 := by
    rw [profile.identified]
    exact hwidth _
  constructor
  · simp only [boundComparisonId, comparisonIdPrefix, String.append_assoc]
    exact isBlank_append_left (by decide) _
  · simp only [boundComparisonId, comparisonIdPrefix, String.utf8ByteSize_append,
      Hex.utf8ByteSize_hex, hpol, hwidth]
    decide

/-- The result of comparing two views. -/
structure ComparisonOf (limits : ApiVisibilityLimits) (profile : ApiComparisonProfile sha256)
    (comparisonId : OpaqueId) (pair : ApiVisibilityPairKind) (dimension : ApiVisibilityDimension)
    (baseline candidate : ProfiledApiVisibilityView) (observedAtMs : Nat)
    (envelope : ProfiledApiVisibilityComparison) : Prop where
  comparisonId : envelope.comparison.comparisonId.value = boundComparisonId sha256 profile comparisonId
  surface : envelope.comparison.surface = baseline.surface
  pair : envelope.comparison.pair = pair
  result : envelope.comparison.result =
    .ofEquivalent (ProfiledApiVisibilityView.equivalent dimension baseline candidate)
  baselineContextId : envelope.comparison.baselineContextId = baseline.contextId
  candidateContextId : envelope.comparison.candidateContextId = candidate.contextId
  resourceScopeId : envelope.comparison.resourceScopeId = baseline.resourceScopeId
  observedAtMs : envelope.comparison.observedAtMs = observedAtMs
  comparatorVersion : envelope.comparatorVersion = currentApiComparisonAlgorithmVersion
  canonicalizationVersion :
    envelope.canonicalizationVersion = currentApiVisibilityCanonicalizationVersion
  projectionPolicyId : envelope.projectionPolicyId = profile.projectionPolicyId
  limits : envelope.limits = limits
  diff : visibilityDiff dimension baseline.pathIndex candidate.pathIndex profile.maxDiffPaths =
    .ok envelope.diff
  dimension : envelope.comparison.dimension = dimension

theorem checkView_ok {view : ProfiledApiVisibilityView} (h : Captured limits profile view) :
    ApiVisibilityComparator.checkView limits profile view = .ok () := by
  obtain ⟨hcomp, hcan, hpol, hlims⟩ := h
  have hvers : ¬ (view.comparatorVersion ≠ currentApiComparisonAlgorithmVersion ∨
      view.comparatorVersion ≠ profile.algorithmVersion) := by
    simp [hcomp, profile.current]
  simp only [ApiVisibilityComparator.checkView, if_neg hvers,
    if_neg (not_not_intro hcan), if_neg (not_not_intro hpol),
    if_neg (not_not_intro hlims)]
  rfl

/-- **Views captured under the profile, in two contexts, for one resource and
one surface, are compared.** -/
theorem compareProfiled_ok (hwidth : ∀ bytes, (sha256 bytes).length = 32)
    (hbas : Captured limits profile baseline) (hcand : Captured limits profile candidate)
    (hctxs : baseline.contextId ≠ candidate.contextId)
    (hsc : baseline.resourceScopeId = candidate.resourceScopeId)
    (hsurf : baseline.surface = candidate.surface) (comparisonId : OpaqueId)
    (pair : ApiVisibilityPairKind) (dimension : ApiVisibilityDimension) (observedAtMs : Nat) :
    ∃ envelope, ApiVisibilityComparator.compareProfiled limits profile comparisonId.value pair
        dimension baseline candidate observedAtMs = .ok envelope ∧
      ComparisonOf limits profile comparisonId pair dimension baseline candidate observedAtMs
        envelope := by
  obtain ⟨diff, hdiff, -, -⟩ :=
    @visibilityDiff_ok dimension baseline.pathIndex candidate.pathIndex _ profile.fewDiffs
  obtain ⟨hblk, hsh⟩ := boundComparisonId_valid hwidth profile comparisonId
  let bound : OpaqueId := ⟨boundComparisonId sha256 profile comparisonId, hblk, hsh⟩
  have hid : profiledComparisonId sha256 comparisonId.value profile.projectionPolicyId
      currentApiComparisonAlgorithmVersion currentApiVisibilityCanonicalizationVersion =
      .ok bound.value := by
    rw [profiledComparisonId, opaqueHandle_value]
    rfl
  have hnew : ApiVisibilityComparison.new bound.value baseline.surface pair
      (.ofEquivalent (ProfiledApiVisibilityView.equivalent dimension baseline candidate)) dimension
      baseline.contextId.value candidate.contextId.value baseline.resourceScopeId.value
      observedAtMs = .ok ⟨bound, baseline.surface, pair,
        .ofEquivalent (ProfiledApiVisibilityView.equivalent dimension baseline candidate), dimension,
        baseline.contextId, candidate.contextId, baseline.resourceScopeId, observedAtMs,
        hctxs⟩ := by
    unfold ApiVisibilityComparison.new
    simp only [opaqueContext_value, bind, Except.bind, dif_pos hctxs]
    rfl
  refine ⟨⟨⟨bound, baseline.surface, pair,
      .ofEquivalent (ProfiledApiVisibilityView.equivalent dimension baseline candidate), dimension,
      baseline.contextId, candidate.contextId, baseline.resourceScopeId, observedAtMs, hctxs⟩,
    currentApiComparisonAlgorithmVersion, currentApiVisibilityCanonicalizationVersion,
    profile.projectionPolicyId, limits, diff⟩, ?_, ?_⟩
  · unfold ApiVisibilityComparator.compareProfiled
    simp only [checkView_ok hbas, checkView_ok hcand, if_neg hctxs,
      if_neg (not_not_intro hsc), if_neg (not_not_intro hsurf), hdiff, hid, hnew,
      Except.mapError, bind, Except.bind, pure, Except.pure]
  · exact ⟨rfl, rfl, rfl, rfl, rfl, rfl, rfl, rfl, rfl, rfl, rfl, rfl, hdiff, rfl⟩

end Comparisons

end Termivar.ApiEvidence
