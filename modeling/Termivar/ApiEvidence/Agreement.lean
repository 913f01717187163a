/-
# The two comparators agree

Under a profile without patterns the projection of a snapshot is the snapshot.
The streamed comparison writes it as one stream, the profiled one hashes it from
the leaves up; without collisions both tell apart exactly the snapshots that
differ with their members sorted, so both give one answer
(`comparators_agree`).
-/
import Termivar.ApiEvidence.Profiled

namespace Termivar.ApiEvidence

open ProfiledCanonicalState Value

open TreeHash (Doc)

variable {F : Type} {showFloat : F → String} {sha256 : Bytes → Bytes}

/-! ### Profiles without patterns -/

/-- A profile without patterns. -/
structure Unprojected (profile : ApiComparisonProfile sha256) : Prop where
  selected : profile.selectedPaths = []
  ignored : profile.ignoredPaths = []
  unordered : profile.unorderedArrays = []

variable {profile : ApiComparisonProfile sha256}

theorem Unprojected.keeps (h : Unprojected profile) (path : List String) :
    profile.keeps path = true := by
  simp [ApiComparisonProfile.keeps, ApiComparisonProfile.isIgnored, ApiComparisonProfile.isRelevant,
    h.selected, h.ignored]

theorem Unprojected.isUnorderedArray (h : Unprojected profile) (path : List String) :
    profile.isUnorderedArray path = false := by
  simp [ApiComparisonProfile.isUnorderedArray, h.unordered]

mutual

/-- Without patterns, everything is kept as it is. -/
theorem project_unprojected (h : Unprojected profile) : ∀ (path : List String) (value : Value F),
    value.project profile path = some value.tree
  | path, .null | path, .bool _ | path, .number _ | path, .string _ => by
    rw [project, if_pos (h.keeps path), tree]
  | path, .array items => by
    rw [project, if_pos (h.keeps path), h.isUnorderedArray, tree,
      projectItems_unprojected h path 0 items]
  | path, .object members => by
    rw [project, if_pos (h.keeps path), tree, projectMembers_unprojected h path members]

theorem projectItems_unprojected (h : Unprojected profile) :
    ∀ (path : List String) (position : Nat) (items : List (Value F)),
    projectItems profile path position items = treeItems items
  | path, position, [] => rfl
  | path, position, item :: items => by
    rw [projectItems, project_unprojected h, projectItems_unprojected h path _ items,
      treeItems]
    rfl

theorem projectMembers_unprojected (h : Unprojected profile) :
    ∀ (path : List String) (members : List (String × Value F)),
    projectMembers profile path members = treeMembers members
  | path, [] => rfl
  | path, (name, item) :: members => by
    rw [projectMembers, project_unprojected h, projectMembers_unprojected h path members,
      treeMembers]
    rfl

end

/-- Without patterns, projections are alike exactly if the trees are the same. -/
theorem alike_projected_iff {L : Type} (h : Unprojected profile) (f : Scalar F → L)
    (value other : Value F) :
    Option.Rel Doc.Alike ((value.projected profile).map (Doc.map f))
        ((other.projected profile).map (Doc.map f)) ↔
      value.sorted.tree.map f = other.sorted.tree.map f := by
  rw [projected, projected, project_unprojected h, project_unprojected h,
    Option.map_some, Option.map_some, Option.rel_some_some]
  exact Doc.alike_iff_eq (ordered_tree f _)

/-! ### Requests -/

/-- What two snapshots are compared for. -/
structure Request where
  (baselineContextId candidateContextId resourceScopeId comparisonId : OpaqueId)
  surface : ApiSurfaceKind
  (baselineStatus candidateStatus : Nat)
  pair : ApiVisibilityPairKind
  dimension : ApiVisibilityDimension
  observedAtMs : Nat
  distinct : baselineContextId ≠ candidateContextId
  baselineStatusValid : 100 ≤ baselineStatus ∧ baselineStatus ≤ 599
  candidateStatusValid : 100 ≤ candidateStatus ∧ candidateStatus ≤ 599

open ApiVisibilityComparator

/-- Two snapshots captured and compared as streams. -/
def compareSnapshots (showFloat : F → String) (sha256 : Bytes → Bytes)
    (limits : ApiVisibilityLimits) (request : Request) (value other : Value F) :
    Except ApiVisibilityEvidenceError ApiVisibilityResult := do
  let baseline ← captureView showFloat sha256 limits request.baselineContextId.value
    request.resourceScopeId.value request.surface request.baselineStatus value
  let candidate ← captureView showFloat sha256 limits request.candidateContextId.value
    request.resourceScopeId.value request.surface request.candidateStatus other
  let comparison ← compare limits request.comparisonId.value request.pair request.dimension baseline
    candidate request.observedAtMs
  return comparison.result

/-- Two snapshots captured and compared under a profile. -/
def compareProfiledSnapshots (showFloat : F → String) (limits : ApiVisibilityLimits)
    (profile : ApiComparisonProfile sha256) (request : Request) (value other : Value F) :
    Except ProfiledApiVisibilityError ApiVisibilityResult := do
  let baseline ← captureProfiledView showFloat limits profile request.baselineContextId.value
    request.resourceScopeId.value request.surface request.baselineStatus value
  let candidate ← captureProfiledView showFloat limits profile request.candidateContextId.value
    request.resourceScopeId.value request.surface request.candidateStatus other
  let envelope ← compareProfiled limits profile request.comparisonId.value request.pair
    request.dimension baseline candidate request.observedAtMs
  return envelope.comparison.result

/-- A snapshot within the limits of the streamed comparator. -/
def Streams (showFloat : F → String) (sha256 : Bytes → Bytes)
    (limits : ApiVisibilityLimits) (value : Value F) : Prop :=
  ∃ signatures, canonicalSignatures showFloat sha256 value limits = .ok signatures

/-- A snapshot within the limits of the profiled comparator. -/
def Captures (showFloat : F → String) (limits : ApiVisibilityLimits)
    (profile : ApiComparisonProfile sha256) (value : Value F) : Prop :=
  Streams showFloat sha256 limits value ∧
    ∃ result, capture showFloat sha256 limits profile value = .ok result

/-- The answer to a request, where resources and fields are the same or not. -/
def Request.answer (request : Request) (resources fields : Bool) : ApiVisibilityResult :=
  .ofEquivalent (match request.dimension with
    | .resources => resources
    | .fields => fields
    | .status => request.baselineStatus = request.candidateStatus)

section Answers

variable {limits : ApiVisibilityLimits} {value other value' other' : Value F}

/-- The answer of the streamed comparator. -/
theorem compareSnapshots_ok (request : Request) {signatures signatures' : CanonicalSignatures}
    (h : canonicalSignatures showFloat sha256 value limits = .ok signatures)
    (h' : canonicalSignatures showFloat sha256 other limits = .ok signatures') :
    compareSnapshots showFloat sha256 limits request value other =
      .ok (request.answer (signatures.resource = signatures'.resource)
        (signatures.fields = signatures'.fields)) := by
  unfold compareSnapshots captureView ApiVisibilityComparator.compare ApiVisibilityComparison.new
  simp only [opaqueHandle_value, opaqueContext_value, h, h', bind, Except.bind, pure, Except.pure,
    if_neg (not_not_intro request.baselineStatusValid),
    if_neg (not_not_intro request.candidateStatusValid), if_neg request.distinct,
    dif_pos request.distinct, ne_eq, not_true_eq_false, or_self, if_false, Except.mapError]
  cases hdim : request.dimension <;>
    simp [Request.answer, ApiVisibilityView.equivalent, hdim]

theorem captureProfiledView_ok {contextId resourceScopeId : OpaqueId} {surface : ApiSurfaceKind}
    {status : Nat} {result : ProfiledCanonicalResult} (hstat : 100 ≤ status ∧ status ≤ 599)
    (hstrs : Streams showFloat sha256 limits value)
    (h : capture showFloat sha256 limits profile value = .ok result) :
    ∃ view, captureProfiledView showFloat limits profile contextId.value resourceScopeId.value
        surface status value = .ok view ∧ Captured limits profile view ∧
      view.contextId = contextId ∧ view.resourceScopeId = resourceScopeId ∧
      view.surface = surface ∧ view.status = status ∧
      view.resourceSignature = result.resource ∧ view.fieldSignature = result.fields := by
  let view : ProfiledApiVisibilityView := {
    contextId, resourceScopeId, surface, status, limits
    resourceSignature := result.resource
    fieldSignature := result.fields
    pathIndex := result.pathIndex
    comparatorVersion := currentApiComparisonAlgorithmVersion
    canonicalizationVersion := currentApiVisibilityCanonicalizationVersion
    projectionPolicyId := profile.projectionPolicyId }
  have hview : ViewOf showFloat limits profile contextId.value resourceScopeId.value surface status
      value view result.materialSelectedValue :=
    ⟨⟨rfl, rfl, rfl, rfl⟩, opaqueHandle_value _ _, opaqueHandle_value _ _, hstat, rfl, rfl,
      hstrs, h⟩
  refine ⟨view, ?_, hview.captured, rfl, rfl, rfl, rfl, rfl, rfl⟩
  rw [captureProfiledView, captureProfiledViewWithMaterial_eq_ok_iff.mpr hview]
  rfl

/-- The answer of the profiled comparator. -/
theorem compareProfiledSnapshots_ok (hwidth : ∀ bytes, (sha256 bytes).length = 32)
    (request : Request) {result result' : ProfiledCanonicalResult}
    (hstrs : Streams showFloat sha256 limits value)
    (hstrs' : Streams showFloat sha256 limits other)
    (h : capture showFloat sha256 limits profile value = .ok result)
    (h' : capture showFloat sha256 limits profile other = .ok result') :
    compareProfiledSnapshots showFloat limits profile request value other =
      .ok (request.answer (result.resource = result'.resource) (result.fields = result'.fields)) := by
  obtain ⟨baseline, hbas, hcapt, hctx, hsc, hsurf, hstat, hrsrc, hfields⟩ :=
    @captureProfiledView_ok F showFloat sha256 profile limits value request.baselineContextId
      request.resourceScopeId request.surface _ _ request.baselineStatusValid hstrs h
  obtain ⟨candidate, hcand, hcapt', hctx', hsc', hsurf', hstat', hrsrc',
      hfields'⟩ :=
    @captureProfiledView_ok F showFloat sha256 profile limits other request.candidateContextId
      request.resourceScopeId request.surface _ _ request.candidateStatusValid hstrs' h'
  obtain ⟨envelope, henv, hof⟩ := compareProfiled_ok hwidth hcapt hcapt'
    (by rw [hctx, hctx']; exact request.distinct) (hsc.trans hsc'.symm)
    (hsurf.trans hsurf'.symm) request.comparisonId request.pair request.dimension
    request.observedAtMs
  rw [compareProfiledSnapshots, hbas, hcand]
  simp only [bind, Except.bind, henv, hof.result, pure, Except.pure]
  cases hdim : request.dimension <;>
    simp [Request.answer, ProfiledApiVisibilityView.equivalent, hdim, hstat, hstat',
      hrsrc, hrsrc', hfields, hfields']

/-- Reordering members changes neither answer. -/
theorem Reordered.compareSnapshots_eq (request : Request) (h : Reordered value value')
    (h' : Reordered other other') (hkd : value.Keyed) (hkd' : other.Keyed) :
    compareSnapshots showFloat sha256 limits request value' other' =
      compareSnapshots showFloat sha256 limits request value other := by
  simp only [compareSnapshots, captureView, h.canonicalSignatures_eq hkd,
    h'.canonicalSignatures_eq hkd']

theorem Reordered.capture_eq (h : Reordered value value') (hkd : value.Keyed) :
    capture showFloat sha256 limits profile value =
      capture showFloat sha256 limits profile value' := by
  rw [capture, capture, (h.sorted_eq hkd).1]

theorem Reordered.compareProfiledSnapshots_eq (request : Request) (h : Reordered value value')
    (h' : Reordered other other') (hkd : value.Keyed) (hkd' : other.Keyed) :
    compareProfiledSnapshots showFloat limits profile request value' other' =
      compareProfiledSnapshots showFloat limits profile request value other := by
  simp only [compareProfiledSnapshots, captureProfiledView, captureProfiledViewWithMaterial,
    h.canonicalSignatures_eq hkd, h'.canonicalSignatures_eq hkd', h.capture_eq hkd,
    h'.capture_eq hkd']

/-- All that is hashed for the signatures of a snapshot, by either comparator. -/
def comparedInputs (showFloat : F → String) (profile : ApiComparisonProfile sha256)
    (value : Value F) : List Bytes :=
  signatureInputs showFloat value ++ captureInputs showFloat sha256 profile value

/-- **The comparators give one answer, whatever the order of members.** -/
theorem comparators_agree (hwidth : ∀ bytes, (sha256 bytes).length = 32)
    (hinj : Set.InjOn sha256 { input | input ∈ comparedInputs showFloat profile value ∨
      input ∈ comparedInputs showFloat profile other })
    (hprofile : Unprojected profile) (request : Request) {streamed profiled : ApiVisibilityLimits}
    (hstreams : Streams showFloat sha256 streamed value)
    (hstreams' : Streams showFloat sha256 streamed other)
    (hcaptures : Captures showFloat profiled profile value)
    (hcaptures' : Captures showFloat profiled profile other)
    (hkeyed : value.Keyed) (hkeyed' : other.Keyed) :
    ∃ answer, ∀ value' other', Reordered value value' → Reordered other other' →
      compareSnapshots showFloat sha256 streamed request value' other' = .ok answer ∧
      compareProfiledSnapshots showFloat profiled profile request value' other' = .ok answer := by
  obtain ⟨signatures, hsigs⟩ := hstreams
  obtain ⟨signatures', hsigs'⟩ := hstreams'
  obtain ⟨⟨within, hwith⟩, result, hres⟩ := hcaptures
  obtain ⟨⟨within', hwith'⟩, result', hres'⟩ := hcaptures'
  have hvalue : ∀ input ∈ comparedInputs showFloat profile value, input ∈ { input |
      input ∈ comparedInputs showFloat profile value ∨
        input ∈ comparedInputs showFloat profile other } := fun _ => Or.inl
  have hoth : ∀ input ∈ comparedInputs showFloat profile other, input ∈ { input |
      input ∈ comparedInputs showFloat profile value ∨
        input ∈ comparedInputs showFloat profile other } := fun _ => Or.inr
  have hresources : signatures.resource = signatures'.resource ↔ result.resource = result'.resource :=
    (resource_signature_iff hinj (fun _ h => hvalue _ (List.mem_append_left _ h))
      (fun _ h => hoth _ (List.mem_append_left _ h)) hsigs hsigs').trans
    ((capture_resource_iff hwidth hinj (fun _ h => hvalue _ (List.mem_append_right _ h))
      (fun _ h => hoth _ (List.mem_append_right _ h)) hwith hwith' hres hres').trans
      (alike_projected_iff hprofile _ value other)).symm
  have hfields : signatures.fields = signatures'.fields ↔ result.fields = result'.fields :=
    (field_signature_iff hinj (fun _ h => hvalue _ (List.mem_append_left _ h))
      (fun _ h => hoth _ (List.mem_append_left _ h)) hsigs hsigs').trans
    ((capture_fields_iff hwidth hinj (fun _ h => hvalue _ (List.mem_append_right _ h))
      (fun _ h => hoth _ (List.mem_append_right _ h)) hwith hwith' hres hres').trans
      (alike_projected_iff hprofile _ value other)).symm
  refine ⟨request.answer (signatures.resource = signatures'.resource)
    (signatures.fields = signatures'.fields), fun value' other' h h' => ⟨?_, ?_⟩⟩
  · rw [h.compareSnapshots_eq request h' hkeyed hkeyed']
    exact compareSnapshots_ok request hsigs hsigs'
  · rw [h.compareProfiledSnapshots_eq request h' hkeyed hkeyed',
      compareProfiledSnapshots_ok hwidth request ⟨within, hwith⟩ ⟨within', hwith'⟩ hres hres']
    simp only [hresources, hfields]

end Answers

/-- The profile without patterns. -/
def wholeProfile (sha256 : Bytes → Bytes) : ApiComparisonProfile sha256 where
  algorithmVersion := currentApiComparisonAlgorithmVersion
  selectedPaths := []
  ignoredPaths := []
  unorderedArrays := []
  maxDiffPaths := defaultApiVisibilityDiffPaths
  projectionPolicyId := ApiEvidence.projectionPolicyId sha256 currentApiComparisonAlgorithmVersion
    [] [] [] defaultApiVisibilityDiffPaths
  current := rfl
  selectedNormal := rfl
  ignoredNormal := rfl
  unorderedNormal := rfl
  fewDiffs := by decide
  few := by decide
  compatible := rfl
  identified := rfl

theorem unprojected_wholeProfile : Unprojected (wholeProfile sha256) := ⟨rfl, rfl, rfl⟩

/-- A hash of 32 bytes for small inputs. -/
def checksum (bytes : Bytes) : Bytes :=
  beBytes 32 (bytes.foldl (fun sum byte => (sum * 257 + byte.toNat + 1) % 2 ^ 256) 0)

def openRequest : Request where
  baselineContextId := ⟨"owner", by decide, by decide⟩
  candidateContextId := ⟨"guest", by decide, by decide⟩
  resourceScopeId := ⟨"resource", by decide, by decide⟩
  comparisonId := ⟨"comparison", by decide, by decide⟩
  surface := .jsonHttp
  baselineStatus := 200
  candidateStatus := 200
  pair := .authorizationContext
  dimension := .resources
  observedAtMs := 0
  distinct := by decide
  baselineStatusValid := by decide
  candidateStatusValid := by decide

/-- An object with one member. -/
def memberValue (value : Value Unit) : Value Unit := .object [("a", value)]

theorem exists_of_isOk {ε α : Type} {result : Except ε α} (h : result.isOk = true) :
    ∃ value, result = .ok value := by
  cases result with
  | error failure => cases h
  | ok value => exact ⟨value, rfl⟩

theorem comparators_agree_sample : ∃ answer, ∀ value' other',
    Reordered (memberValue .null) value' → Reordered (memberValue (.bool true)) other' →
    compareSnapshots (fun _ => "0.5") checksum .standard openRequest value' other' = .ok answer ∧
    compareProfiledSnapshots (fun _ => "0.5") .standard (wholeProfile checksum) openRequest value'
      other' = .ok answer := by
  have hstrs : Streams (fun _ => "0.5") checksum .standard (memberValue .null) :=
    exists_of_isOk (by decide +kernel)
  have hstrs' : Streams (fun _ => "0.5") checksum .standard (memberValue (.bool true)) :=
    exists_of_isOk (by decide +kernel)
  refine comparators_agree (fun _ => length_beBytes _ _) ?_ unprojected_wholeProfile openRequest
    hstrs hstrs' ⟨hstrs, exists_of_isOk (by decide +kernel)⟩
    ⟨hstrs', exists_of_isOk (by decide +kernel)⟩ (by simp [memberValue, Value.Keyed,
      Value.KeyedMembers]) (by simp [memberValue, Value.Keyed, Value.KeyedMembers])
  have hdist : ∀ input ∈ comparedInputs (fun _ => "0.5") (wholeProfile checksum)
      (memberValue .null) ++ comparedInputs (fun _ => "0.5") (wholeProfile checksum)
      (memberValue (.bool true)), ∀ input' ∈ comparedInputs (fun _ => "0.5")
      (wholeProfile checksum) (memberValue .null) ++ comparedInputs (fun _ => "0.5")
      (wholeProfile checksum) (memberValue (.bool true)),
      checksum input = checksum input' → input = input' := by
    decide +kernel
  exact fun input h input' h' => hdist input (List.mem_append.mpr h) input'
    (List.mem_append.mpr h')

end Termivar.ApiEvidence
