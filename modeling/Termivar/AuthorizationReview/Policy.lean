/-
# Policies of an authorization review

`termivar-scanner/src/authorization_review/policy.rs`: what a decoded policy must
be. Its comparison profile selects some subtrees by exact pointers; what is
ignored or without an order lies within them. The identifier of a policy is the
digest of its parts.

The parser of the file and the resolution of its resource are parameters.
-/
import Termivar.ApiEvidence.Pointer
import Termivar.ApiEvidence.Profiled

namespace Termivar.AuthorizationReview

open ApiEvidence List

def authorizationReviewPolicySchema : String := "security.authorization-review-policy/v1"
def authorizationReviewAlgorithmVersion : String := "security.authorization-differential/v1"
def hardMaxSelectedPaths : Nat := 8
def hardMaxIgnoredPaths : Nat := 16
def hardMaxUnorderedArrayPaths : Nat := 8
def hardMaxPathBytes : Nat := 256
def hardMaxDiffPaths : Nat := 32
def hardMaxHandleBytes : Nat := 128

def policyIdDomain : Bytes := utf8Bytes "security.authorization-review-policy.identity.v1\x00"
def resourceScopeDomain : Bytes := utf8Bytes "security.authorization-review-resource.v1\x00"
def handleDomain : Bytes := utf8Bytes "security.authorization-review-handle.v1\x00"

inductive AuthorizationReviewExpectation where
  | primaryOnly

def AuthorizationReviewExpectation.wire : AuthorizationReviewExpectation → String
  | .primaryOnly => "primary-only"

inductive AuthorizationReviewMethod where
  | get

def AuthorizationReviewMethod.wire : AuthorizationReviewMethod → String
  | .get => "GET"

inductive AuthorizationReviewPolicyError where
  | unsupportedSchema
  | unsupportedExpectation
  | unsupportedMethod
  | invalidResource
  | invalidResourceHandle
  | invalidComparisonProfile

structure WireComparison where
  (selectedPaths ignoredPaths unorderedArrayPaths : List String)
  maxDiffPaths : Nat

structure WirePolicy where
  (schema resource resourceHandle expectation method : String)
  comparison : WireComparison

/-! ### Paths -/

/-- One path, which the paths before it do not name. -/
def parseExactPath (selected : Bool) (unique : List String) (value : String) :
    Except AuthorizationReviewPolicyError JsonPathPattern := do
  if value.utf8ByteSize > hardMaxPathBytes then throw .invalidComparisonProfile
  let path ← (JsonPathPattern.new value).mapError fun _ => .invalidComparisonProfile
  if path.asStr.utf8ByteSize > hardMaxPathBytes ∨ (selected = true ∧ path.asStr = "") ∨
      ['*'] ∈ path.asStr.toList.splitOn '/' ∨ path.asStr ∈ unique then
    throw .invalidComparisonProfile
  return path

def parseExactPathsAfter (selected : Bool) : List String → List String →
    Except AuthorizationReviewPolicyError (List JsonPathPattern)
  | _, [] => .ok []
  | unique, value :: values => do
    let path ← parseExactPath selected unique value
    return path :: (← parseExactPathsAfter selected (path.asStr :: unique) values)

def parseExactPaths (values : List String) (selected : Bool) :
    Except AuthorizationReviewPolicyError (List JsonPathPattern) :=
  parseExactPathsAfter selected [] values

def isWithin (root candidate : String) : Bool :=
  candidate = root || (root.toList.isPrefixOf candidate.toList &&
    (candidate.toList.drop root.toList.length).head? = some '/')

def isStrictDescendant (root candidate : String) : Bool :=
  candidate ≠ root && isWithin root candidate

def hasRedundantSubtrees : List JsonPathPattern → Bool
  | [] => false
  | left :: rest => (rest.any fun right =>
      isWithin left.asStr right.asStr || isWithin right.asStr left.asStr) ||
        hasRedundantSubtrees rest

/-! ### Profiles -/

variable (sha256 : Bytes → Bytes)

def buildComparisonProfile (wire : WireComparison) :
    Except AuthorizationReviewPolicyError (ApiComparisonProfile sha256) := do
  if wire.selectedPaths = [] ∨ wire.selectedPaths.length > hardMaxSelectedPaths ∨
      wire.ignoredPaths.length > hardMaxIgnoredPaths ∨
      wire.unorderedArrayPaths.length > hardMaxUnorderedArrayPaths ∨ wire.maxDiffPaths = 0 ∨
      wire.maxDiffPaths > hardMaxDiffPaths then
    throw .invalidComparisonProfile
  let selected ← parseExactPaths wire.selectedPaths true
  let ignored ← parseExactPaths wire.ignoredPaths false
  let unordered ← parseExactPaths wire.unorderedArrayPaths false
  if hasRedundantSubtrees selected ∨ hasRedundantSubtrees ignored ∨
      (ignored.any fun path => !selected.any fun root => isStrictDescendant root.asStr path.asStr) ∨
      (unordered.any fun path => !selected.any fun root => isWithin root.asStr path.asStr) ∨
      (unordered.any fun path => ignored.any fun root => isWithin root.asStr path.asStr) then
    throw .invalidComparisonProfile
  (ApiComparisonProfile.new sha256 selected ignored unordered wire.maxDiffPaths).mapError
    fun _ => .invalidComparisonProfile

section Build

variable {sha256} {selected : Bool}

theorem parseExactPath_ok {unique : List String} {value : String} {path : JsonPathPattern}
    (h : parseExactPath selected unique value = .ok path) :
    (selected = true → path.tokens ≠ []) ∧ "*" ∉ path.tokens := by
  unfold parseExactPath at h
  by_cases hlong : value.utf8ByteSize > hardMaxPathBytes
  · rw [if_pos hlong] at h
    cases h
  rw [if_neg hlong] at h
  obtain ⟨parsed, -, h⟩ := bind_ok h
  split_ifs at h with hrefused
  · cases h
  obtain rfl : parsed = path := Except.ok.inj h
  obtain ⟨canonical, tokens, rfl, hsh, hshal⟩ := parsed
  simp only [JsonPathPattern.asStr, not_or] at hrefused
  obtain ⟨-, hroot, hstar, -⟩ := hrefused
  refine ⟨fun hselected htokens => ?_, fun hmem => hstar ?_⟩
  · obtain rfl : tokens = [] := htokens
    exact hroot ⟨hselected, rfl⟩
  · have hno : ∀ segment ∈ tokens.map fun token => encodeToken token.toList, '/' ∉ segment := by
      intro segment hsegm
      obtain ⟨token, -, rfl⟩ := mem_map.mp hsegm
      exact not_mem_encodeToken token.toList
    rw [encodePointer_eq, ← nil_append (joinSegments _), splitOn_joinSegments not_mem_nil hno]
    exact mem_cons_of_mem _ (mem_map.mpr ⟨"*", hmem, rfl⟩)

theorem mem_parseExactPathsAfter : ∀ {values unique : List String} {paths : List JsonPathPattern},
    parseExactPathsAfter selected unique values = .ok paths →
    paths.length = values.length ∧ ∀ path ∈ paths,
      (selected = true → path.tokens ≠ []) ∧ "*" ∉ path.tokens
  | [], unique, paths, h => by
    cases h
    exact ⟨rfl, fun _ hpath => absurd hpath not_mem_nil⟩
  | value :: values, unique, paths, h => by
    obtain ⟨path, hpath, h⟩ := bind_ok h
    obtain ⟨rest, hrest, h⟩ := bind_ok h
    cases h
    obtain ⟨hlength, hall⟩ := mem_parseExactPathsAfter hrest
    exact ⟨by rw [length_cons, hlength, length_cons],
      forall_mem_cons.mpr ⟨parseExactPath_ok hpath, hall⟩⟩

theorem selectedPaths_new {selected ignored unordered : List JsonPathPattern} {maxDiffPaths : Nat}
    {profile : ApiComparisonProfile sha256}
    (h : ApiComparisonProfile.new sha256 selected ignored unordered maxDiffPaths = .ok profile) :
    profile.selectedPaths = normalizedSubtrees selected := by
  unfold ApiComparisonProfile.new at h
  split_ifs at h
  cases h
  rfl

/-- **What is built selects something, by exact pointers.** -/
theorem exactProfile_build {wire : WireComparison} {profile : ApiComparisonProfile sha256}
    (h : buildComparisonProfile sha256 wire = .ok profile) : ExactProfile profile := by
  unfold buildComparisonProfile at h
  by_cases hcounts : wire.selectedPaths = [] ∨ wire.selectedPaths.length > hardMaxSelectedPaths ∨
      wire.ignoredPaths.length > hardMaxIgnoredPaths ∨
      wire.unorderedArrayPaths.length > hardMaxUnorderedArrayPaths ∨ wire.maxDiffPaths = 0 ∨
      wire.maxDiffPaths > hardMaxDiffPaths
  · rw [if_pos hcounts] at h
    cases h
  rw [if_neg hcounts] at h
  obtain ⟨selected, hselected, h⟩ := bind_ok h
  obtain ⟨ignored, hign, h⟩ := bind_ok h
  obtain ⟨unordered, hunor, h⟩ := bind_ok h
  split_ifs at h
  · cases h
  have hnew : ApiComparisonProfile.new sha256 selected ignored unordered wire.maxDiffPaths =
      .ok profile := mapError_eq_ok.mp h
  obtain ⟨hlength, hall⟩ := mem_parseExactPathsAfter hselected
  have hsome : selected ≠ [] := by
    rintro rfl
    exact hcounts (Or.inl (length_eq_zero_iff.mp hlength.symm))
  have hmem : ∀ pattern ∈ profile.selectedPaths, pattern ∈ selected := fun pattern hpat => by
    rw [selectedPaths_new hnew] at hpat
    exact Pruning.mem_of_mem_normalize hpat
  refine ⟨?_, fun pattern hpat => (hall pattern (hmem pattern hpat)).1 rfl,
    fun pattern hpat => (hall pattern (hmem pattern hpat)).2⟩
  have hemp := isEmpty_normalizedSubtrees selected
  rw [← selectedPaths_new hnew, isEmpty_eq_false_iff.mpr hsome] at hemp
  exact isEmpty_eq_false_iff.mp hemp

end Build

/-! ### Policies -/

/-- A policy; its profile is exact, as built. -/
structure AuthorizationReviewPolicy where
  expectation : AuthorizationReviewExpectation
  method : AuthorizationReviewMethod
  comparison : ApiComparisonProfile sha256
  resource : String
  handleDigest : Bytes
  exact : ExactProfile comparison

def domainDigest (domain value : Bytes) : Bytes := sha256 (domain ++ frame 8 value)

def resourceScopeIdOf (resource : String) : Bytes :=
  domainDigest sha256 resourceScopeDomain (utf8Bytes resource)

namespace AuthorizationReviewPolicy

variable {sha256}

def resourceScopeId (policy : AuthorizationReviewPolicy sha256) : Bytes :=
  resourceScopeIdOf sha256 policy.resource

def policyId (policy : AuthorizationReviewPolicy sha256) : Bytes :=
  sha256 (policyIdDomain ++ frame 8 (utf8Bytes authorizationReviewPolicySchema) ++
    frame 8 (utf8Bytes authorizationReviewAlgorithmVersion) ++ frame 8 policy.resourceScopeId ++
    frame 8 policy.handleDigest ++ frame 8 (utf8Bytes policy.expectation.wire) ++
    frame 8 (utf8Bytes policy.method.wire) ++ frame 8 policy.comparison.projectionPolicyId ++
    frame 8 (beBytes 8 policy.comparison.selectedPaths.length) ++
    frame 8 (beBytes 8 policy.comparison.ignoredPaths.length) ++
    frame 8 (beBytes 8 policy.comparison.unorderedArrays.length) ++
    frame 8 (beBytes 2 policy.comparison.maxDiffPaths))

def validateHandle (value : String) : Except AuthorizationReviewPolicyError Unit := do
  if value = "" ∨ value.utf8ByteSize > hardMaxHandleBytes ∨
      ¬ value.toList.all (fun c => c.isAlphanum || c ∈ ['.', '_', ':', '-']) then
    throw .invalidResourceHandle

variable (sha256) in
/-- The profile that is built, with its promise. -/
def buildExactProfile (wire : WireComparison) :
    Except AuthorizationReviewPolicyError
      { profile : ApiComparisonProfile sha256 // ExactProfile profile } :=
  match h : buildComparisonProfile sha256 wire with
  | .ok profile => .ok ⟨profile, exactProfile_build h⟩
  | .error failure => .error failure

variable (sha256) in
/-- `AuthorizationReviewPolicy::parse_toml`, from the decoded policy. -/
def accept (resolveResource : String → Except AuthorizationReviewPolicyError String)
    (wire : WirePolicy) :
    Except AuthorizationReviewPolicyError (AuthorizationReviewPolicy sha256) := do
  if wire.schema ≠ authorizationReviewPolicySchema then throw .unsupportedSchema
  if wire.expectation ≠ "primary-only" then throw .unsupportedExpectation
  if wire.method ≠ "GET" then throw .unsupportedMethod
  validateHandle wire.resourceHandle
  let resource ← resolveResource wire.resource
  let built ← buildExactProfile sha256 wire.comparison
  return {
    expectation := .primaryOnly
    method := .get
    comparison := built.1
    resource
    handleDigest := domainDigest sha256 handleDomain (utf8Bytes wire.resourceHandle)
    exact := built.2 }

end AuthorizationReviewPolicy

end Termivar.AuthorizationReview
