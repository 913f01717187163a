/-
# The four-view authorization differential

`termivar-scanner/src/authorization_review/comparison.rs`: a resource is asked
for by two principals, twice by each. Every response becomes a view, either
captured from complete JSON or terminal; the comparison of four views that
belong together ends in one outcome.

The proof that the principals differ is not looked at, and is left out.
-/
import Termivar.AuthorizationReview.Policy

namespace Termivar.AuthorizationReview

open ApiEvidence List

/-! ### Views -/

inductive AuthorizationViewRole where
  | primaryCandidate
  | peerCandidate
  | primaryReplay
  | peerReplay
  deriving DecidableEq

def AuthorizationViewRole.contextId : AuthorizationViewRole → String
  | .primaryCandidate => "authorization-review:primary:candidate"
  | .peerCandidate => "authorization-review:peer:candidate"
  | .primaryReplay => "authorization-review:primary:replay"
  | .peerReplay => "authorization-review:peer:replay"

inductive AuthorizationReviewBodyState where
  | completeJson
  | unsupportedMedia
  | html
  | redirect
  | rateLimited
  | serverError
  | malformedJson
  | truncated
  | incomplete
  | budgetExhausted
  | cancelled
  | defensiveInterference
  deriving DecidableEq

inductive AuthorizationReviewMediaClass where
  | jsonCompatible
  | html
  | other
  | missing
  deriving DecidableEq

/-- One response, reduced to fingerprints. -/
structure AuthorizationReviewView where
  role : AuthorizationViewRole
  (policyId resourceScopeId : Bytes)
  status : Option Nat
  mediaClass : AuthorizationReviewMediaClass
  state : AuthorizationReviewBodyState
  (selectedPathsResolved materialSelectedSubtree genericJsonErrorEnvelope : Bool)
  receiptId : Bytes
  profiled : Option ProfiledApiVisibilityView

inductive AuthorizationReviewViewError where
  | comparison (failure : ProfiledApiVisibilityError)
  | invalidStatus
  | invalidTerminalState

def successful (status : Nat) : Bool := 200 ≤ status && status ≤ 299

variable {F : Type} (showFloat : F → String) {sha256 : Bytes → Bytes}

def errorEnvelopeKeys : List String :=
  ["error", "errors", "message", "messages", "code", "status", "detail", "details", "title", "type",
    "trace_id", "request_id"]

def hasErrorEnvelopeShape : Value F → Bool
  | .object members => (members.any fun member => member.1 = "error" || member.1 = "errors") &&
      members.all fun member => member.1 ∈ errorEnvelopeKeys
  | _ => false

variable (policy : AuthorizationReviewPolicy sha256)

def isGenericJsonErrorEnvelope (snapshot : Value F) :
    Bool :=
  hasErrorEnvelopeShape snapshot ||
    (policy.comparison.selectedPaths.filterMap fun path => snapshot.pointer path.asStr).any
      hasErrorEnvelopeShape

/-- The selected paths all lead somewhere. -/
def selectedPathsResolved (snapshot : Value F) : Bool :=
  policy.comparison.selectedPaths.all fun path => (snapshot.pointer path.asStr).isSome

def resourceScopeWire (resourceScopeId : Bytes) : String :=
  "authorization-resource-sha256:" ++ hex resourceScopeId

def policyWire (policyId : Bytes) : String := "authorization-policy-sha256:" ++ hex policyId

/-- `AuthorizationReviewView::capture_json`. -/
def captureJson (role : AuthorizationViewRole)
    (status : Nat) (snapshot : Value F) (receiptId : Bytes) :
    Except AuthorizationReviewViewError AuthorizationReviewView := do
  if ¬ (100 ≤ status ∧ status ≤ 599) then throw .invalidStatus
  let (profiled, materialSelectedSubtree) ←
    (ApiVisibilityComparator.captureProfiledViewWithMaterial showFloat .standard policy.comparison
      role.contextId (resourceScopeWire policy.resourceScopeId) .jsonHttp status snapshot).mapError
        .comparison
  return {
    role, receiptId, materialSelectedSubtree
    policyId := policy.policyId
    resourceScopeId := policy.resourceScopeId
    status := some status
    mediaClass := .jsonCompatible
    state := .completeJson
    selectedPathsResolved := selectedPathsResolved policy snapshot
    genericJsonErrorEnvelope := successful status && isGenericJsonErrorEnvelope policy snapshot
    profiled := some profiled }

def responseRequired : AuthorizationReviewBodyState → Bool
  | .unsupportedMedia | .html | .redirect | .rateLimited | .serverError | .malformedJson | .truncated
  | .defensiveInterference => true
  | _ => false

def responseForbidden (state : AuthorizationReviewBodyState) : Bool :=
  state = .budgetExhausted || state = .cancelled

def mediaMismatch (state : AuthorizationReviewBodyState)
    (mediaClass : AuthorizationReviewMediaClass) : Bool :=
  (state = .html && mediaClass ≠ .html) ||
    (state = .unsupportedMedia && !(mediaClass = .other || mediaClass = .missing)) ||
    ((state = .malformedJson || state = .truncated) && mediaClass ≠ .jsonCompatible)

/-- `AuthorizationReviewView::terminal`. -/
def terminal (role : AuthorizationViewRole)
    (status : Option Nat) (mediaClass : AuthorizationReviewMediaClass)
    (state : AuthorizationReviewBodyState) (receiptId : Bytes) :
    Except AuthorizationReviewViewError AuthorizationReviewView := do
  if state = .completeJson ∨ (status.any fun value => ¬ (100 ≤ value ∧ value ≤ 599)) ∨
      (responseRequired state ∧ status = none) ∨
      (responseForbidden state ∧ (status ≠ none ∨ mediaClass ≠ .missing)) ∨
      mediaMismatch state mediaClass then
    throw .invalidTerminalState
  return {
    role, status, mediaClass, state, receiptId
    policyId := policy.policyId
    resourceScopeId := policy.resourceScopeId
    selectedPathsResolved := false
    materialSelectedSubtree := false
    genericJsonErrorEnvelope := false
    profiled := none }

/-! ### Outcomes -/

structure DimensionEquivalence where
  (status fields resources : Bool)

def DimensionEquivalence.all (dimensions : DimensionEquivalence) : Bool :=
  dimensions.status && dimensions.fields && dimensions.resources

inductive AuthorizationReviewOutcome where
  | notEligible
  | primaryBaselineInvalid
  | primaryUnstable
  | peerDenied
  | peerUnstable
  | crossStatusDifferent
  | crossFieldsEquivalentOnly
  | crossResourcesDifferent
  | stableCrossPrincipalEquivalence
  | defensiveInterference
  | rateLimited
  | redirectObserved
  | unsupportedMedia
  | malformedJson
  | genericJsonErrorEnvelope
  | selectedPathMissing
  | truncated
  | incomplete
  | budgetExhausted
  | cancelled
  | contractMismatch
  deriving DecidableEq

structure AuthorizationDifferentialResult where
  algorithmVersion : String
  (policyId resourceScopeId receiptId : Bytes)
  outcome : AuthorizationReviewOutcome
  (primaryStability peerStability crossCandidate crossReplay : Option DimensionEquivalence)

inductive AuthorizationDifferentialError where
  | roleSetMismatch
  | policyMismatch
  | resourceMismatch
  | receiptMismatch
  | viewContractMismatch
  | comparison (failure : ProfiledApiVisibilityError)
  deriving DecidableEq

/-- Four views, in any order. -/
abbrev Views : Type := Fin 4 → AuthorizationReviewView

def validateContract (views : Views) :
    Except AuthorizationDifferentialError Unit := do
  let roles := ((ofFn views).map fun view => view.role).dedup
  if roles.length ≠ 4 ∨ ¬ [AuthorizationViewRole.primaryCandidate, .peerCandidate, .primaryReplay,
      .peerReplay].all (fun role => role ∈ roles) then
    throw .roleSetMismatch
  if (ofFn views).any fun view => view.policyId ≠ policy.policyId then throw .policyMismatch
  if (ofFn views).any fun view => view.resourceScopeId ≠ policy.resourceScopeId then
    throw .resourceMismatch
  if ((ofFn views).map fun view => view.receiptId).dedup.length ≠ 4 then
    throw .receiptMismatch

/-- The states that end a comparison, the first one found first. -/
def terminalStates : List (AuthorizationReviewBodyState × AuthorizationReviewOutcome) :=
  [(.cancelled, .cancelled), (.budgetExhausted, .budgetExhausted), (.truncated, .truncated),
    (.incomplete, .incomplete), (.redirect, .redirectObserved), (.rateLimited, .rateLimited),
    (.defensiveInterference, .defensiveInterference), (.malformedJson, .malformedJson),
    (.unsupportedMedia, .unsupportedMedia), (.html, .unsupportedMedia),
    (.serverError, .incomplete)]

def terminalOutcome (views : Views) : Option AuthorizationReviewOutcome :=
  let states := (ofFn views).map fun view => view.state
  (terminalStates.find? fun terminal => terminal.1 ∈ states).map Prod.snd

def role (views : Views) (expected : AuthorizationViewRole) :
    Except AuthorizationDifferentialError AuthorizationReviewView :=
  okOr ((ofFn views).find? fun view => view.role = expected) .roleSetMismatch

def pathsPresent (view : AuthorizationReviewView) : Bool :=
  view.selectedPathsResolved && view.materialSelectedSubtree

def completeStatus (view : AuthorizationReviewView) : Except AuthorizationDifferentialError Nat := do
  if view.state ≠ .completeJson ∨ view.profiled.isNone then throw .viewContractMismatch
  okOr view.status .viewContractMismatch

def differentialComparisonId (pairName : String) (dimension : ApiVisibilityDimension)
    (policyId : Bytes) : String :=
  "authorization-differential:" ++ pairName ++ ":" ++ dimension.asStr ++ ":" ++ policyWire policyId

/-- One dimension of two views. -/
def equivalentIn (pairName : String)
    (dimension : ApiVisibilityDimension) (left right : ProfiledApiVisibilityView) :
    Except AuthorizationDifferentialError Bool := do
  let envelope ← (ApiVisibilityComparator.compareProfiled .standard policy.comparison
    (differentialComparisonId pairName dimension policy.policyId) .authorizationContext dimension left
    right 0).mapError .comparison
  return envelope.comparison.result = .equivalent

def compareDimensions (pairName : String)
    (left right : AuthorizationReviewView) :
    Except AuthorizationDifferentialError DimensionEquivalence := do
  let left ← okOr left.profiled .viewContractMismatch
  let right ← okOr right.profiled .viewContractMismatch
  let status ← equivalentIn policy pairName .status left right
  let fields ← equivalentIn policy pairName .fields left right
  let resources ← equivalentIn policy pairName .resources left right
  return { status, fields, resources }

/-- What the four complete views and their comparisons amount to. -/
structure Findings where
  genericJsonErrorEnvelope : Bool
  (primaryCandidateStatus peerCandidateStatus primaryReplayStatus peerReplayStatus : Nat)
  (primaryPathsPresent peerPathsPresent : Bool)
  (primaryStability peerStability crossCandidate crossReplay : DimensionEquivalence)

/-- The outcome for complete views. -/
def classify (found : Findings) : AuthorizationReviewOutcome :=
  if found.genericJsonErrorEnvelope then .genericJsonErrorEnvelope
  else if !successful found.primaryCandidateStatus || !successful found.primaryReplayStatus then
    .primaryBaselineInvalid
  else if !found.primaryPathsPresent then .selectedPathMissing
  else if found.primaryCandidateStatus ≠ found.primaryReplayStatus || !found.primaryStability.all then
    .primaryUnstable
  else if found.peerCandidateStatus = found.peerReplayStatus &&
      found.peerCandidateStatus ∈ [401, 403, 404] then .peerDenied
  else if !successful found.peerCandidateStatus || !successful found.peerReplayStatus ||
      found.peerCandidateStatus ≠ found.peerReplayStatus then .peerUnstable
  else if !found.peerPathsPresent then .selectedPathMissing
  else if !found.peerStability.all then .peerUnstable
  else if !found.crossCandidate.status || !found.crossReplay.status then .crossStatusDifferent
  else if !found.crossCandidate.resources || !found.crossReplay.resources then
    if found.crossCandidate.fields && found.crossReplay.fields then .crossFieldsEquivalentOnly
    else .crossResourcesDifferent
  else if !found.crossCandidate.fields || !found.crossReplay.fields then .crossResourcesDifferent
  else .stableCrossPrincipalEquivalence

def differentialReceiptDomain : Bytes :=
  utf8Bytes "security.authorization-differential.receipt.v1\x00"

variable (primaryCandidate peerCandidate primaryReplay peerReplay : AuthorizationReviewView)

def differentialReceiptId :
    Bytes :=
  let framedView (name : String) (view : AuthorizationReviewView) : Bytes :=
    frame 8 (utf8Bytes name) ++ frame 8 view.receiptId
  sha256 (differentialReceiptDomain ++ frame 8 (utf8Bytes authorizationReviewAlgorithmVersion) ++
    frame 8 policy.policyId ++ frame 8 policy.resourceScopeId ++
    framedView "primary-candidate" primaryCandidate ++ framedView "peer-candidate" peerCandidate ++
    framedView "primary-replay" primaryReplay ++ framedView "peer-replay" peerReplay)

/-- What is compared of the four views in their roles, once none is terminal. -/
def differentiate (genericJsonErrorEnvelope : Bool) : Except AuthorizationDifferentialError Findings := do
  let primaryCandidateStatus ← completeStatus primaryCandidate
  let peerCandidateStatus ← completeStatus peerCandidate
  let primaryReplayStatus ← completeStatus primaryReplay
  let peerReplayStatus ← completeStatus peerReplay
  let primaryStability ← compareDimensions policy "primary-stability" primaryCandidate primaryReplay
  let peerStability ← compareDimensions policy "peer-stability" peerCandidate peerReplay
  let crossCandidate ← compareDimensions policy "cross-candidate" primaryCandidate peerCandidate
  let crossReplay ← compareDimensions policy "cross-replay" primaryReplay peerReplay
  return {
    genericJsonErrorEnvelope, primaryCandidateStatus, peerCandidateStatus, primaryReplayStatus
    peerReplayStatus, primaryStability, peerStability, crossCandidate, crossReplay
    primaryPathsPresent := pathsPresent primaryCandidate && pathsPresent primaryReplay
    peerPathsPresent := pathsPresent peerCandidate && pathsPresent peerReplay }

structure ResultIdentity where
  (policyId resourceScopeId receiptId : Bytes)

def AuthorizationDifferentialResult.terminal (identity : ResultIdentity)
    (outcome : AuthorizationReviewOutcome) : AuthorizationDifferentialResult where
  algorithmVersion := authorizationReviewAlgorithmVersion
  policyId := identity.policyId
  resourceScopeId := identity.resourceScopeId
  receiptId := identity.receiptId
  outcome := outcome
  primaryStability := none
  peerStability := none
  crossCandidate := none
  crossReplay := none

def AuthorizationDifferentialResult.complete (identity : ResultIdentity) (found : Findings) :
    AuthorizationDifferentialResult where
  algorithmVersion := authorizationReviewAlgorithmVersion
  policyId := identity.policyId
  resourceScopeId := identity.resourceScopeId
  receiptId := identity.receiptId
  outcome := classify found
  primaryStability := some found.primaryStability
  peerStability := some found.peerStability
  crossCandidate := some found.crossCandidate
  crossReplay := some found.crossReplay

/-- The comparison of the views in their roles. -/
def compareRoles (terminal : Option AuthorizationReviewOutcome) (genericJsonErrorEnvelope : Bool) :
    Except AuthorizationDifferentialError AuthorizationDifferentialResult :=
  let identity : ResultIdentity := {
    policyId := policy.policyId
    resourceScopeId := policy.resourceScopeId
    receiptId := differentialReceiptId policy primaryCandidate peerCandidate primaryReplay peerReplay }
  match terminal with
  | some outcome => .ok (.terminal identity outcome)
  | none => do
    let found ← differentiate policy primaryCandidate peerCandidate primaryReplay peerReplay
      genericJsonErrorEnvelope
    return .complete identity found

/-- `AuthorizationDifferentialResult::compare`. -/
def compare (views : Views) :
    Except AuthorizationDifferentialError AuthorizationDifferentialResult := do
  validateContract policy views
  let primaryCandidate ← role views .primaryCandidate
  let peerCandidate ← role views .peerCandidate
  let primaryReplay ← role views .primaryReplay
  let peerReplay ← role views .peerReplay
  compareRoles policy primaryCandidate peerCandidate primaryReplay peerReplay
    (terminalOutcome views) ((ofFn views).any fun view => view.genericJsonErrorEnvelope)

end Termivar.AuthorizationReview
