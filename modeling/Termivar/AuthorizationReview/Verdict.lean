/-
# What the authorization differential establishes

Four views of one contract are always compared, and in any order with the same
result. Without collisions, the outcome is a stable equivalence across the
principals exactly if all four responses are complete JSON under one successful
status, none of them a generic error, each with something at a selected path,
and the four projections are alike (`stable_iff`).
-/
import Termivar.ApiEvidence.Agreement
import Termivar.AuthorizationReview.Comparison

namespace Termivar.AuthorizationReview

open ApiEvidence List Except
open TreeHash (Doc)

variable {sha256 : Bytes → Bytes} {policy : AuthorizationReviewPolicy sha256}
  {views : Views}

/-! ### The contract -/

instance : Fintype AuthorizationViewRole where
  elems := {.primaryCandidate, .peerCandidate, .primaryReplay, .peerReplay}
  complete r := by cases r <;> decide

/-- Four views of one policy, one in each role, with a receipt each. -/
structure Contract (policy : AuthorizationReviewPolicy sha256) (views : Views) : Prop where
  roles : Function.Injective fun position => (views position).role
  policyId : ∀ position, (views position).policyId = policy.policyId
  resourceScopeId : ∀ position, (views position).resourceScopeId = policy.resourceScopeId
  receipts : Function.Injective fun position => (views position).receiptId

theorem length_dedup_iff {α : Type} [DecidableEq α] (f : Fin 4 → α) :
    (ofFn f).dedup.length ≠ 4 ↔ ¬ Function.Injective f := by
  rw [← nodup_ofFn, ne_eq, not_iff_not]
  constructor
  · intro h
    rw [← dedup_eq_self]
    exact (dedup_sublist _).eq_of_length (by rw [h, length_ofFn])
  · intro h
    rw [dedup_eq_self.mpr h, length_ofFn]

theorem any_ofFn_iff {p : AuthorizationReviewView → Bool} :
    (ofFn views).any p = true ↔ ∃ position, p (views position) = true := by
  rw [any_eq_true]
  constructor
  · rintro ⟨view, hview, h⟩
    obtain ⟨position, rfl⟩ := (mem_ofFn' _ _).mp hview
    exact ⟨position, h⟩
  · rintro ⟨position, h⟩
    exact ⟨views position, (mem_ofFn' _ _).mpr ⟨position, rfl⟩, h⟩

/-- The roles are four, so four different ones are all of them. -/
theorem surjective_of_roles (h : Function.Injective fun position => (views position).role) :
    Function.Surjective fun position => (views position).role :=
  ((Fintype.bijective_iff_injective_and_card _).mpr ⟨h, rfl⟩).2

theorem roles_refused_iff :
    (((ofFn views).map fun view => view.role).dedup.length ≠ 4 ∨
        ¬ [AuthorizationViewRole.primaryCandidate, .peerCandidate, .primaryReplay, .peerReplay].all
          (fun role => role ∈ ((ofFn views).map fun view => view.role).dedup) = true) ↔
      ¬ Function.Injective fun position => (views position).role := by
  rw [map_ofFn, length_dedup_iff]
  refine ⟨fun h hinj => ?_, Or.inl⟩
  refine h.elim (fun hnot => hnot hinj) fun hall => hall (all_eq_true.mpr fun role _ => ?_)
  obtain ⟨position, hpos⟩ := surjective_of_roles hinj role
  exact decide_eq_true (mem_dedup.mpr ((mem_ofFn' _ _).mpr ⟨position, hpos⟩))

theorem receipts_refused_iff :
    ((ofFn views).map fun view => view.receiptId).dedup.length ≠ 4 ↔
      ¬ Function.Injective fun position => (views position).receiptId := by
  rw [map_ofFn]
  exact length_dedup_iff _

/-- **The contract is what is validated.** -/
theorem validateContract_eq_ok_iff : validateContract policy views = .ok () ↔ Contract policy views := by
  unfold validateContract
  simp only [roles_refused_iff, receipts_refused_iff, any_ofFn_iff, decide_eq_true_eq]
  by_cases hroles : Function.Injective fun position => (views position).role
  · by_cases hpol : ∃ position, (views position).policyId ≠ policy.policyId
    · simp only [hroles, not_true_eq_false, if_false, hpol, if_true]
      refine ⟨fun h => (by cases h), fun h => ?_⟩
      obtain ⟨position, hpos⟩ := hpol
      exact absurd (h.policyId position) hpos
    by_cases hscope : ∃ position, (views position).resourceScopeId ≠ policy.resourceScopeId
    · simp only [hroles, not_true_eq_false, if_false, hpol, hscope, if_true]
      refine ⟨fun h => (by cases h), fun h => ?_⟩
      obtain ⟨position, hpos⟩ := hscope
      exact absurd (h.resourceScopeId position) hpos
    by_cases hrcpts : Function.Injective fun position => (views position).receiptId
    · simp only [hroles, hrcpts, not_true_eq_false, if_false, hpol, hscope]
      exact ⟨fun _ => ⟨hroles, not_exists_not.mp hpol, not_exists_not.mp hscope, hrcpts⟩,
        fun _ => rfl⟩
    · simp only [hroles, hrcpts, not_true_eq_false, not_false_eq_true, if_false, if_true, hpol,
        hscope]
      exact ⟨fun h => (by cases h), fun h => absurd h.receipts hrcpts⟩
  · simp only [hroles, not_false_eq_true, if_true]
    exact ⟨fun h => (by cases h), fun h => absurd h.roles hroles⟩

/-- Under the contract, the view in a role is found. -/
theorem role_ok (h : Contract policy views) (position : Fin 4) :
    role views (views position).role = .ok (views position) := by
  unfold role
  cases hfind : (ofFn views).find? fun view => view.role = (views position).role with
  | none =>
    have hnone := find?_eq_none.mp hfind (views position) ((mem_ofFn' _ _).mpr ⟨position, rfl⟩)
    simp at hnone
  | some view =>
    obtain ⟨other, rfl⟩ := (mem_ofFn' _ _).mp (mem_of_find?_eq_some hfind)
    have hrole : (views other).role = (views position).role := by
      simpa using find?_some hfind
    rw [h.roles hrole]
    rfl

/-! ### The order of views -/

section Order

variable (arrangement : Equiv.Perm (Fin 4))

theorem contract_perm : Contract policy (views ∘ arrangement) ↔ Contract policy views := by
  have hall : ∀ (f : AuthorizationReviewView → Bytes) (value : Bytes),
      (∀ position, f ((views ∘ arrangement) position) = value) ↔
        ∀ position, f (views position) = value := fun f value =>
    ⟨fun h position => by simpa using h (arrangement.symm position), fun h position => h _⟩
  have hinj : ∀ {α : Type} (f : AuthorizationReviewView → α),
      (Function.Injective fun position => f ((views ∘ arrangement) position)) ↔
        Function.Injective fun position => f (views position) := fun f =>
    Function.Injective.of_comp_iff' (fun position => f (views position)) arrangement.bijective
  constructor
  · intro h
    exact ⟨(hinj _).mp h.roles, (hall _ _).mp h.policyId, (hall _ _).mp h.resourceScopeId,
      (hinj _).mp h.receipts⟩
  · intro h
    exact ⟨(hinj _).mpr h.roles, (hall _ _).mpr h.policyId, (hall _ _).mpr h.resourceScopeId,
      (hinj _).mpr h.receipts⟩

theorem any_perm (p : AuthorizationReviewView → Bool) :
    (ofFn (views ∘ arrangement)).any p = (ofFn views).any p := by
  rw [Bool.eq_iff_iff, any_ofFn_iff, any_ofFn_iff]
  exact (arrangement.surjective.exists (p := fun position => p (views position) = true)).symm

theorem validateContract_perm :
    validateContract policy (views ∘ arrangement) = validateContract policy views := by
  have hinj : ∀ {α : Type} (f : AuthorizationReviewView → α),
      (Function.Injective fun position => f ((views ∘ arrangement) position)) ↔
        Function.Injective fun position => f (views position) := fun f =>
    Function.Injective.of_comp_iff' (fun position => f (views position)) arrangement.bijective
  unfold validateContract
  simp only [roles_refused_iff, receipts_refused_iff, any_perm, hinj]

theorem role_perm (h : Contract policy views) (expected : AuthorizationViewRole) :
    role (views ∘ arrangement) expected = role views expected := by
  obtain ⟨position, rfl⟩ := surjective_of_roles h.roles expected
  have hmv := role_ok ((contract_perm arrangement).mpr h) (arrangement.symm position)
  rw [Function.comp_apply, Equiv.apply_symm_apply] at hmv
  exact hmv.trans (role_ok h position).symm

theorem terminalOutcome_perm : terminalOutcome (views ∘ arrangement) = terminalOutcome views := by
  have hmem : ∀ state, state ∈ (ofFn (views ∘ arrangement)).map (fun view => view.state) ↔
      state ∈ (ofFn views).map fun view => view.state := fun state =>
    ((arrangement.ofFn_comp_perm views).map _).mem_iff
  unfold terminalOutcome
  simp only [hmem]

/-- **The order of the views does not matter.** -/
theorem compare_perm : compare policy (views ∘ arrangement) = compare policy views := by
  unfold compare
  rw [validateContract_perm]
  cases hvalid : validateContract policy views with
  | error failure => exact (rfl : error failure = error failure)
  | ok checked =>
    have hrole := role_perm arrangement (validateContract_eq_ok_iff.mp hvalid)
    rw [hrole .primaryCandidate, hrole .peerCandidate, hrole .primaryReplay, hrole .peerReplay,
      terminalOutcome_perm, any_perm]

end Order

/-! ### Responses -/

/-- What is seen of a response. -/
inductive Response (F : Type) where
  | json (status : Nat) (snapshot : Value F)
  | terminal (status : Option Nat) (mediaClass : AuthorizationReviewMediaClass)
      (state : AuthorizationReviewBodyState)

variable {F : Type} {showFloat : F → String}

/-- The view of a response. -/
def Response.view (showFloat : F → String) (policy : AuthorizationReviewPolicy sha256)
    (role : AuthorizationViewRole) (receiptId : Bytes) :
    Response F → Except AuthorizationReviewViewError AuthorizationReviewView
  | .json status snapshot => captureJson showFloat policy role status snapshot receiptId
  | .terminal status mediaClass state => AuthorizationReview.terminal policy role status mediaClass
      state receiptId

/-- A view of complete JSON. -/
structure CompleteView (showFloat : F → String) (policy : AuthorizationReviewPolicy sha256)
    (status : Nat) (snapshot : Value F) (view : AuthorizationReviewView)
    (profiled : ProfiledApiVisibilityView) : Prop where
  state : view.state = .completeJson
  resolved : view.selectedPathsResolved = selectedPathsResolved policy snapshot
  generic : view.genericJsonErrorEnvelope =
    (successful status && isGenericJsonErrorEnvelope policy snapshot)
  viewOf : ViewOf showFloat .standard policy.comparison view.role.contextId
    (resourceScopeWire policy.resourceScopeId) .jsonHttp status snapshot profiled
    view.materialSelectedSubtree
  status : view.status = some status
  profiled : view.profiled = some profiled

section Responses

variable {position : AuthorizationViewRole} {receiptId : Bytes} {view : AuthorizationReviewView}

theorem captureJson_ok {status : Nat} {snapshot : Value F}
    (h : captureJson showFloat policy position status snapshot receiptId = .ok view) :
    ∃ profiled, CompleteView showFloat policy status snapshot view profiled := by
  unfold captureJson at h
  by_cases hstat : 100 ≤ status ∧ status ≤ 599
  · rw [if_neg (not_not_intro hstat)] at h
    obtain ⟨⟨profiled, material⟩, hcapt, h⟩ := bind_ok h
    cases h
    exact ⟨profiled, rfl, rfl, rfl,
      captureProfiledViewWithMaterial_eq_ok_iff.mp (mapError_eq_ok.mp hcapt), rfl, rfl⟩
  · rw [if_pos hstat] at h
    cases h

theorem terminal_ok {status : Option Nat} {mediaClass : AuthorizationReviewMediaClass}
    {state : AuthorizationReviewBodyState}
    (h : AuthorizationReview.terminal policy position status mediaClass state receiptId = .ok view) :
    view.state ≠ .completeJson := by
  unfold AuthorizationReview.terminal at h
  split_ifs at h with hrefused
  · cases h
  · cases h
    exact fun hst => hrefused (Or.inl hst)

end Responses

/-- Every state that is not complete ends the comparison, in an outcome of its own. -/
theorem terminalOutcome_eq_none_iff :
    terminalOutcome views = none ↔ ∀ position, (views position).state = .completeJson := by
  have hstates : ∀ state, state ≠ AuthorizationReviewBodyState.completeJson →
      ∃ entry ∈ terminalStates, entry.1 = state := by
    intro state hst
    cases state <;> first | exact absurd rfl hst | (simp [terminalStates])
  have hcomp : ∀ entry ∈ terminalStates,
      entry.1 ≠ AuthorizationReviewBodyState.completeJson := by decide
  unfold terminalOutcome
  rw [Option.map_eq_none_iff, find?_eq_none]
  constructor
  · intro h position
    by_contra hst
    obtain ⟨entry, hent, hsame⟩ := hstates _ hst
    refine h entry hent (decide_eq_true ?_)
    rw [hsame]
    exact mem_map_of_mem ((mem_ofFn' _ _).mpr ⟨position, rfl⟩)
  · intro h entry hent hmem
    obtain ⟨view, hview, hst⟩ := mem_map.mp (of_decide_eq_true hmem)
    obtain ⟨position, rfl⟩ := (mem_ofFn' _ _).mp hview
    exact hcomp entry hent (hst.symm.trans (h position))

theorem terminalOutcome_ne_stable {outcome : AuthorizationReviewOutcome}
    (h : terminalOutcome views = some outcome) : outcome ≠ .stableCrossPrincipalEquivalence := by
  have houtc : ∀ entry ∈ terminalStates,
      entry.2 ≠ AuthorizationReviewOutcome.stableCrossPrincipalEquivalence := by decide
  unfold terminalOutcome at h
  obtain ⟨entry, hent, rfl⟩ := Option.map_eq_some_iff.mp h
  exact houtc entry (mem_of_find?_eq_some hent)

/-! ### Comparisons of complete views -/

section Complete

variable {status status' : Nat} {snapshot snapshot' : Value F} {left right : AuthorizationReviewView}
  {profiled profiled' : ProfiledApiVisibilityView}

theorem contextId_injective : Function.Injective AuthorizationViewRole.contextId := by
  intro role other h
  revert h
  cases role <;> cases other <;> decide

/-- The lengths of what stands in a comparison identifier. -/
theorem byteSize_texts : "authorization-differential:".utf8ByteSize = 27 ∧ ":".utf8ByteSize = 1 ∧
    "authorization-policy-sha256:".utf8ByteSize = 28 := by
  decide

theorem byteSize_differentialComparisonId (pairName : String) (dimension : ApiVisibilityDimension)
    (policyId : Bytes) : (differentialComparisonId pairName dimension policyId).utf8ByteSize =
      27 + pairName.utf8ByteSize + 1 + dimension.asStr.utf8ByteSize + 1 + (28 + 2 * policyId.length) := by
  obtain ⟨hfr, hcol, hpol⟩ := byteSize_texts
  unfold differentialComparisonId policyWire
  simp only [String.utf8ByteSize_append, Hex.utf8ByteSize_hex, hfr, hcol, hpol]

theorem isBlank_differentialComparisonId (pairName : String) (dimension : ApiVisibilityDimension)
    (policyId : Bytes) : isBlank (differentialComparisonId pairName dimension policyId) = false := by
  unfold differentialComparisonId
  simp only [String.append_assoc]
  generalize pairName ++ (":" ++ (dimension.asStr ++ (":" ++ policyWire policyId))) = rest
  exact isBlank_append_left (by decide) rest

/-- A comparison identifier is valid. -/
theorem differentialComparisonId_valid (hwidth : ∀ bytes, (sha256 bytes).length = 32)
    {pairName : String} (hname : pairName.utf8ByteSize ≤ 64) (dimension : ApiVisibilityDimension) :
    ∃ id : OpaqueId, id.value = differentialComparisonId pairName dimension policy.policyId := by
  have hpol : policy.policyId.length = 32 := hwidth _
  have hdimen : dimension.asStr.utf8ByteSize ≤ 9 := by cases dimension <;> decide
  have hlength := byteSize_differentialComparisonId pairName dimension policy.policyId
  have hsh : (differentialComparisonId pairName dimension policy.policyId).utf8ByteSize ≤
      maxOpaqueContextBytes := by
    rw [hlength, hpol, maxOpaqueContextBytes]
    omega
  exact ⟨⟨_, isBlank_differentialComparisonId pairName dimension policy.policyId, hsh⟩, rfl⟩

/-- What two complete views are compared to. -/
def dimensionsOf (left right : ProfiledApiVisibilityView) : DimensionEquivalence where
  status := left.status = right.status
  fields := left.fieldSignature = right.fieldSignature
  resources := left.resourceSignature = right.resourceSignature

/-- **Complete views in different roles are compared.** -/
theorem compareDimensions_ok (hwidth : ∀ bytes, (sha256 bytes).length = 32) {pairName : String}
    (hname : pairName.utf8ByteSize ≤ 64) (hroles : left.role ≠ right.role)
    (hleft : CompleteView showFloat policy status snapshot left profiled)
    (hright : CompleteView showFloat policy status' snapshot' right profiled') :
    compareDimensions policy pairName left right = .ok (dimensionsOf profiled profiled') := by
  have hctxs : profiled.contextId ≠ profiled'.contextId := fun h => hroles (contextId_injective (by
    rw [← opaqueHandle_ok hleft.viewOf.contextId, ← opaqueHandle_ok hright.viewOf.contextId, h]))
  have hscope : profiled.resourceScopeId = profiled'.resourceScopeId :=
    Except.ok.inj (hleft.viewOf.resourceScopeId.symm.trans hright.viewOf.resourceScopeId)
  have hsurf : profiled.surface = profiled'.surface :=
    hleft.viewOf.surface.trans hright.viewOf.surface.symm
  have hin : ∀ dimension, equivalentIn policy pairName dimension profiled profiled' =
      .ok (ProfiledApiVisibilityView.equivalent dimension profiled profiled') := by
    intro dimension
    obtain ⟨id, hid⟩ := @differentialComparisonId_valid sha256 policy hwidth pairName hname dimension
    obtain ⟨envelope, henv, hof⟩ := compareProfiled_ok hwidth hleft.viewOf.captured
      hright.viewOf.captured hctxs hscope hsurf id .authorizationContext dimension 0
    rw [equivalentIn, ← hid, henv]
    simp only [Except.mapError, bind, Except.bind, pure, Except.pure, hof.result]
    cases ProfiledApiVisibilityView.equivalent dimension profiled profiled' <;> rfl
  rw [compareDimensions, hleft.profiled, hright.profiled]
  simp only [okOr, bind, Except.bind, hin, pure, Except.pure]
  rfl

theorem completeStatus_ok (h : CompleteView showFloat policy status snapshot left profiled) :
    completeStatus left = .ok status := by
  simp [completeStatus, h.state, h.profiled, h.status, okOr]

end Complete

/-! ### Outcomes -/

/-- What a stable equivalence is found from. -/
structure StableFindings (found : Findings) : Prop where
  notGeneric : found.genericJsonErrorEnvelope = false
  primarySuccessful : successful found.primaryCandidateStatus = true ∧
    successful found.primaryReplayStatus = true
  peerSuccessful : successful found.peerCandidateStatus = true ∧
    successful found.peerReplayStatus = true
  primaryStatus : found.primaryCandidateStatus = found.primaryReplayStatus
  peerStatus : found.peerCandidateStatus = found.peerReplayStatus
  present : found.primaryPathsPresent = true ∧ found.peerPathsPresent = true
  primaryStability : found.primaryStability.all = true
  peerStability : found.peerStability.all = true
  crossCandidate : found.crossCandidate.all = true
  crossReplay : found.crossReplay.all = true

theorem not_denied_of_successful {status : Nat} (h : successful status = true) :
    status ∉ [401, 403, 404] := by
  intro hmem
  simp only [mem_cons, not_mem_nil, or_false] at hmem
  rcases hmem with rfl | rfl | rfl <;> cases h

theorem ite_eq_iff_of_ne {α : Type} {c : Prop} [Decidable c] {x y value : α} (h : x ≠ value) :
    (if c then x else y) = value ↔ ¬ c ∧ y = value := by
  split_ifs with hc <;> simp [hc, h]

/-- **Only a stable equivalence is classified as one.** -/
theorem classify_eq_stable_iff {found : Findings} :
    classify found = .stableCrossPrincipalEquivalence ↔ StableFindings found := by
  have hcross : (if (found.crossCandidate.fields && found.crossReplay.fields) = true then
      AuthorizationReviewOutcome.crossFieldsEquivalentOnly else .crossResourcesDifferent) ≠
        .stableCrossPrincipalEquivalence := by
    split_ifs <;> decide
  unfold classify
  rw [ite_eq_iff_of_ne (by decide), ite_eq_iff_of_ne (by decide), ite_eq_iff_of_ne (by decide),
    ite_eq_iff_of_ne (by decide), ite_eq_iff_of_ne (by decide), ite_eq_iff_of_ne (by decide),
    ite_eq_iff_of_ne (by decide), ite_eq_iff_of_ne (by decide), ite_eq_iff_of_ne (by decide),
    ite_eq_iff_of_ne hcross, ite_eq_iff_of_ne (by decide)]
  simp only [Bool.or_eq_true, Bool.and_eq_true, Bool.not_eq_true', decide_eq_true_eq, not_or,
    Bool.not_eq_false, Bool.not_eq_true, not_and, and_true, ne_eq, not_not]
  constructor
  · rintro ⟨hgen, hprim, hpres, ⟨hstat, hstable⟩, -, ⟨hpeer, hpeerS⟩, hpeerP,
      hpeerStable, ⟨hcs, hrs⟩, ⟨hcr, hrr⟩, hcf, hrf⟩
    exact ⟨hgen, hprim, hpeer, hstat, hpeerS, ⟨hpres, hpeerP⟩, hstable,
      hpeerStable, by simp [DimensionEquivalence.all, hcs, hcr, hcf],
      by simp [DimensionEquivalence.all, hrs, hrr, hrf]⟩
  · rintro ⟨hgen, hprim, hpeer, hstat, hpeerS, ⟨hpres, hpeerP⟩, hstable, hpeerStable, hcand, hrepl⟩
    simp only [DimensionEquivalence.all, Bool.and_eq_true] at hcand hrepl
    obtain ⟨⟨hcs, hcf⟩, hcr⟩ := hcand
    obtain ⟨⟨hrs, hrf⟩, hrr⟩ := hrepl
    exact ⟨hgen, hprim, hpres, ⟨hstat, hstable⟩,
      fun _ => not_denied_of_successful hpeer.1, ⟨hpeer, hpeerS⟩, hpeerP, hpeerStable,
      ⟨hcs, hrs⟩, ⟨hcr, hrr⟩, hcf, hrf⟩

/-- The four complete views, with what was captured of them. -/
structure CompleteViews (showFloat : F → String) (policy : AuthorizationReviewPolicy sha256)
    (views : Views) (status : Fin 4 → Nat) (snapshots : Fin 4 → Value F)
    (profiled : Fin 4 → ProfiledApiVisibilityView) : Prop where
  contract : Contract policy views
  complete : ∀ position, CompleteView showFloat policy (status position) (snapshots position)
    (views position) (profiled position)

section Outcomes

variable {status : Fin 4 → Nat} {snapshots : Fin 4 → Value F}
  {profiled : Fin 4 → ProfiledApiVisibilityView}

/-- What is common to views, whichever of them stand in the four roles. -/
theorem forall_of_roles {a b c d : Fin 4} (hroles : Function.Injective fun p => (views p).role)
    (ha : (views a).role = .primaryCandidate) (hb : (views b).role = .peerCandidate)
    (hc : (views c).role = .primaryReplay) (hd : (views d).role = .peerReplay) (p : Fin 4 → Prop) :
    (∀ position, p position) ↔ p a ∧ p b ∧ p c ∧ p d := by
  refine ⟨fun h => ⟨h a, h b, h c, h d⟩, fun ⟨hpa, hpb, hpc, hpd⟩ position => ?_⟩
  have hsame : ∀ {other : Fin 4}, (views position).role = (views other).role → p other →
      p position := fun hrole h => (hroles hrole) ▸ h
  cases hrole : (views position).role
  · exact hsame (hrole.trans ha.symm) hpa
  · exact hsame (hrole.trans hb.symm) hpb
  · exact hsame (hrole.trans hc.symm) hpc
  · exact hsame (hrole.trans hd.symm) hpd

theorem all_dimensionsOf_iff {left right : ProfiledApiVisibilityView} :
    (dimensionsOf left right).all = true ↔ left.status = right.status ∧
      left.fieldSignature = right.fieldSignature ∧
      left.resourceSignature = right.resourceSignature := by
  simp [DimensionEquivalence.all, dimensionsOf, and_assoc]

/-- **Complete views are compared; the outcome is a stable equivalence exactly
if they are alike in all that is looked at.** -/
theorem compare_complete (hwidth : ∀ bytes, (sha256 bytes).length = 32)
    (h : CompleteViews showFloat policy views status snapshots profiled) :
    ∃ result, compare policy views = .ok result ∧
      (result.outcome = .stableCrossPrincipalEquivalence ↔
        (∀ position, (views position).genericJsonErrorEnvelope = false) ∧
        (∀ position, successful (status position) = true) ∧
        (∀ position, pathsPresent (views position) = true) ∧
        ∀ position other, status position = status other ∧
          (profiled position).fieldSignature = (profiled other).fieldSignature ∧
          (profiled position).resourceSignature = (profiled other).resourceSignature) ∧
      ∀ dimensions ∈ [result.primaryStability, result.peerStability, result.crossCandidate,
        result.crossReplay], ∃ position other,
          dimensions = some (dimensionsOf (profiled position) (profiled other)) := by
  obtain ⟨hctr, hcomp⟩ := h
  obtain ⟨a, (ha : (views a).role = _)⟩ := surjective_of_roles hctr.roles .primaryCandidate
  obtain ⟨b, (hb : (views b).role = _)⟩ := surjective_of_roles hctr.roles .peerCandidate
  obtain ⟨c, (hc : (views c).role = _)⟩ := surjective_of_roles hctr.roles .primaryReplay
  obtain ⟨d, (hd : (views d).role = _)⟩ := surjective_of_roles hctr.roles .peerReplay
  have hall := @forall_of_roles views a b c d hctr.roles ha hb hc hd
  have hdim : ∀ {pairName : String} {p q : Fin 4}, pairName.utf8ByteSize ≤ 64 →
      (views p).role ≠ (views q).role → compareDimensions policy pairName (views p) (views q) =
        .ok (dimensionsOf (profiled p) (profiled q)) := fun hname hne =>
    compareDimensions_ok hwidth hname hne (hcomp _) (hcomp _)
  have hterm : terminalOutcome views = none :=
    terminalOutcome_eq_none_iff.mpr fun position => (hcomp position).state
  let generic : Bool := (ofFn views).any fun view => view.genericJsonErrorEnvelope
  let found : Findings := {
    genericJsonErrorEnvelope := generic
    primaryCandidateStatus := status a
    peerCandidateStatus := status b
    primaryReplayStatus := status c
    peerReplayStatus := status d
    primaryPathsPresent := pathsPresent (views a) && pathsPresent (views c)
    peerPathsPresent := pathsPresent (views b) && pathsPresent (views d)
    primaryStability := dimensionsOf (profiled a) (profiled c)
    peerStability := dimensionsOf (profiled b) (profiled d)
    crossCandidate := dimensionsOf (profiled a) (profiled b)
    crossReplay := dimensionsOf (profiled c) (profiled d) }
  have hfnd : differentiate policy (views a) (views b) (views c) (views d) generic = .ok found := by
    have hprim := @hdim "primary-stability" a c (by decide) (by rw [ha, hc]; decide)
    have hpeer := @hdim "peer-stability" b d (by decide) (by rw [hb, hd]; decide)
    have hcand := @hdim "cross-candidate" a b (by decide) (by rw [ha, hb]; decide)
    have hrepl := @hdim "cross-replay" c d (by decide) (by rw [hc, hd]; decide)
    unfold differentiate
    simp only [completeStatus_ok (hcomp _), hprim, hpeer, hcand, hrepl, bind, bind, pure, pure]
    rfl
  refine ⟨.complete ⟨policy.policyId, policy.resourceScopeId,
    differentialReceiptId policy (views a) (views b) (views c) (views d)⟩ found, ?_, ?_, ?_⟩
  · have hroles : role views .primaryCandidate = .ok (views a) ∧
        role views .peerCandidate = .ok (views b) ∧ role views .primaryReplay = .ok (views c) ∧
        role views .peerReplay = .ok (views d) :=
      ⟨ha ▸ role_ok hctr a, hb ▸ role_ok hctr b, hc ▸ role_ok hctr c, hd ▸ role_ok hctr d⟩
    obtain ⟨hra, hrb, hrc, hrd⟩ := hroles
    unfold compare
    simp only [validateContract_eq_ok_iff.mpr hctr, hra, hrb, hrc, hrd, hterm, bind, bind]
    show compareRoles policy (views a) (views b) (views c) (views d) none generic = _
    unfold compareRoles
    simp only [hfnd, bind, bind]
    rfl
  · show classify found = .stableCrossPrincipalEquivalence ↔ _
    have hgen : generic = false ↔
        ∀ position, (views position).genericJsonErrorEnvelope = false := by
      rw [Bool.eq_false_iff, ne_eq, any_ofFn_iff, not_exists]
      exact forall_congr' fun _ => iff_of_eq (Bool.not_eq_true _)
    rw [classify_eq_stable_iff, ← hgen, hall fun position => successful (status position) = true,
      hall fun position => pathsPresent (views position) = true]
    have hsame : ∀ position, (profiled position).status = status position := fun position =>
      (hcomp position).viewOf.status
    constructor
    · rintro ⟨hnone, hprim, hpeer, -, -, hpres, hstable, hstable', hcand, -⟩
      simp only [found, Bool.and_eq_true] at hpres
      have hac := all_dimensionsOf_iff.mp hstable
      have hbd := all_dimensionsOf_iff.mp hstable'
      have hab := all_dimensionsOf_iff.mp hcand
      rw [hsame, hsame] at hac hbd hab
      have hfirst : ∀ position, status a = status position ∧
          (profiled a).fieldSignature = (profiled position).fieldSignature ∧
          (profiled a).resourceSignature = (profiled position).resourceSignature :=
        (hall _).mpr ⟨⟨rfl, rfl, rfl⟩, hab, hac, hab.1.trans hbd.1, hab.2.1.trans hbd.2.1,
          hab.2.2.trans hbd.2.2⟩
      refine ⟨hnone, ⟨hprim.1, hpeer.1, hprim.2, hpeer.2⟩,
        ⟨hpres.1.1, hpres.2.1, hpres.1.2, hpres.2.2⟩, fun position other => ?_⟩
      obtain ⟨hstat, hfields, hrsrc⟩ := hfirst position
      obtain ⟨hstat', hfields', hrsrc'⟩ := hfirst other
      exact ⟨hstat.symm.trans hstat', hfields.symm.trans hfields', hrsrc.symm.trans hrsrc'⟩
    · rintro ⟨hnone, ⟨hsa, hsb, hsc, hsd⟩, ⟨hpa, hpb, hpc, hpd⟩, hequal⟩
      have hpair : ∀ position other,
          (dimensionsOf (profiled position) (profiled other)).all = true := fun position other =>
        all_dimensionsOf_iff.mpr (by rw [hsame, hsame]; exact hequal position other)
      exact ⟨hnone, ⟨hsa, hsc⟩, ⟨hsb, hsd⟩, (hequal a c).1, (hequal b d).1,
        ⟨by simp [found, hpa, hpc], by simp [found, hpb, hpd]⟩, hpair a c, hpair b d, hpair a b,
        hpair c d⟩
  · intro dimensions hmem
    simp only [AuthorizationDifferentialResult.complete, mem_cons, not_mem_nil, or_false] at hmem
    rcases hmem with rfl | rfl | rfl | rfl
    · exact ⟨a, c, rfl⟩
    · exact ⟨b, d, rfl⟩
    · exact ⟨a, b, rfl⟩
    · exact ⟨c, d, rfl⟩

end Outcomes

/-! ### Real equivalence -/

/-- What the responses amount to when they are really equivalent, for JSON
under one status. -/
structure EquivalentViews (showFloat : F → String) (policy : AuthorizationReviewPolicy sha256)
    (status : Nat) (snapshots : Fin 4 → Value F) : Prop where
  successful : successful status = true
  notGeneric : ∀ position, isGenericJsonErrorEnvelope policy (snapshots position) = false
  resolved : ∀ position, ∀ path ∈ policy.comparison.selectedPaths,
    ((snapshots position).pointer path.asStr).isSome = true
  present : ∀ position, ∃ path ∈ policy.comparison.selectedPaths, ∃ found,
    (snapshots position).pointer path.asStr = some found ∧
      found.present policy.comparison path.tokens = true
  alike : ∀ position other, Option.Rel Doc.Alike
    (((snapshots position).projected policy.comparison).map (Doc.map (Scalar.shown showFloat)))
    (((snapshots other).projected policy.comparison).map (Doc.map (Scalar.shown showFloat)))

/-- Four complete JSON responses under one status, really equivalent. -/
def RealEquivalence (showFloat : F → String) (policy : AuthorizationReviewPolicy sha256)
    (responses : Fin 4 → Response F) : Prop :=
  ∃ status snapshots, (∀ position, responses position = .json status (snapshots position)) ∧
    EquivalentViews showFloat policy status snapshots

/-- The views are those of the responses, each in some role and with some receipt. -/
def Seen (showFloat : F → String) (policy : AuthorizationReviewPolicy sha256)
    (responses : Fin 4 → Response F) (views : Views) : Prop :=
  ∀ position, ∃ role receiptId,
    (responses position).view showFloat policy role receiptId = .ok (views position)

def Response.snapshot : Response F → Option (Value F)
  | .json _ snapshot => some snapshot
  | .terminal _ _ _ => none

/-- All that is hashed for the signatures of the responses. -/
def hashedInputs (showFloat : F → String) (policy : AuthorizationReviewPolicy sha256)
    (responses : Fin 4 → Response F) : Set Bytes :=
  { input | ∃ position, ∃ snapshot ∈ (responses position).snapshot,
    input ∈ captureInputs showFloat sha256 policy.comparison snapshot }

/-- The text of a number tells whether it is an integer, as long as the text of
a float is never that of one. -/
theorem kind_eq_of_shown_eq
    (hfloat : ∀ (value : F) (n : Number F), n.isInteger = true → showFloat value ≠ n.show showFloat)
    (left right : Scalar F) (h : left.shown showFloat = right.shown showFloat) :
    left.kind = right.kind := by
  cases left <;> cases right <;> first | rfl | cases h | skip
  rename_i n m
  have htext : n.show showFloat = m.show showFloat := Shown.number.inj h
  have hfloat' : ∀ {n m : Number F}, n.isInteger = true → m.isInteger = false →
      n.show showFloat ≠ m.show showFloat := by
    intro n m hn hm hsame
    cases m with
    | float value => exact hfloat value n hn hsame.symm
    | posInt value => cases hm
    | negInt magnitude => cases hm
  simp only [Scalar.kind]
  cases hn : n.isInteger <;> cases hm : m.isInteger
  · rfl
  · exact absurd htext.symm (hfloat' hm hn)
  · exact absurd htext (hfloat' hn hm)
  · rfl

section Verdict

variable {responses : Fin 4 → Response F}

/-- Complete views come from complete JSON. -/
theorem Seen.complete (h : Seen showFloat policy responses views) (hctr : Contract policy views)
    (hstates : ∀ position, (views position).state = .completeJson) :
    ∃ status snapshots profiled, (∀ position,
        responses position = .json (status position) (snapshots position)) ∧
      CompleteViews showFloat policy views status snapshots profiled := by
  have heach : ∀ position, ∃ status snapshot profiled, responses position = .json status snapshot ∧
      CompleteView showFloat policy status snapshot (views position) profiled := by
    intro position
    obtain ⟨role, receiptId, hview⟩ := h position
    cases hresp : responses position with
    | json status snapshot =>
      rw [hresp] at hview
      obtain ⟨profiled, hcomp⟩ := captureJson_ok hview
      exact ⟨status, snapshot, profiled, rfl, hcomp⟩
    | terminal status mediaClass state =>
      rw [hresp] at hview
      exact absurd (hstates position) (terminal_ok hview)
  choose status snapshots profiled hjson hcomp using heach
  exact ⟨status, snapshots, profiled, hjson, hctr, hcomp⟩

/-- A state that is not complete ends the comparison. -/
theorem compare_terminal (hctr : Contract policy views) {outcome : AuthorizationReviewOutcome}
    (h : terminalOutcome views = some outcome) :
    ∃ result, compare policy views = .ok result ∧ result.outcome = outcome ∧
      [result.primaryStability, result.peerStability, result.crossCandidate, result.crossReplay] =
        [none, none, none, none] := by
  have hrole : ∀ expected, ∃ view, role views expected = .ok view := fun expected => by
    obtain ⟨position, rfl⟩ := surjective_of_roles hctr.roles expected
    exact ⟨views position, role_ok hctr position⟩
  obtain ⟨primaryCandidate, hpc⟩ := hrole .primaryCandidate
  obtain ⟨peerCandidate, hqc⟩ := hrole .peerCandidate
  obtain ⟨primaryReplay, hpr⟩ := hrole .primaryReplay
  obtain ⟨peerReplay, hqr⟩ := hrole .peerReplay
  refine ⟨.terminal ⟨policy.policyId, policy.resourceScopeId, differentialReceiptId policy
    primaryCandidate peerCandidate primaryReplay peerReplay⟩ outcome, ?_, rfl, rfl⟩
  unfold compare
  simp only [validateContract_eq_ok_iff.mpr hctr, hpc, hqc, hpr, hqr, h, bind, bind]
  rfl

/-- A complete view has something at its selected paths exactly if its snapshot does. -/
theorem pathsPresent_iff {status : Nat} {snapshot : Value F} {view : AuthorizationReviewView}
    {profiled : ProfiledApiVisibilityView} (hkd : snapshot.Keyed)
    (h : CompleteView showFloat policy status snapshot view profiled) :
    pathsPresent view = true ↔
      (∀ path ∈ policy.comparison.selectedPaths, (snapshot.pointer path.asStr).isSome = true) ∧
      ∃ path ∈ policy.comparison.selectedPaths, ∃ found, snapshot.pointer path.asStr = some found ∧
        found.present policy.comparison path.tokens = true := by
  have hmat : view.materialSelectedSubtree = snapshot.sorted.material policy.comparison [] :=
    (capture_ok h.viewOf.capture).2.2.2
  rw [pathsPresent, Bool.and_eq_true, h.resolved, hmat, policy.exact.material_iff hkd,
    selectedPathsResolved, all_eq_true]

/-- One snapshot four times is equivalent to itself, collisions or not. -/
theorem stable_of_same (hwidth : ∀ bytes, (sha256 bytes).length = 32) {status : Nat}
    {snapshot : Value F} (hkd : snapshot.Keyed)
    (hseen : Seen showFloat policy (fun _ => .json status snapshot) views)
    (hctr : Contract policy views) (hsucc : successful status = true)
    (hgen : isGenericJsonErrorEnvelope policy snapshot = false)
    (hresv : ∀ path ∈ policy.comparison.selectedPaths, (snapshot.pointer path.asStr).isSome = true)
    (hpres : ∃ path ∈ policy.comparison.selectedPaths, ∃ found,
      snapshot.pointer path.asStr = some found ∧
        found.present policy.comparison path.tokens = true) :
    ∃ result, compare policy views = .ok result ∧
      result.outcome = .stableCrossPrincipalEquivalence := by
  have hcomp : ∀ position, ∃ profiled,
      CompleteView showFloat policy status snapshot (views position) profiled := fun position => by
    obtain ⟨role, receiptId, hview⟩ := hseen position
    exact captureJson_ok hview
  choose profiled hcomp using hcomp
  obtain ⟨result, hres, hout, -⟩ := compare_complete hwidth ⟨hctr, hcomp⟩
  refine ⟨result, hres, hout.mpr ⟨fun position => ?_, fun _ => hsucc,
    fun position => (pathsPresent_iff hkd (hcomp position)).mpr ⟨hresv, hpres⟩,
    fun position other => ⟨rfl, ?_, ?_⟩⟩⟩
  · rw [(hcomp position).generic, hgen, Bool.and_false]
  · exact (capture_ok (hcomp position).viewOf.capture).2.1.trans
      (capture_ok (hcomp other).viewOf.capture).2.1.symm
  · exact (capture_ok (hcomp position).viewOf.capture).1.trans
      (capture_ok (hcomp other).viewOf.capture).1.symm

/-- What the signatures of complete views tell of their projections. -/
theorem CompleteViews.signatures (hwidth : ∀ bytes, (sha256 bytes).length = 32)
    (hfloat : ∀ (value : F) (n : Number F), n.isInteger = true → showFloat value ≠ n.show showFloat)
    {status : Fin 4 → Nat} {snapshots : Fin 4 → Value F}
    {profiled : Fin 4 → ProfiledApiVisibilityView} {inputs : Set Bytes}
    (h : CompleteViews showFloat policy views status snapshots profiled)
    (hinj : Set.InjOn sha256 inputs)
    (hinps : ∀ position, ∀ input ∈ captureInputs showFloat sha256 policy.comparison
      (snapshots position), input ∈ inputs) (position other : Fin 4) :
    ((profiled position).resourceSignature = (profiled other).resourceSignature ↔
      Option.Rel Doc.Alike
        (((snapshots position).projected policy.comparison).map (Doc.map (Scalar.shown showFloat)))
        (((snapshots other).projected policy.comparison).map (Doc.map (Scalar.shown showFloat)))) ∧
    ((profiled position).resourceSignature = (profiled other).resourceSignature →
      (profiled position).fieldSignature = (profiled other).fieldSignature) := by
  have hleft := (h.complete position).viewOf
  have hright := (h.complete other).viewOf
  obtain ⟨signatures, hsigs⟩ := hleft.within
  obtain ⟨signatures', hsigs'⟩ := hright.within
  have hrsrc := capture_resource_iff hwidth hinj (hinps position) (hinps other) hsigs
    hsigs' hleft.capture hright.capture
  have hfields := capture_fields_iff hwidth hinj (hinps position) (hinps other) hsigs
    hsigs' hleft.capture hright.capture
  refine ⟨hrsrc, fun hsame => hfields.mpr ?_⟩
  have halike := hrsrc.mp hsame
  revert halike
  cases (snapshots position).projected policy.comparison with
  | none =>
    cases (snapshots other).projected policy.comparison with
    | none => exact fun _ => .none
    | some right => exact fun halike => by cases halike
  | some left =>
    cases (snapshots other).projected policy.comparison with
    | none => exact fun halike => by cases halike
    | some right =>
      exact fun halike => .some (TreeHash.alike_map_of_alike_map (kind_eq_of_shown_eq hfloat)
        (Option.rel_some_some.mp halike))

/-- **Only real equivalence is reported as stable.** Whatever the four responses
are, views that pass the contract are compared, with one result in every order. -/
theorem stable_iff (hwidth : ∀ bytes, (sha256 bytes).length = 32)
    (hfloat : ∀ (value : F) (n : Number F), n.isInteger = true → showFloat value ≠ n.show showFloat)
    (hinj : Set.InjOn sha256 (hashedInputs showFloat policy responses))
    (hkeyed : ∀ position, ∀ snapshot ∈ (responses position).snapshot, snapshot.Keyed)
    (hseen : Seen showFloat policy responses views)
    (hvalid : validateContract policy views = .ok ()) :
    ∃ result, (∀ arrangement : Equiv.Perm (Fin 4),
        compare policy (views ∘ arrangement) = .ok result) ∧
      (result.outcome = .stableCrossPrincipalEquivalence ↔
        RealEquivalence showFloat policy responses) ∧
      ∀ dimensions, some dimensions ∈ [result.primaryStability, result.peerStability,
        result.crossCandidate, result.crossReplay] →
          dimensions.resources = true → dimensions.fields = true := by
  have hctr := validateContract_eq_ok_iff.mp hvalid
  cases hterm : terminalOutcome views with
  | some outcome =>
    obtain ⟨result, hres, rfl, hnone⟩ := compare_terminal hctr hterm
    refine ⟨result, fun arrangement => (compare_perm arrangement).trans hres, ?_, ?_⟩
    · refine ⟨fun hstable => absurd hstable (terminalOutcome_ne_stable hterm), ?_⟩
      rintro ⟨status, snapshots, hjson, -⟩
      have hstates : ∀ position, (views position).state = .completeJson := by
        intro position
        obtain ⟨role, receiptId, hview⟩ := hseen position
        rw [hjson] at hview
        obtain ⟨profiled, hcomp⟩ := captureJson_ok hview
        exact hcomp.state
      rw [terminalOutcome_eq_none_iff.mpr hstates] at hterm
      cases hterm
    · intro dimensions hmem
      rw [hnone] at hmem
      simp at hmem
  | none =>
    obtain ⟨status, snapshots, profiled, hjson, hviews⟩ :=
      hseen.complete hctr (terminalOutcome_eq_none_iff.mp hterm)
    have hsnap : ∀ position, snapshots position ∈ (responses position).snapshot := fun position => by
      rw [hjson]
      rfl
    have hsigs := hviews.signatures hwidth hfloat hinj fun position input hinp =>
      ⟨position, _, hsnap position, hinp⟩
    have hpres := fun position =>
      pathsPresent_iff (hkeyed position _ (hsnap position)) (hviews.complete position)
    obtain ⟨result, hres, hout, hdim⟩ := compare_complete hwidth hviews
    refine ⟨result, fun arrangement => (compare_perm arrangement).trans hres, ?_, ?_⟩
    · rw [hout]
      constructor
      · rintro ⟨hgen, hsucc, hpaths, hequal⟩
        refine ⟨status 0, snapshots, fun position => ?_, hsucc 0, fun position => ?_,
          fun position => ((hpres position).mp (hpaths position)).1,
          fun position => ((hpres position).mp (hpaths position)).2,
          fun position other => (hsigs position other).1.mp (hequal position other).2.2⟩
        · rw [hjson, (hequal position 0).1]
        · have hnone := hgen position
          rw [(hviews.complete position).generic, hsucc position, Bool.true_and] at hnone
          exact hnone
      · rintro ⟨common, snapshots', hjson', hequiv⟩
        have hsame : ∀ position, status position = common ∧ snapshots position = snapshots' position :=
          fun position => Response.json.inj ((hjson position).symm.trans (hjson' position))
        obtain rfl : snapshots = snapshots' := funext fun position => (hsame position).2
        refine ⟨fun position => ?_, fun position => ?_, fun position => (hpres position).mpr
          ⟨hequiv.resolved position, hequiv.present position⟩, fun position other => ?_⟩
        · rw [(hviews.complete position).generic, hequiv.notGeneric position, Bool.and_false]
        · rw [(hsame position).1]
          exact hequiv.successful
        · have hrsrc := (hsigs position other).1.mpr (hequiv.alike position other)
          exact ⟨(hsame position).1.trans (hsame other).1.symm,
            (hsigs position other).2 hrsrc, hrsrc⟩
    · intro dimensions hmem hresources
      obtain ⟨position, other, hfnd⟩ := hdim _ hmem
      cases hfnd
      exact decide_eq_true ((hsigs position other).2 (of_decide_eq_true hresources))

/-! ### A sample -/

/-- Two paths are selected. -/
def sampleWire : WirePolicy where
  schema := authorizationReviewPolicySchema
  resource := "/me"
  resourceHandle := "handle"
  expectation := "primary-only"
  method := "GET"
  comparison := {
    selectedPaths := ["/a", "/b"]
    ignoredPaths := []
    unorderedArrayPaths := []
    maxDiffPaths := 8 }

theorem isSome_samplePolicy :
    (AuthorizationReviewPolicy.accept checksum .ok sampleWire).toOption.isSome = true := by
  decide +kernel

def samplePolicy : AuthorizationReviewPolicy checksum :=
  (AuthorizationReviewPolicy.accept checksum .ok sampleWire).toOption.get isSome_samplePolicy

/-- One of the two paths leads to null. -/
def sampleBody : Value Unit := .object [("a", .null), ("b", .bool true)]

def sampleResponses : Fin 4 → Response Unit := fun _ => .json 200 sampleBody

def sampleRole : Fin 4 → AuthorizationViewRole :=
  ![.peerReplay, .primaryCandidate, .primaryReplay, .peerCandidate]

def sampleView (position : Fin 4) : Except AuthorizationReviewViewError AuthorizationReviewView :=
  (sampleResponses position).view (fun _ => "0.5") samplePolicy (sampleRole position)
    [UInt8.ofNat position]

theorem isSome_sampleView : ∀ position, (sampleView position).toOption.isSome = true := by
  decide +kernel

def sampleViews : Views := fun position => (sampleView position).toOption.get (isSome_sampleView position)

theorem seen_sample : Seen (fun _ => "0.5") samplePolicy sampleResponses sampleViews := by
  intro position
  refine ⟨sampleRole position, [UInt8.ofNat position], ?_⟩
  show sampleView position = _
  have hsome := isSome_sampleView position
  cases hview : sampleView position with
  | error failure =>
    rw [hview] at hsome
    cases hsome
  | ok view =>
    simp only [sampleViews, hview]
    rfl

theorem validateContract_sample : validateContract samplePolicy sampleViews = .ok () := by
  decide +kernel

/-- The hash does not collide on what is hashed for the sample. -/
theorem injOn_sample :
    Set.InjOn checksum (hashedInputs (fun _ => "0.5") samplePolicy sampleResponses) := by
  have hdist : ∀ input ∈ captureInputs (fun _ => "0.5") checksum samplePolicy.comparison
      sampleBody, ∀ input' ∈ captureInputs (fun _ => "0.5") checksum samplePolicy.comparison
      sampleBody, checksum input = checksum input' → input = input' := by
    decide +kernel
  rintro input ⟨position, snapshot, hsnap, hinp⟩ input' ⟨position', snapshot', hsnap', hinp'⟩
  cases hsnap
  cases hsnap'
  exact hdist input hinp input' hinp'

theorem stable_iff_sample : ∃ result, (∀ arrangement : Equiv.Perm (Fin 4),
      compare samplePolicy (sampleViews ∘ arrangement) = .ok result) ∧
    (result.outcome = .stableCrossPrincipalEquivalence ↔
      RealEquivalence (fun _ => "0.5") samplePolicy sampleResponses) ∧
    ∀ dimensions, some dimensions ∈ [result.primaryStability, result.peerStability,
      result.crossCandidate, result.crossReplay] →
        dimensions.resources = true → dimensions.fields = true := by
  refine stable_iff (fun _ => length_beBytes _ _) ?_ injOn_sample ?_ seen_sample
    validateContract_sample
  · intro value n hn hsame
    cases n with
    | posInt n =>
      have hdigs : "0.5".toList = Nat.toDigits 10 n :=
        (congrArg String.toList hsame).trans Nat.toList_repr
      have hpoint : '.' ∈ Nat.toDigits 10 n := by
        rw [← hdigs]
        decide
      exact absurd (Nat.isDigit_of_mem_toDigits (by decide) (by decide) hpoint) (by decide)
    | negInt magnitude =>
      exact absurd (congrArg (fun text => text.toList.head?) hsame) (by simp [Number.show])
    | float value => cases hn
  · intro position snapshot hsnap
    cases hsnap
    simp [sampleBody, Value.Keyed, Value.KeyedMembers]

/-- **A selected null is no obstacle.** Something at one selected path is enough. -/
theorem stable_with_null : Seen (fun _ => "0.5") samplePolicy sampleResponses sampleViews ∧
    Set.InjOn checksum (hashedInputs (fun _ => "0.5") samplePolicy sampleResponses) ∧
    validateContract samplePolicy sampleViews = .ok () ∧
    ∃ result, compare samplePolicy sampleViews = .ok result ∧
      ¬ (result.outcome = .stableCrossPrincipalEquivalence ↔
        RealEquivalence (fun _ => "0.5") samplePolicy sampleResponses ∧
          ∀ position, ∀ path ∈ samplePolicy.comparison.selectedPaths,
            ∃ snapshot ∈ (sampleResponses position).snapshot, ∃ found,
              snapshot.pointer path.asStr = some found ∧
                found.present samplePolicy.comparison path.tokens = true) := by
  refine ⟨seen_sample, injOn_sample, validateContract_sample, ?_⟩
  have hany : (samplePolicy.comparison.selectedPaths.any fun path =>
      (sampleBody.pointer path.asStr).any fun found =>
        found.present samplePolicy.comparison path.tokens) = true := by
    decide +kernel
  have hpres : ∃ path ∈ samplePolicy.comparison.selectedPaths, ∃ found,
      sampleBody.pointer path.asStr = some found ∧
        found.present samplePolicy.comparison path.tokens = true := by
    obtain ⟨path, hpath, hfnd⟩ := List.any_eq_true.mp hany
    obtain ⟨found, hpoin, hpres⟩ := (Option.any_eq_true _ _).mp hfnd
    exact ⟨path, hpath, found, hpoin, hpres⟩
  obtain ⟨result, hres, hout⟩ := stable_of_same (fun _ => length_beBytes _ _)
    (by simp [sampleBody, Value.Keyed, Value.KeyedMembers]) seen_sample
    (validateContract_eq_ok_iff.mp validateContract_sample) (by decide) (by decide +kernel)
    (by decide +kernel) hpres
  refine ⟨result, hres, fun hiff => ?_⟩
  obtain ⟨-, hpres⟩ := hiff.mp hout
  have hnull : ∃ path ∈ samplePolicy.comparison.selectedPaths, path.asStr = "/a" := by
    decide +kernel
  obtain ⟨path, hpath, ha⟩ := hnull
  obtain ⟨snapshot, hsnap, found, hfnd, hsome⟩ := hpres 0 path hpath
  cases hsnap
  rw [ha] at hfnd
  rw [show sampleBody.pointer "/a" = some .null by rfl] at hfnd
  cases hfnd
  cases hsome

end Verdict

end Termivar.AuthorizationReview
