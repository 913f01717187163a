/-
# Execution budgets

The finite ceilings of a run (`ExploitExecutionBudget` of
`termivar-exploit/src/orchestration_authority.rs`): they start at the
declaration of a manifest and are only ever narrowed or intersected. Seen as
functions of the dimension they form a meet semilattice, and the budgets that
keep the shape of a manifest are closed under its meets.
-/
import Termivar.Exploit.Manifest

namespace Termivar.Exploit

/-- Closed orchestration failures. -/
inductive ExploitOrchestrationError where
  | applicabilityRejected
  | authorizationDenied (reason : String)
  | authorityWidening
  | invalidBudgetNarrowing
  | invalidPlan (reason : String)
  | usageOverflow
  | implementationUnavailable
  | implementationNotSelectable
  | implementationBindingMismatch
  | implementationPlanChanged
  | implementationPanicked
  | duplicateReceiptEvidence
  | receiptEvidenceLimitExceeded

/-- One of the finite budget dimensions a host may narrow. -/
inductive ExploitBudgetDimension where
  | plannedSteps
  | attemptSteps
  | verificationSteps
  | cleanupSteps
  | hostOperations
  | reportedRequests
  | requestBodyBytes
  | responseBodyBytes
  | cumulativeResponseBytes
  | evidenceReferences
  | artifacts
  | elapsedMilliseconds
  deriving DecidableEq

/-- One requested narrowing. Zero is never an unlimited sentinel. -/
structure ExploitBudgetLimit where
  dimension : ExploitBudgetDimension
  maximum : Nat
  positive : maximum ≠ 0

/-- A finite runtime ceiling derived from a manifest and narrowed by a host. -/
@[ext] structure ExploitExecutionBudget where
  plannedSteps : Nat
  attemptSteps : Nat
  verificationSteps : Nat
  cleanupSteps : Nat
  hostOperations : Nat
  reportedRequests : Nat
  requestBodyBytes : Nat
  responseBodyBytes : Nat
  cumulativeResponseBytes : Nat
  evidenceReferences : Nat
  artifacts : Nat
  elapsedMilliseconds : Nat
  deriving DecidableEq

namespace ExploitExecutionBudget

def fromManifest (limits : ExploitBudgetLimits) : ExploitExecutionBudget where
  plannedSteps := limits.plannedSteps
  attemptSteps := limits.attemptSteps
  verificationSteps := limits.verificationSteps
  cleanupSteps := limits.cleanupSteps
  hostOperations := limits.hostOperations
  reportedRequests := limits.reportedRequests
  requestBodyBytes := limits.requestBodyBytes
  responseBodyBytes := limits.responseBodyBytes
  cumulativeResponseBytes := limits.cumulativeResponseBytes
  evidenceReferences := limits.evidenceReferences
  artifacts := limits.artifacts
  elapsedMilliseconds := limits.elapsedMilliseconds

variable (b : ExploitExecutionBudget)

def validateShape : Except ExploitOrchestrationError Unit := do
  let phaseSteps ← okOr ((checkedAdd u32Max b.attemptSteps b.verificationSteps).bind fun count =>
    checkedAdd u32Max count b.cleanupSteps) .invalidBudgetNarrowing
  if phaseSteps > b.plannedSteps ∨ phaseSteps > b.hostOperations ∨
      b.responseBodyBytes > b.cumulativeResponseBytes then
    throw .invalidBudgetNarrowing

/-- `narrow_u64!`. -/
def narrowU64 (current maximum : Nat) : Except ExploitOrchestrationError Nat :=
  if maximum > current then .error .authorityWidening else .ok maximum

/-- `narrow_u32!`. -/
def narrowU32 (current maximum : Nat) : Except ExploitOrchestrationError Nat :=
  if maximum > u32Max then .error .invalidBudgetNarrowing else narrowU64 current maximum

def applyNarrowing (limit : ExploitBudgetLimit) :
    Except ExploitOrchestrationError ExploitExecutionBudget :=
  match limit.dimension with
  | .plannedSteps => (narrowU32 b.plannedSteps limit.maximum).map
    fun value => { b with plannedSteps := value }
  | .attemptSteps => (narrowU32 b.attemptSteps limit.maximum).map
    fun value => { b with attemptSteps := value }
  | .verificationSteps => (narrowU32 b.verificationSteps limit.maximum).map
    fun value => { b with verificationSteps := value }
  | .cleanupSteps => (narrowU32 b.cleanupSteps limit.maximum).map
    fun value => { b with cleanupSteps := value }
  | .hostOperations => (narrowU32 b.hostOperations limit.maximum).map
    fun value => { b with hostOperations := value }
  | .reportedRequests => (narrowU32 b.reportedRequests limit.maximum).map
    fun value => { b with reportedRequests := value }
  | .requestBodyBytes => (narrowU64 b.requestBodyBytes limit.maximum).map
    fun value => { b with requestBodyBytes := value }
  | .responseBodyBytes => (narrowU64 b.responseBodyBytes limit.maximum).map
    fun value => { b with responseBodyBytes := value }
  | .cumulativeResponseBytes => (narrowU64 b.cumulativeResponseBytes limit.maximum).map
    fun value => { b with cumulativeResponseBytes := value }
  | .evidenceReferences => (narrowU32 b.evidenceReferences limit.maximum).map
    fun value => { b with evidenceReferences := value }
  | .artifacts => (narrowU32 b.artifacts limit.maximum).map
    fun value => { b with artifacts := value }
  | .elapsedMilliseconds => (narrowU64 b.elapsedMilliseconds limit.maximum).map
    fun value => { b with elapsedMilliseconds := value }

/-- The loop of `narrowed`, with the dimensions it has seen. -/
def applyNarrowings (result : ExploitExecutionBudget) (seen : List ExploitBudgetDimension) :
    List ExploitBudgetLimit → Except ExploitOrchestrationError ExploitExecutionBudget
  | [] => .ok result
  | limit :: limits => do
    if limit.dimension ∈ seen then throw .invalidBudgetNarrowing
    let result ← result.applyNarrowing limit
    applyNarrowings result (limit.dimension :: seen) limits

/-- Narrows one or more dimensions. Duplicate dimensions and widening fail closed. -/
def narrowed (limits : List ExploitBudgetLimit) :
    Except ExploitOrchestrationError ExploitExecutionBudget := do
  let result ← b.applyNarrowings [] limits
  result.validateShape
  return result

/-- Field by field, the smaller value. -/
def minimum (a b : ExploitExecutionBudget) : ExploitExecutionBudget where
  plannedSteps := min a.plannedSteps b.plannedSteps
  attemptSteps := min a.attemptSteps b.attemptSteps
  verificationSteps := min a.verificationSteps b.verificationSteps
  cleanupSteps := min a.cleanupSteps b.cleanupSteps
  hostOperations := min a.hostOperations b.hostOperations
  reportedRequests := min a.reportedRequests b.reportedRequests
  requestBodyBytes := min a.requestBodyBytes b.requestBodyBytes
  responseBodyBytes := min a.responseBodyBytes b.responseBodyBytes
  cumulativeResponseBytes := min a.cumulativeResponseBytes b.cumulativeResponseBytes
  evidenceReferences := min a.evidenceReferences b.evidenceReferences
  artifacts := min a.artifacts b.artifacts
  elapsedMilliseconds := min a.elapsedMilliseconds b.elapsedMilliseconds

/-- The effective host and grant intersection. -/
def intersection (a b : ExploitExecutionBudget) :
    Except ExploitOrchestrationError ExploitExecutionBudget := do
  (a.minimum b).validateShape
  return a.minimum b

def isWithin (b ceiling : ExploitExecutionBudget) : Bool :=
  b.plannedSteps ≤ ceiling.plannedSteps &&
    b.attemptSteps ≤ ceiling.attemptSteps &&
    b.verificationSteps ≤ ceiling.verificationSteps &&
    b.cleanupSteps ≤ ceiling.cleanupSteps &&
    b.hostOperations ≤ ceiling.hostOperations &&
    b.reportedRequests ≤ ceiling.reportedRequests &&
    b.requestBodyBytes ≤ ceiling.requestBodyBytes &&
    b.responseBodyBytes ≤ ceiling.responseBodyBytes &&
    b.cumulativeResponseBytes ≤ ceiling.cumulativeResponseBytes &&
    b.evidenceReferences ≤ ceiling.evidenceReferences &&
    b.artifacts ≤ ceiling.artifacts &&
    b.elapsedMilliseconds ≤ ceiling.elapsedMilliseconds

def dim : ExploitBudgetDimension → Nat
  | .plannedSteps => b.plannedSteps
  | .attemptSteps => b.attemptSteps
  | .verificationSteps => b.verificationSteps
  | .cleanupSteps => b.cleanupSteps
  | .hostOperations => b.hostOperations
  | .reportedRequests => b.reportedRequests
  | .requestBodyBytes => b.requestBodyBytes
  | .responseBodyBytes => b.responseBodyBytes
  | .cumulativeResponseBytes => b.cumulativeResponseBytes
  | .evidenceReferences => b.evidenceReferences
  | .artifacts => b.artifacts
  | .elapsedMilliseconds => b.elapsedMilliseconds

theorem forall_dim {P : ExploitBudgetDimension → Prop} : (∀ d, P d) ↔
    ((((((((((P .plannedSteps ∧ P .attemptSteps) ∧ P .verificationSteps) ∧ P .cleanupSteps) ∧
      P .hostOperations) ∧ P .reportedRequests) ∧ P .requestBodyBytes) ∧ P .responseBodyBytes) ∧
      P .cumulativeResponseBytes) ∧ P .evidenceReferences) ∧ P .artifacts) ∧
      P .elapsedMilliseconds := by
  constructor
  · intro h
    simp [h]
  · rintro h d
    cases d <;> simp [h]

theorem isWithin_iff {b ceiling : ExploitExecutionBudget} :
    b.isWithin ceiling = true ↔ b.dim ≤ ceiling.dim := by
  unfold isWithin
  simp only [Bool.and_eq_true, decide_eq_true_eq]
  exact (forall_dim (P := fun d => b.dim d ≤ ceiling.dim d)).symm

/-! ### Shape -/

/-- The phases fit the steps and the host operations, a response fits the
cumulative bytes, and nothing overflows. -/
def Shape : Prop :=
  b.attemptSteps + b.verificationSteps + b.cleanupSteps ≤ u32Max ∧
    b.attemptSteps + b.verificationSteps + b.cleanupSteps ≤ b.plannedSteps ∧
    b.attemptSteps + b.verificationSteps + b.cleanupSteps ≤ b.hostOperations ∧
    b.responseBodyBytes ≤ b.cumulativeResponseBytes

/-- The sum of the phases in the source's checked additions. -/
theorem phaseSteps_eq_some {a v c total : Nat} :
    ((checkedAdd u32Max a v).bind fun count => checkedAdd u32Max count c) = some total ↔
      a + v + c ≤ u32Max ∧ total = a + v + c := by
  simp only [Option.bind_eq_some_iff, checkedAdd_eq_some]
  constructor
  · rintro ⟨count, ⟨-, rfl⟩, hsum, rfl⟩
    exact ⟨hsum, rfl⟩
  · rintro ⟨hsum, rfl⟩
    exact ⟨a + v, ⟨by omega, rfl⟩, hsum, rfl⟩

variable {b a r : ExploitExecutionBudget}

theorem validateShape_eq_ok : b.validateShape = .ok () ↔ b.Shape := by
  unfold validateShape Shape
  cases hsum : (checkedAdd u32Max b.attemptSteps b.verificationSteps).bind fun count =>
      checkedAdd u32Max count b.cleanupSteps with
  | none =>
    have hover : ¬b.attemptSteps + b.verificationSteps + b.cleanupSteps ≤ u32Max := by
      intro hle
      rw [phaseSteps_eq_some.mpr ⟨hle, rfl⟩] at hsum
      cases hsum
    exact ⟨(by intros; contradiction), fun hshp => absurd hshp.1 hover⟩
  | some total =>
    obtain ⟨hfits, rfl⟩ := phaseSteps_eq_some.mp hsum
    simp only [okOr, bind, Except.bind]
    split_ifs with hbad
    · exact ⟨(by simp), fun hshp => by omega⟩
    · exact ⟨fun _ => ⟨hfits, by omega, by omega, by omega⟩, fun _ => rfl⟩

/-- The smaller values are the meet of the dimensions. -/
theorem dim_minimum (a b : ExploitExecutionBudget) : (a.minimum b).dim = a.dim ⊓ b.dim := by
  funext d
  cases d <;> rfl

/-- The meet keeps the shape: sums of minima are below minima of sums. -/
theorem Shape.minimum (ha : a.Shape) (hb : b.Shape) :
    (a.minimum b).Shape := by
  unfold Shape at ha hb ⊢
  simp only [ExploitExecutionBudget.minimum]
  omega

/-- An intersection is the meet, if the meet has the shape. -/
theorem intersection_eq_ok :
    a.intersection b = .ok r ↔ r = a.minimum b ∧ (a.minimum b).Shape := by
  rw [← validateShape_eq_ok]
  unfold intersection
  cases hshp : (a.minimum b).validateShape with
  | error e => exact ⟨nofun, fun h => by cases h.2⟩
  | ok _ => exact ⟨fun h => ⟨by cases h; rfl, rfl⟩, fun h => by rw [h.1]; rfl⟩

/-! ### Narrowing -/

theorem map_eq_ok {ε α β : Type} {x : Except ε α} {f : α → β} {b : β} (h : x.map f = .ok b) :
    ∃ a, x = .ok a ∧ b = f a := by
  cases x with
  | error e => cases h
  | ok a => exact ⟨a, rfl, by cases h; rfl⟩

/-- The type is closed: a budget comes from a manifest, a narrowing or an
intersection. -/
inductive Reachable : ExploitExecutionBudget → Prop where
  | fromManifest (limits : ExploitBudgetLimits) : Reachable (fromManifest limits)
  | narrowed {b r : ExploitExecutionBudget} {limits : List ExploitBudgetLimit} :
    Reachable b → b.narrowed limits = .ok r → Reachable r
  | intersection {a b r : ExploitExecutionBudget} :
    Reachable a → Reachable b → a.intersection b = .ok r → Reachable r

end ExploitExecutionBudget

end Termivar.Exploit
