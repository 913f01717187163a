/-
# An operation of the adapter leaves at most one receipt

The number of admitted requests does not fall, an operation that succeeds has
admitted one, and each operation adds at most one receipt.
-/
import Termivar.NativeOast.Invariant

namespace Termivar.NativeOast

open Command
open Termivar.Correlation
open Termivar.Oast (CallbackAllocation PollResponse SessionRegistration)
open Termivar.Runtime (TransportDispatchOutcome)

/-- The admitted requests of an adapter. -/
def NativeOastProviderAdapter.admittedProviderRequests (a : NativeOastProviderAdapter) : Nat :=
  a.boundary.permit.providerRequests

/-- What an operation leaves of the accounting of the adapter. -/
structure Used (a a' : NativeOastProviderAdapter) : Prop where
  receipts : a'.receipts.length ≤ a.receipts.length + 1
  requests : a.admittedProviderRequests ≤ a'.admittedProviderRequests

variable {b b' : Boundary} {operation : NativeOastProviderOperation}
  {sha256 : Bytes → Bytes} {a a' : NativeOastProviderAdapter}

theorem Used.refl (a : NativeOastProviderAdapter) : Used a a := ⟨by omega, le_rfl⟩

theorem Traced.requests_le (h : Traced operation b b') (hb : Balanced b) :
    b.permit.providerRequests ≤ b'.permit.providerRequests := by
  rw [← hb.counted, ← h.balanced.counted]
  rcases h.opened with heq | ⟨sequence, heq⟩ <;> rw [heq]
  simp

theorem Quiet.requests_eq (h : Quiet b b') (hb : Balanced b) :
    b'.permit.providerRequests = b.permit.providerRequests := by
  rw [← hb.counted, ← h.balanced.counted, h.opened]

/-- A dispatch that begins is counted. -/
theorem begin_admits (operation : NativeOastProviderOperation) (requestBytes requestBodyBytes : Nat)
    (cancelled : Bool) (now : Instant) :
    wp (begin operation requestBytes requestBodyBytes cancelled now)
      (fun _ b' => 1 ≤ b'.permit.providerRequests) (fun _ _ => True) True b := by
  unfold begin beginDispatch
  simp only [↓wp_rules, ↓wp_tryCatch, ↓Checked.wp_okOr]
  refine ⟨fun _ => trivial, fun _ => ⟨fun _ => trivial, fun _ => ⟨fun _ => trivial, fun _ =>
    ⟨fun _ => trivial, fun _ => ⟨fun _ => trivial, fun _ => ⟨fun next _ => ?_, fun _ => trivial⟩⟩⟩⟩⟩⟩
  refine wp_of_forall (fun lease b' => ?_) (fun _ _ => trivial) trivial
  unfold saturatingAdd u16Max
  omega

/-- A request that succeeds is counted. -/
theorem dispatchWire_admits {α : Type} (h : Balanced b) (hfree : b.permit.activeLease = none)
    (operation : NativeOastProviderOperation) (exchange : Exchange α) :
    wp (dispatchWire operation exchange) (fun _ b' => 1 ≤ b'.permit.providerRequests)
      (fun _ _ => True) True b := by
  unfold dispatchWire
  cases exchange.unsent with
  | some kind => trivial
  | none =>
    simp only [↓wp_bind, ↓wp_mapErr]
    refine wp_mono (wp_and (begin_spec h hfree _ _ _ _ _) (begin_admits _ _ _ _ _))
      (fun _ b' hb' => ?_) (fun _ _ _ => trivial) fun _ => trivial
    obtain ⟨htrac, hadmitted⟩ := hb'
    refine wp_mono (receive_spec htrac.balanced exchange _) (fun _ b'' hb'' => ?_)
      (fun _ _ _ => trivial) fun _ => trivial
    rw [hb''.requests_eq htrac.balanced]
    exact hadmitted

theorem settle_used (h : Balanced a.boundary) (outcome : TransportDispatchOutcome)
    (elapsedMs : Nat) :
    wp (settle outcome elapsedMs) (fun _ a' => a'.receipts = a.receipts ∧ Balanced a'.boundary ∧
        a'.admittedProviderRequests = a.admittedProviderRequests)
      (fun _ _ => False) False a := by
  unfold settle onBoundary
  rw [wp_mapErr, wp_zoom]
  refine wp_imp (finishDispatch_spec h outcome elapsedMs) ?_
  rintro _ b' ⟨hqt, -⟩
  exact ⟨rfl, hqt.balanced, hqt.requests_eq h⟩

theorem clientFailure_receipts {α : Type} (h : Balanced a.boundary)
    (before : NativeOastProviderLifecycle) (elapsedMs : Nat) (error : NativeOastClientError) :
    wp (clientFailure operation before elapsedMs error : AdapterCommand α) (fun _ _ => False)
      (fun _ a' => a'.receipts.length ≤ a.receipts.length + 1) False a := by
  unfold clientFailure recordReceipt
  rw [wp_bind]
  refine wp_mono (settle_used h _ elapsedMs) ?_ (fun _ _ he => he.elim) id
  rintro _ a' ⟨heq, -, -⟩
  split
  · unfold onBoundary takeBoundaryError
    simp only [↓wp_rules, ↓wp_mapErr, ↓wp_zoom]
    simp [heq]
  · simp only [↓wp_rules]
    simp [heq]

/-- A request leaves a receipt only where it fails. -/
theorem request_used {α : Type} (hbal : Balanced a.boundary)
    (hfree : a.boundary.permit.activeLease = none) (operation : NativeOastProviderOperation)
    (before : NativeOastProviderLifecycle) (exchange : Exchange α) :
    wp (request operation before exchange)
      (fun _ a' => a'.receipts = a.receipts ∧ 1 ≤ a'.admittedProviderRequests ∧
        a.admittedProviderRequests ≤ a'.admittedProviderRequests)
      (fun _ a' => Used a a') True a := by
  have hreqs : wp (request operation before exchange)
      (fun _ a' => a.admittedProviderRequests ≤ a'.admittedProviderRequests)
      (fun _ a' => a.admittedProviderRequests ≤ a'.admittedProviderRequests) True a :=
    wp_mono (request_spec hbal hfree operation before exchange)
      (fun _ _ h => h.traced.requests_le hbal) (fun _ _ h => h.2.traced.requests_le hbal)
      fun _ => trivial
  have hrcpts : wp (request operation before exchange)
      (fun _ a' => a'.receipts = a.receipts ∧ 1 ≤ a'.admittedProviderRequests)
      (fun _ a' => a'.receipts.length ≤ a.receipts.length + 1) True a := by
    unfold request onBoundary
    rw [wp_bind, wp_attempt, wp_zoom]
    refine wp_mono (wp_and (dispatchWire_spec hbal hfree operation exchange)
      (dispatchWire_admits hbal hfree operation exchange)) (fun dispatch b hb => ?_)
      (fun error b hb => ?_) fun _ => trivial
    · simp only [↓wp_rules]
      refine wp_mono (settle_used (a := { a with boundary := b }) hb.1.balanced .completed
        exchange.elapsedMs) ?_ (fun _ _ he => he.elim) fun _ => trivial
      rintro _ a' ⟨heq, -, hcnt⟩
      exact ⟨heq, hcnt ▸ hb.2⟩
    · exact wp_mono (clientFailure_receipts (a := { a with boundary := b }) hb.1.balanced before
        exchange.elapsedMs error) (fun _ _ he => he.elim) (fun _ _ h => h) fun _ => trivial
  exact wp_mono (wp_and hrcpts hreqs) (fun _ _ h => ⟨h.1.1, h.1.2, h.2⟩)
    (fun _ _ h => ⟨h.1, h.2⟩) fun _ => trivial

theorem registerInner_used (h : Sound sha256 a) (exchange : Exchange SessionRegistration) :
    wp (registerInner exchange) (fun _ a' => Used a a' ∧ 1 ≤ a'.admittedProviderRequests)
      (fun _ a' => Used a a') True a := by
  unfold registerInner refuse recordReceipt
  simp only [↓wp_rules]
  refine ⟨fun _ => Used.refl a, fun _ => ⟨fun _ => ⟨by simp, le_rfl⟩, fun _ => ?_⟩⟩
  refine wp_mono (request_used (a := { a with registrationAttempted := true, administrator := none })
    h.balanced h.free .register a.lifecycle exchange) ?_ (fun _ _ hused => ⟨hused.1, hused.2⟩) id
  rintro ⟨registration, accounting⟩ a' ⟨heq, hadmitted, hle⟩
  exact ⟨⟨by simp [heq], hle⟩, hadmitted⟩

theorem allocateCallbackInner_used (h : Sound sha256 a) (verificationCase : VerificationCase)
    (token : OastCorrelationToken) (now later : Instant) (exchange : Exchange CallbackAllocation) :
    wp (allocateCallbackInner sha256 verificationCase token now later exchange)
      (fun _ a' => Used a a') (fun _ a' => Used a a') True a := by
  have hsame := Used.refl a
  unfold allocateCallbackInner refuse
  simp only [↓wp_rules, ↓Checked.wp_okOr]
  refine ⟨fun _ => hsame, fun _ => ⟨fun _ => hsame, fun _ => ⟨fun session _ => ?_, fun _ => hsame⟩⟩⟩
  refine wp_mono (registerCorrelation_spec h verificationCase token session now later) ?_ ?_
    fun _ => trivial
  · rintro ⟨correlation, correlationReceipt⟩ _ ⟨-, correlations, -, rfl⟩
    refine wp_mono (request_used (a := { a with
      correlations, callbackAttempts := saturatingAdd u16Max a.callbackAttempts 1 }) h.balanced h.free
      .allocateCallback a.lifecycle exchange) ?_ (fun _ _ hused => ⟨hused.1, hused.2⟩) id
    rintro ⟨allocation, accounting⟩ a' ⟨heq, -, hle⟩
    unfold recordReceipt
    simp only [↓wp_rules]
    have hrcpts : a'.receipts.length = a.receipts.length := congrArg List.length heq
    exact ⟨fun _ => ⟨by simp [hrcpts], hle⟩, fun _ => ⟨by simp [hrcpts], hle⟩⟩
  · rintro _ _ ⟨-, rfl⟩
    exact hsame

/-- A page is reduced without a receipt and without a request. -/
theorem reducePageAtomically_used (page : PollResponse) (observedAt : Nat) :
    wp (reducePageAtomically sha256 page observedAt)
      (fun _ a' => a'.receipts = a.receipts ∧ a'.boundary = a.boundary)
      (fun _ a' => a'.receipts = a.receipts ∧ a'.boundary = a.boundary) True a := by
  unfold reducePageAtomically
  simp only [↓wp_rules, ↓Checked.wp_okOr, ↓wp_locally]
  refine ⟨fun session _ => ?_, fun _ => ⟨trivial, trivial⟩⟩
  exact wp_of_forall (fun _ _ => ⟨fun _ => ⟨trivial, trivial⟩, fun _ => ⟨trivial, trivial⟩⟩)
    (fun _ _ => ⟨trivial, trivial⟩) trivial

theorem pollInner_used (h : Sound sha256 a) (exchange : Exchange PollResponse) (now : Instant) :
    wp (pollInner sha256 exchange now) (fun _ a' => Used a a') (fun _ a' => Used a a') True a := by
  have hsame := Used.refl a
  unfold pollInner refuse rejectPage recordReceipt
  simp only [↓wp_rules]
  refine ⟨fun _ => hsame, fun _ => ⟨fun _ => hsame, fun _ => ⟨fun _ => ⟨by simp, le_rfl⟩,
    fun _ => ?_⟩⟩⟩
  refine wp_mono (request_used (a := { a with pollAttempts := saturatingAdd u16Max a.pollAttempts 1 })
    h.balanced h.free .poll a.lifecycle exchange) ?_ (fun _ _ hused => ⟨hused.1, hused.2⟩) id
  rintro ⟨page, accounting⟩ a' ⟨heq, -, hle⟩
  have hrcpts : a'.receipts.length = a.receipts.length := congrArg List.length heq
  cases validatePollPage a' page with
  | error kind =>
    simp only [↓wp_rules]
    exact ⟨by simp [hrcpts], hle⟩
  | ok _ =>
    simp only [↓wp_bind, ↓wp_attempt]
    refine wp_mono (reducePageAtomically_used page _) ?_ ?_ id
    · rintro correlationReceipts a'' ⟨hsame', hboun⟩
      simp only [↓wp_rules]
      refine ⟨by simp [hsame', hrcpts], ?_⟩
      simpa [NativeOastProviderAdapter.admittedProviderRequests, hboun] using hle
    · rintro kind a'' ⟨hsame', hboun⟩
      simp only [↓wp_rules]
      refine ⟨by simp [hsame', hrcpts], ?_⟩
      simpa [NativeOastProviderAdapter.admittedProviderRequests, hboun] using hle

theorem cleanupInner_used (h : Sound sha256 a) (exchange : Exchange Bool) :
    wp (cleanupInner exchange) (fun _ a' => Used a a' ∧ 1 ≤ a'.admittedProviderRequests)
      (fun _ a' => Used a a') True a := by
  unfold cleanupInner refuse onBoundary
  simp only [↓wp_rules, ↓wp_attempt, ↓wp_zoom]
  refine ⟨fun _ => Used.refl a, fun _ => ⟨fun _ => ⟨by simp, le_rfl⟩, fun _ => ?_⟩⟩
  refine wp_mono (wp_and (dispatchWire_spec h.balanced h.free .cleanup exchange)
    (dispatchWire_admits h.balanced h.free .cleanup exchange)) ?_ ?_ fun _ => trivial
  · rintro ⟨verified, accounting⟩ b ⟨htrac, hadmitted⟩
    refine wp_mono (settle_used (a := { a with
      boundary := b, cleanupAttempted := true, lifecycle := .closed, session := none })
      htrac.balanced .completed exchange.elapsedMs) ?_ (fun _ _ he => he.elim) fun _ => trivial
    rintro _ a' ⟨heq, -, hcnt⟩
    have hrcpts : a'.receipts.length = a.receipts.length := congrArg List.length heq
    have hle : a.admittedProviderRequests ≤ a'.admittedProviderRequests :=
      hcnt ▸ htrac.requests_le h.balanced
    unfold recordReceipt
    simp only [↓wp_rules]
    refine ⟨fun _ => ⟨⟨by simp [hrcpts], hle⟩, ?_⟩, fun _ => ⟨by simp [hrcpts], hle⟩⟩
    exact hcnt.symm ▸ hadmitted
  · rintro error b ⟨htrac, -⟩
    have hfailed := wp_and (clientFailure_spec (α := NativeOastProviderReceipt) (a := { a with
      boundary := b, cleanupAttempted := true, lifecycle := .closed, session := none }) htrac
      a.lifecycle exchange.elapsedMs error) (clientFailure_receipts (a := { a with
      boundary := b, cleanupAttempted := true, lifecycle := .closed, session := none })
      htrac.balanced a.lifecycle exchange.elapsedMs error)
    refine wp_mono hfailed (fun _ _ he => he.1.elim) ?_ fun _ => trivial
    rintro e a' ⟨⟨-, hsett, -, -⟩, hrcpts⟩
    exact ⟨hrcpts, hsett.requests_le h.balanced⟩

/-- The failures that are kept are not counted. -/
theorem observed_used {α : Type} {x : AdapterCommand α} {ok : α → NativeOastProviderAdapter → Prop}
    (operation : NativeOastProviderOperation) (h : wp x ok (fun _ a' => Used a a') True a) :
    wp (observed operation x) ok (fun _ a' => Used a a') True a := by
  unfold observed
  simp only [↓wp_tryCatch, ↓wp_rules]
  refine wp_mono h (fun _ _ hok => hok) (fun _ _ hused => ?_) id
  split <;> exact ⟨hused.1, hused.2⟩

/-- A fresh adapter has no receipt. -/
theorem mint_receipts {parse : String → Option Url}
    {client : Option (NativeOastClientErrorKind × Option NativeOastHttpFailure)}
    {configuration : NativeOastProviderConfiguration} {targetOrigin : String}
    {broker : Runtime.Accounting} {parentBudget : Runtime.RuntimeBudget} {cancelled : Bool}
    {parentDeadline : Option Instant} {now clockOrigin : Instant}
    (hmint : mint sha256 parse client configuration targetOrigin broker parentBudget cancelled
      parentDeadline now clockOrigin = .ok a) : a.receipts.length = 0 := by
  have hspec : Checked.wp (mint sha256 parse client configuration targetOrigin broker parentBudget
      cancelled parentDeadline now clockOrigin) (fun a => a.receipts.length = 0) (fun _ => True) := by
    unfold mint
    cases client with
    | some failure => trivial
    | none =>
      simp only [↓Checked.wp_rules]
      exact ⟨fun limits _ => Checked.wp_of_forall (fun _ => rfl) fun _ => trivial, fun _ => trivial⟩
  rw [hmint] at hspec
  exact hspec

end Termivar.NativeOast
