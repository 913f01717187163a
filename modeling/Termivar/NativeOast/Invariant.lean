/-
# The adapter keeps its session, its limits and its leases

Every operation of the adapter leaves no lease of the broker behind: a request
that the permit admitted opened one lease and closed it. The session is there
exactly while the lifecycle says so, the attempts stay within the limits, and
a poll that fails leaves the correlations alone. All of it holds for whatever
the client and the clock bring, and whatever the other holders of the broker
do in between.
-/
import Termivar.Correlation.Run
import Termivar.NativeOast.Adapter

namespace Termivar.NativeOast

open Command Option List
open Termivar.Correlation
open Termivar.Oast (CallbackAllocation CallbackId HttpEventRecord PollResponse SessionRegistration)
open Termivar.Runtime (Accounting AccountingOp RuntimeBudget TransportDispatchOutcome)

/-! ### Leases -/

/-- Every lease that was opened is closed or the active one, and what was
admitted is within the limits. -/
structure Balanced (b : Boundary) : Prop where
  leases : b.opened.map Prod.snd =
    b.closed ++ b.permit.activeLease.toList.map Runtime.RequestAccountingLease.sequence
  counted : b.opened.length = b.permit.providerRequests
  requests : b.permit.providerRequests ≤ b.permit.limits.maxProviderRequests
  requestBytes : b.permit.providerRequestBytes ≤ b.permit.limits.maxProviderRequestBytes
  remembered : b.permit.lastBoundaryError ≠ some .internalInvariant

/-- What no request changes. -/
structure Same (b b' : Boundary) : Prop where
  limits : b'.permit.limits = b.permit.limits
  fingerprint : b'.permit.providerOriginFingerprint = b.permit.providerOriginFingerprint

/-- The boundary after a step that opens no lease. -/
structure Quiet (b b' : Boundary) : Prop extends Same b b' where
  balanced : Balanced b'
  opened : b'.opened = b.opened

/-- The boundary after a request: it opened one lease for its operation, or none. -/
structure Traced (operation : NativeOastProviderOperation) (b b' : Boundary) : Prop
    extends Same b b' where
  balanced : Balanced b'
  opened : b'.opened = b.opened ∨ ∃ sequence, b'.opened = b.opened ++ [(operation, sequence)]

variable {b b' b'' : Boundary} {operation : NativeOastProviderOperation}

theorem Same.trans (h : Same b b') (h' : Same b' b'') : Same b b'' :=
  ⟨h'.limits.trans h.limits, h'.fingerprint.trans h.fingerprint⟩

theorem Quiet.refl (h : Balanced b) : Quiet b b := ⟨⟨rfl, rfl⟩, h, rfl⟩

theorem Quiet.trans (h : Quiet b b') (h' : Quiet b' b'') : Quiet b b'' :=
  ⟨h.toSame.trans h'.toSame, h'.balanced, h'.opened.trans h.opened⟩

theorem Quiet.traced (h : Quiet b b') : Traced operation b b' := ⟨h.toSame, h.balanced, .inl h.opened⟩

theorem Traced.quiet (h : Traced operation b b') (h' : Quiet b' b'') : Traced operation b b'' :=
  ⟨h.toSame.trans h'.toSame, h'.balanced, by rw [h'.opened]; exact h.opened⟩

/-- The requests admitted for an operation. -/
def admitted (operation : NativeOastProviderOperation) (b : Boundary) : Nat :=
  b.opened.countP (·.1 = operation)

theorem Traced.admitted_le (h : Traced operation b b') : admitted operation b' ≤ admitted operation b + 1 := by
  unfold admitted
  rcases h.opened with heq | ⟨sequence, heq⟩ <;> rw [heq]
  · omega
  · simp

theorem Traced.admitted_eq (h : Traced operation b b') {other : NativeOastProviderOperation}
    (hne : operation ≠ other) : admitted other b' = admitted other b := by
  unfold admitted
  rcases h.opened with heq | ⟨sequence, heq⟩ <;> rw [heq]
  simp [hne]

/-! ### The permit -/

/-- The broker in other hands does not move the permit. -/
theorem Balanced.broker (h : Balanced b) (broker : Accounting) : Quiet b { b with broker } :=
  ⟨⟨rfl, rfl⟩, { h with }, rfl⟩

theorem Balanced.remember (h : Balanced b) (kind : Option NativeOastProviderErrorKind)
    (hkind : kind ≠ some .internalInvariant) :
    Quiet b { b with permit := { b.permit with lastBoundaryError := kind } } :=
  ⟨⟨rfl, rfl⟩, { h with remembered := hkind }, rfl⟩

theorem byOther_spec (h : Balanced b) (op : AccountingOp) :
    wp (byOther op) (fun _ b' => Quiet b b' ∧ b'.permit = b.permit) (fun _ _ => False) False b := by
  rw [byOther, wp_modify]
  split
  · exact ⟨h.broker _, rfl⟩
  · exact ⟨Quiet.refl h, rfl⟩

theorem byOthers_spec : ∀ (ops : List AccountingOp) {b : Boundary}, Balanced b →
    wp (byOthers ops) (fun _ b' => Quiet b b') (fun _ _ => False) False b
  | [], _, h => Quiet.refl h
  | op :: ops, b, h => by
    rw [byOthers, wp_bind]
    refine wp_imp (byOther_spec h op) fun _ b' hoth => ?_
    have hb' := hoth.1
    exact wp_imp (byOthers_spec ops hb'.balanced) (fun _ _ hnext => hb'.trans hnext)

/-- The broker opens one lease, or refuses and stays as it was. -/
theorem onOwnLease_tryBegin (hfree : b.permit.activeLease = none) (actionId : String)
    (requestBodyBytes : Nat) :
    wp (onOwnLease (Runtime.tryBeginWithRequestBodyBytes actionId .passive none requestBodyBytes))
      (fun lease b' => ∃ broker, b' =
        { b with broker, permit := { b.permit with activeLease := some lease } })
      (fun kind b' => kind ≠ .internalInvariant ∧ b' = b) False b := by
  unfold onOwnLease Runtime.tryBeginWithRequestBodyBytes
  simp only [↓wp_zoom, ↓wp_mapErr, ↓wp_rules]
  refine Checked.wp_of_forall (fun _ => ?_) (fun _ => ⟨(by simp), ?_⟩)
  · simp only [hfree]
    exact ⟨_, rfl⟩
  · obtain ⟨permit, broker, opened, closed⟩ := b
    obtain ⟨url, fingerprint, limits, deadline, lease, requests, bytes, received, error⟩ := permit
    subst hfree
    rfl

theorem beginDispatch_spec (h : Balanced b) (hfree : b.permit.activeLease = none)
    (operation : NativeOastProviderOperation) (requestBytes requestBodyBytes : Nat)
    (cancelled : Bool) (now : Instant) :
    wp (beginDispatch operation requestBytes requestBodyBytes cancelled now)
      (fun _ b' => Traced operation b b') (fun kind b' => kind ≠ .internalInvariant ∧ b' = b)
      False b := by
  unfold beginDispatch
  simp only [↓wp_bind, ↓wp_get, ↓wp_ite, ↓wp_throw, ↓wp_lift, ↓Checked.wp_okOr]
  refine ⟨fun hsome => by simp [hfree] at hsome, fun _ => ⟨fun _ => ⟨(by simp), trivial⟩, fun _ =>
    ⟨fun _ => ⟨(by simp), trivial⟩, fun _ => ⟨fun _ => ⟨(by simp), trivial⟩, fun hreqs =>
    ⟨fun _ => ⟨(by simp), trivial⟩, fun _ => ⟨fun next hnext => ?_, fun _ => ⟨(by simp), trivial⟩⟩⟩⟩⟩⟩⟩
  obtain ⟨-, hbs⟩ := filter_eq_some_iff.mp hnext
  refine wp_imp (onOwnLease_tryBegin hfree _ requestBodyBytes) ?_
  rintro lease _ ⟨broker, rfl⟩
  have hlimit := b.permit.limits.checked
  have hroom := h.requests
  have hsum : saturatingAdd u16Max b.permit.providerRequests 1 = b.permit.providerRequests + 1 := by
    refine saturatingAdd_eq ?_
    simp only [LimitsChecked, hardMaxNativeOastProviderRequests, u16Max] at hlimit ⊢
    omega
  rw [wp_modify]
  refine ⟨⟨rfl, rfl⟩, ⟨?_, ?_, ?_, by simpa using hbs, h.remembered⟩, .inr ⟨_, rfl⟩⟩
  · have hlss := h.leases
    rw [hfree] at hlss
    simp [hlss]
  · simp [hsum, h.counted]
  · simp only [hsum]
    omega

theorem begin_spec (h : Balanced b) (hfree : b.permit.activeLease = none)
    (operation : NativeOastProviderOperation) (requestBytes requestBodyBytes : Nat)
    (cancelled : Bool) (now : Instant) :
    wp (begin operation requestBytes requestBodyBytes cancelled now)
      (fun _ b' => Traced operation b b') (fun _ b' => Traced operation b b') False b := by
  unfold begin
  simp only [↓wp_rules, ↓wp_tryCatch]
  have hcleared := h.remember none (by simp)
  refine wp_mono (beginDispatch_spec hcleared.balanced hfree operation requestBytes requestBodyBytes
    cancelled now) (fun _ b' hb' => ?_) ?_ id
  · exact ⟨hcleared.toSame.trans hb'.toSame, hb'.balanced, hb'.opened⟩
  · rintro kind _ ⟨hkind, rfl⟩
    exact (hcleared.trans (hcleared.balanced.remember (some kind) fun heq => hkind (some.inj heq))).traced

theorem observeResponseBytes_spec (h : Balanced b) (observed : Nat) :
    wp (observeResponseBytes observed) (fun _ b' => Quiet b b') (fun _ _ => False) False b := by
  unfold observeResponseBytes
  rw [wp_bind, wp_get]
  cases hls : b.permit.activeLease with
  | none => exact Quiet.refl h
  | some lease =>
    unfold onOwnLease Runtime.observeResponseBytes
    simp only [↓wp_rules, ↓wp_zoom, ↓wp_mapErr]
    refine ⟨⟨rfl, rfl⟩, { h with leases := ?_ }, rfl⟩
    have hlss := h.leases
    rw [hls] at hlss
    simpa [hls] using hlss

theorem finishDispatch_spec (h : Balanced b) (outcome : TransportDispatchOutcome) (elapsedMs : Nat) :
    wp (finishDispatch outcome elapsedMs)
      (fun _ b' => Quiet b b' ∧ b'.permit.activeLease = none) (fun _ _ => False) False b := by
  unfold finishDispatch
  rw [wp_bind, wp_get]
  cases hls : b.permit.activeLease with
  | none => exact ⟨Quiet.refl h, hls⟩
  | some lease =>
    unfold onOwnLease Runtime.finish Runtime.dropLease
    simp only [↓wp_rules, ↓wp_zoom, ↓wp_mapErr]
    refine ⟨⟨⟨rfl, rfl⟩, { h with leases := ?_ }, rfl⟩, ?_⟩
    · have hlss := h.leases
      rw [hls] at hlss
      simpa [hls] using hlss
    · simp [hls]

/-! ### One request -/

theorem readResponseBody_spec : ∀ (events : List BodyEvent) {b : Boundary}
    (accounting : NativeOastDispatchAccounting), Balanced b →
    wp (readResponseBody events accounting) (fun _ b' => Quiet b b') (fun _ b' => Quiet b b') False b
  | [], _, _, h => Quiet.refl h
  | .failed _ :: _, _, _, h => Quiet.refl h
  | .other op :: events, b, accounting, h => by
    rw [readResponseBody, wp_bind, wp_mapErr]
    refine wp_mono (byOther_spec h op) (fun _ b' hoth => ?_) (fun _ _ he => he.elim) id
    have hb' := hoth.1
    exact wp_mono (readResponseBody_spec events accounting hb'.balanced)
      (fun _ _ hnext => hb'.trans hnext) (fun _ _ hnext => hb'.trans hnext) id
  | .chunk observed :: events, b, accounting, h => by
    unfold readResponseBody
    simp only [↓wp_rules, ↓Checked.wp_okOr, ↓wp_mapErr]
    refine ⟨fun responseBytes _ => ?_, fun _ => Quiet.refl h⟩
    refine wp_mono (observeResponseBytes_spec h observed) (fun retained b' hb' => ?_)
      (fun _ _ he => he.elim) id
    refine ⟨fun _ => hb', fun _ => ⟨fun _ => hb', fun _ => ?_⟩⟩
    exact wp_mono (readResponseBody_spec events _ hb'.balanced)
      (fun _ _ hnext => hb'.trans hnext) (fun _ _ hnext => hb'.trans hnext) id

variable {α : Type} {boundary : Boundary} {c : OastCorrelation}

theorem receive_spec (h : Balanced b) (exchange : Exchange α)
    (accounting : NativeOastDispatchAccounting) :
    wp (receive exchange accounting) (fun _ b' => Quiet b b') (fun _ b' => Quiet b b') False b := by
  unfold receive
  rw [wp_bind, wp_mapErr]
  refine wp_mono (byOthers_spec exchange.meanwhile h) (fun _ b' hb' => ?_) (fun _ _ he => he.elim) id
  cases exchange.head with
  | some failure => exact hb'
  | none =>
    simp only [↓wp_rules]
    refine ⟨fun _ => hb', fun _ => ?_⟩
    refine wp_mono (readResponseBody_spec exchange.body accounting hb'.balanced) (fun _ b'' hb'' => ?_)
      (fun _ _ hnext => hb'.trans hnext) id
    cases exchange.parsed with
    | ok value => exact hb'.trans hb''
    | error kind => exact hb'.trans hb''

/-- A request opens at most one lease, of its own operation. -/
theorem dispatchWire_spec (h : Balanced b) (hfree : b.permit.activeLease = none)
    (operation : NativeOastProviderOperation) (exchange : Exchange α) :
    wp (dispatchWire operation exchange) (fun _ b' => Traced operation b b')
      (fun _ b' => Traced operation b b') False b := by
  unfold dispatchWire
  cases exchange.unsent with
  | some kind => exact (Quiet.refl h).traced
  | none =>
    simp only [↓wp_bind, ↓wp_mapErr]
    refine wp_imp (begin_spec h hfree _ _ _ _ _) fun _ b' hb' => ?_
    exact wp_mono (receive_spec hb'.balanced exchange _) (fun _ _ hnext => hb'.quiet hnext)
      (fun _ _ hnext => hb'.quiet hnext) id

/-! ### The adapter -/

variable {sha256 : Bytes → Bytes}

/-- An event of some page has no key: its digest is not one. -/
def KeyRejected (sha256 : Bytes → Bytes) (provider : Bytes) : Prop :=
  ∃ sessionId callbackId eventId,
    eventKeyNew (providerEventKey sha256 provider sessionId callbackId eventId) = none

/-- What holds between two operations. -/
structure Sound (sha256 : Bytes → Bytes) (a : NativeOastProviderAdapter) : Prop where
  balanced : Balanced a.boundary
  free : a.boundary.permit.activeLease = none
  session : a.session.isSome = a.lifecycle.open?
  registrations : admitted .register a.boundary ≤ a.registrationAttempted.toNat
  cleanups : admitted .cleanup a.boundary ≤ a.cleanupAttempted.toNat
  callbackAttempts : a.callbackAttempts ≤ a.boundary.permit.limits.maxCallbacks
  pollAttempts : a.pollAttempts ≤ a.boundary.permit.limits.maxPolls
  reserved : ∃ ids, Reserved sha256 a.correlations ids
  correlations : ∀ (id : CallbackId) (c : OastCorrelation), a.callbacks[id]? = some c →
    ∃ began receipts, Registered began receipts c none

/-- An operation keeps what holds and does not turn the lifecycle back. -/
structure Step (sha256 : Bytes → Bytes) (a a' : NativeOastProviderAdapter) : Prop where
  sound : Sound sha256 a'
  same : Same a.boundary a'.boundary
  rank : a.lifecycle.rank ≤ a'.lifecycle.rank

/-- An error of an operation: the adapter finds its own state broken only where
an event has no key. -/
def Blamed (sha256 : Bytes → Bytes) (a : NativeOastProviderAdapter)
    (e : NativeOastProviderError) : Prop :=
  e.kind = .internalInvariant → KeyRejected sha256 a.boundary.permit.providerOriginFingerprint

variable {a a' : NativeOastProviderAdapter}

theorem Step.refl (h : Sound sha256 a) : Step sha256 a a := ⟨h, ⟨rfl, rfl⟩, le_rfl⟩

theorem Step.trans {a'' : NativeOastProviderAdapter} (h : Step sha256 a a') (h' : Step sha256 a' a'') :
    Step sha256 a a'' :=
  ⟨h'.sound, h.same.trans h'.same, h.rank.trans h'.rank⟩

/-- The adapter after a request of it, which changes only the boundary and adds
to the receipts. -/
structure Requested (operation : NativeOastProviderOperation) (a a' : NativeOastProviderAdapter) :
    Prop where
  traced : Traced operation a.boundary a'.boundary
  free : a'.boundary.permit.activeLease = none
  rest : a' = { a with boundary := a'.boundary, receipts := a'.receipts }

theorem settle_spec {b : Boundary} (htrac : Traced operation b a.boundary)
    (outcome : TransportDispatchOutcome) (elapsedMs : Nat) :
    wp (settle outcome elapsedMs)
      (fun _ a' => Traced operation b a'.boundary ∧ a'.boundary.permit.activeLease = none ∧
        a' = { a with boundary := a'.boundary })
      (fun _ _ => False) False a := by
  unfold settle onBoundary
  rw [wp_mapErr, wp_zoom]
  refine wp_imp (finishDispatch_spec htrac.balanced outcome elapsedMs) ?_
  rintro _ b' ⟨hqt, hfree⟩
  exact ⟨htrac.quiet hqt, hfree, rfl⟩

theorem providerClientFailureKind_ne (kind : NativeOastClientErrorKind)
    (httpFailure : Option NativeOastHttpFailure) :
    providerClientFailureKind kind httpFailure ≠ .internalInvariant := by
  unfold providerClientFailureKind
  split <;> nofun

theorem clientFailure_spec {b : Boundary} (htrac : Traced operation b a.boundary)
    (before : NativeOastProviderLifecycle) (elapsedMs : Nat) (error : NativeOastClientError) :
    wp (clientFailure operation before elapsedMs error : AdapterCommand α) (fun _ _ => False)
      (fun e a' => e.kind ≠ .internalInvariant ∧ Traced operation b a'.boundary ∧
        a'.boundary.permit.activeLease = none ∧
        a' = { a with boundary := a'.boundary, receipts := a'.receipts }) False a := by
  unfold clientFailure recordReceipt
  rw [wp_bind]
  refine wp_mono (settle_spec htrac _ elapsedMs) ?_ (fun _ _ he => he.elim) id
  rintro _ a' ⟨hsett, hfree, hrest⟩
  have hrem := hsett.balanced.remembered
  split
  · unfold onBoundary takeBoundaryError
    simp only [↓wp_rules, ↓wp_mapErr, ↓wp_zoom]
    refine ⟨fun heq => ?_, ?_, hfree, ?_⟩
    · cases hkind : a'.boundary.permit.lastBoundaryError with
      | none => rw [hkind] at heq; cases heq
      | some kind =>
        rw [hkind] at heq hrem
        exact hrem (congrArg some heq)
    · exact hsett.quiet (hsett.balanced.remember none (by simp))
    · rw [hrest]
  · simp only [↓wp_rules]
    refine ⟨providerClientFailureKind_ne _ _, hsett, hfree, ?_⟩
    rw [hrest]

theorem request_spec (hbal : Balanced a.boundary)
    (hfree : a.boundary.permit.activeLease = none) (operation : NativeOastProviderOperation)
    (before : NativeOastProviderLifecycle) (exchange : Exchange α) :
    wp (request operation before exchange) (fun _ a' => Requested operation a a')
      (fun e a' => e.kind ≠ .internalInvariant ∧ Requested operation a a') False a := by
  unfold request onBoundary
  rw [wp_bind, wp_attempt, wp_zoom]
  refine wp_mono (dispatchWire_spec hbal hfree operation exchange) (fun dispatch b hb => ?_)
    (fun error b hb => ?_) id
  · simp only [↓wp_rules]
    refine wp_mono (settle_spec (a := { a with boundary := b }) hb .completed exchange.elapsedMs) ?_
      (fun _ _ he => he.elim) id
    rintro _ a' ⟨htrac, hleft, hrest⟩
    exact ⟨htrac, hleft, by rw [hrest]⟩
  · refine wp_mono (clientFailure_spec (a := { a with boundary := b }) hb before exchange.elapsedMs
      error) (fun _ _ he => he.elim) ?_ id
    rintro e a' ⟨hkind, htrac, hleft, hrest⟩
    exact ⟨hkind, htrac, hleft, by rw [hrest]⟩

/-- What holds survives a request whose lease was still to be had. -/
theorem Sound.requested (h : Sound sha256 a) (htrac : Traced operation a.boundary boundary)
    (hfree : boundary.permit.activeLease = none)
    (receipts : List NativeOastProviderReceipt)
    (hreg : admitted .register boundary ≤ a.registrationAttempted.toNat)
    (hcln : admitted .cleanup boundary ≤ a.cleanupAttempted.toNat) :
    Sound sha256 { a with boundary, receipts } where
  balanced := htrac.balanced
  free := hfree
  session := h.session
  registrations := hreg
  cleanups := hcln
  callbackAttempts := by rw [htrac.limits]; exact h.callbackAttempts
  pollAttempts := by rw [htrac.limits]; exact h.pollAttempts
  reserved := h.reserved
  correlations := h.correlations

theorem Requested.exists (h : Requested operation a a') : ∃ boundary receipts,
    Traced operation a.boundary boundary ∧ boundary.permit.activeLease = none ∧
      a' = { a with boundary, receipts } :=
  ⟨a'.boundary, a'.receipts, h.traced, h.free, h.rest⟩

variable (h : Sound sha256 a)

include h

/-- A receipt more or less is not looked at. -/
theorem Sound.receipts (receipts : List NativeOastProviderReceipt) :
    Sound sha256 { a with receipts } :=
  { h with }

theorem registerInner_spec (exchange : Exchange SessionRegistration) :
    wp (registerInner exchange) (fun _ a' => Step sha256 a a')
      (fun e a' => Step sha256 a a' ∧ Blamed sha256 a e) False a := by
  have hsame : Step sha256 a a := Step.refl h
  unfold registerInner refuse recordReceipt
  simp only [↓wp_rules]
  refine ⟨fun _ => ⟨hsame, nofun⟩, fun hallowed => ?_⟩
  obtain ⟨hconf, hfirst⟩ : a.lifecycle = .configured ∧ a.registrationAttempted = false := by
    simpa [lifecycleAllows] using hallowed
  have hnone : admitted .register a.boundary = 0 := by
    have := h.registrations
    rw [hfirst] at this
    exact Nat.le_zero.mp this
  have hattd : Sound sha256 { a with registrationAttempted := true, administrator := none } :=
    { h with registrations := by simp [hnone] }
  refine ⟨fun _ => ⟨⟨{ h with registrations := by simp [hnone] }, ⟨rfl, rfl⟩, le_rfl⟩, nofun⟩, fun _ => ?_⟩
  refine wp_mono (request_spec hattd.balanced hattd.free .register a.lifecycle exchange) ?_ ?_ id
  · rintro ⟨registration, accounting⟩ a' hreq
    obtain ⟨boundary, receipts, htrac, hfree, rfl⟩ := hreq.exists
    have hcnt := htrac.admitted_le
    have hdone := hattd.requested htrac hfree receipts (by simpa [hnone] using hcnt)
      (by rw [htrac.admitted_eq (by decide)]; exact hattd.cleanups)
    refine ⟨{ hdone with session := rfl }, htrac.toSame, ?_⟩
    rw [hconf]
    exact Nat.zero_le _
  · rintro e a' ⟨hkind, hreq⟩
    obtain ⟨boundary, receipts, htrac, hfree, rfl⟩ := hreq.exists
    have hcnt := htrac.admitted_le
    exact ⟨⟨hattd.requested htrac hfree receipts (by simpa [hnone] using hcnt)
      (by rw [htrac.admitted_eq (by decide)]; exact hattd.cleanups), htrac.toSame, le_rfl⟩,
      fun hint => absurd hint hkind⟩

theorem registerCorrelation_spec (verificationCase : VerificationCase)
    (token : OastCorrelationToken) (session : NativeOastProviderSession) (now later : Instant) :
    wp (registerCorrelation sha256 verificationCase token session now later)
      (fun made a' => Registered [] [] made.1 none ∧
        ∃ correlations, (∃ ids, Reserved sha256 correlations ids) ∧ a' = { a with correlations })
      (fun e a' => e.kind ≠ .internalInvariant ∧ a' = a) False a := by
  obtain ⟨ids, hrsv⟩ := h.reserved
  unfold registerCorrelation
  simp only [↓wp_rules, ↓Checked.wp_okOr, ↓wp_mapErr, ↓wp_zoom]
  refine ⟨fun lifetime _ => ⟨fun pollBudget _ => ⟨fun protocols _ => ?_, fun _ => ⟨(by simp), trivial⟩⟩,
    fun _ => ⟨(by simp), trivial⟩⟩, fun _ => ⟨(by simp), trivial⟩⟩
  refine wp_mono (register_spec hrsv verificationCase token protocols _ lifetime pollBudget) ?_
    (fun _ authority heq => ⟨(by simp), by rw [heq]⟩) id
  rintro made authority ⟨hregistered, hnext, -⟩
  exact ⟨hregistered, authority, ⟨_, hnext⟩, rfl⟩

/-- An operation that needs the session finds it. -/
theorem Sound.session_of_allows (hne : operation ≠ .register)
    (hallowed : lifecycleAllows a.lifecycle operation = true) : a.session.isSome = true := by
  rw [h.session]
  cases hlife : a.lifecycle <;> cases operation <;> simp_all [lifecycleAllows,
    NativeOastProviderLifecycle.open?]

/-- What holds survives a request that neither registers nor cleans up. -/
theorem Sound.requested_other (htrac : Traced operation a.boundary boundary)
    (hfree : boundary.permit.activeLease = none)
    (receipts : List NativeOastProviderReceipt) (hreg : operation ≠ .register)
    (hcln : operation ≠ .cleanup) : Sound sha256 { a with boundary, receipts } :=
  h.requested htrac hfree receipts (by rw [htrac.admitted_eq hreg]; exact h.registrations)
    (by rw [htrac.admitted_eq hcln]; exact h.cleanups)

/-- The attempt of a callback is counted. -/
theorem Sound.attempted {correlations : OastCorrelationAuthority}
    (hrsv : ∃ ids, Reserved sha256 correlations ids)
    (hroom : a.callbackAttempts < a.boundary.permit.limits.maxCallbacks) :
    Sound sha256 { a with
      correlations, callbackAttempts := saturatingAdd u16Max a.callbackAttempts 1 } := by
  refine { h with callbackAttempts := ?_, reserved := hrsv }
  show min (a.callbackAttempts + 1) u16Max ≤ a.boundary.permit.limits.maxCallbacks
  omega

/-- A new callback brings its correlation. -/
theorem Sound.allocated (id : CallbackId)
    (hregistered : Registered [] [] c none) (hopen : a.session.isSome = true)
    (receipts : List NativeOastProviderReceipt) :
    Sound sha256 { a with
      callbacks := a.callbacks.insert id c, lifecycle := .callbackAllocated, receipts } := by
  refine { h with session := hopen, correlations := fun other c' hc' => ?_ }
  rw [get_insert] at hc'
  split at hc'
  · cases hc'
    exact ⟨[], [], hregistered⟩
  · exact h.correlations other c' hc'

theorem allocateCallbackInner_spec (verificationCase : VerificationCase)
    (token : OastCorrelationToken) (now later : Instant) (exchange : Exchange CallbackAllocation) :
    wp (allocateCallbackInner sha256 verificationCase token now later exchange)
      (fun _ a' => Step sha256 a a') (fun e a' => Step sha256 a a' ∧ Blamed sha256 a e) False a := by
  have hsame : Step sha256 a a := Step.refl h
  unfold allocateCallbackInner refuse
  simp only [↓wp_rules, ↓Checked.wp_okOr]
  refine ⟨fun _ => ⟨hsame, (by rintro ⟨⟩)⟩, fun hallowed => ⟨fun _ => ⟨hsame, (by rintro ⟨⟩)⟩, fun hroom => ?_⟩⟩
  have hallowed : lifecycleAllows a.lifecycle .allocateCallback = true := by simpa using hallowed
  have hopen := h.session_of_allows (by decide) hallowed
  refine ⟨fun session _ => ?_, fun hnone => by rw [hnone] at hopen; cases hopen⟩
  refine wp_mono (registerCorrelation_spec h verificationCase token session now later) ?_ ?_ id
  · rintro ⟨correlation, correlationReceipt⟩ _ ⟨hregistered, correlations, hrsv, rfl⟩
    have hattd := h.attempted hrsv (by omega)
    refine wp_mono (request_spec hattd.balanced hattd.free .allocateCallback a.lifecycle
      exchange) ?_ ?_ id
    · rintro ⟨allocation, accounting⟩ a' hreq
      obtain ⟨boundary, receipts, htrac, hfree, rfl⟩ := hreq.exists
      have hdone := hattd.requested_other htrac hfree receipts (by decide) (by decide)
      unfold recordReceipt
      simp only [↓wp_rules]
      refine ⟨fun _ => ⟨⟨hdone.receipts _, htrac.toSame, le_rfl⟩, (by rintro ⟨⟩)⟩, fun _ => ?_⟩
      refine ⟨(hdone.allocated allocation.callbackId hregistered hopen _), htrac.toSame, ?_⟩
      cases hlife : a.lifecycle <;> simp_all [lifecycleAllows, NativeOastProviderLifecycle.rank]
    · rintro e a' ⟨hkind, hreq⟩
      obtain ⟨boundary, receipts, htrac, hfree, rfl⟩ := hreq.exists
      exact ⟨⟨hattd.requested_other htrac hfree receipts (by decide) (by decide),
        htrac.toSame, le_rfl⟩, fun hint => absurd hint hkind⟩
  · rintro e _ ⟨hkind, rfl⟩
    exact ⟨hsame, fun hint => absurd hint hkind⟩

omit h

/-! ### Pages -/

/-- The permit of a poll is dropped where the poll ends. -/
theorem wp_withPermit {ε α : Type} {ok : α → OastCorrelation → Prop} {err : ε → OastCorrelation → Prop}
    {permit : OastPollPermit} {x : Command Polling ε α} (h : wp x
      (fun value q => wp dropPermit (fun _ r => ok value r.correlation) (fun _ _ => False) False q)
      (fun e q => wp dropPermit (fun _ r => err e r.correlation) (fun _ _ => False) False q) False
      ⟨c, permit⟩) :
    wp (withPermit permit x) ok err False c := by
  unfold wp withPermit at *
  cases hx : x ⟨c, permit⟩ with
  | panic => rw [hx] at h; exact h
  | ok value q =>
    rw [hx] at h
    cases hdrop : dropPermit q with
    | ok u r => simpa [hdrop] using h
    | error e r => simp [hdrop] at h
    | panic => simp [hdrop] at h
  | error e q =>
    rw [hx] at h
    cases hdrop : dropPermit q with
    | ok u r => simpa [hdrop] using h
    | error e r => simp [hdrop] at h
    | panic => simp [hdrop] at h

variable {began : List (Nat × Nat)} {receipts : List OastPollReceipt} {context : PageContext}

theorem stageEvents_spec (callbackId : CallbackId) (correlationId : OastCorrelationId) :
    ∀ (events : List HttpEventRecord) {c : OastCorrelation} {p : OastPollPermit},
      Registered began receipts c (some p) →
      wp (stageEvents sha256 context callbackId correlationId events)
        (fun _ q => Registered began receipts q.correlation (some q.permit))
        (fun kind q => Registered began receipts q.correlation (some q.permit) ∧
          (kind = .internalInvariant → KeyRejected sha256 context.provider)) False ⟨c, p⟩
  | [], _, _, h => h
  | event :: events, c, p, h => by
    unfold stageEvents reduceProviderHttpEvent
    simp only [↓wp_rules, ↓Checked.wp_rules, ↓wp_mapErr]
    refine ⟨fun key _ => ?_, fun hnone => ⟨h, fun _ => ⟨_, _, _, hnone⟩⟩⟩
    refine wp_mono (stageEvent_spec h correlationId _ context.observedAt) (fun _ q hq => ?_)
      (fun _ q hq => ⟨hq.1, (by simp)⟩) id
    exact stageEvents_spec callbackId correlationId events hq.1

theorem dropped_spec {P : OastCorrelation → Prop} {q : Polling}
    (h : Registered began receipts q.correlation (some q.permit))
    (hP : ∀ c, Registered began receipts c none → P c) :
    wp dropPermit (fun _ r => P r.correlation) (fun _ _ => False) False q :=
  wp_imp (dropPermit_spec h (h.live q.permit rfl).uncommitted) (fun _ _ hr => hP _ hr.1)

theorem reduceCallback_spec (h : Registered began receipts c none)
    (events : List HttpEventRecord) (callbackId : CallbackId) :
    wp (reduceCallback sha256 context events callbackId)
      (fun _ c' => ∃ began receipts, Registered began receipts c' none)
      (fun kind _ => kind = .internalInvariant → KeyRejected sha256 context.provider) False c := by
  unfold reduceCallback
  simp only [↓wp_rules, ↓wp_mapErr]
  refine wp_mono (beginPoll_spec h context.assessmentId c.verificationCase context.observedAt) ?_
    (fun _ _ _ => (by simp)) id
  rintro permit c' ⟨hbegan, -⟩
  refine wp_withPermit ?_
  simp only [↓wp_bind, ↓wp_mapErr]
  refine wp_mono (stageEvents_spec callbackId c.correlationId _ hbegan) (fun _ q hq => ?_)
    (fun kind q hq => dropped_spec hq.1 fun _ _ => hq.2) id
  refine wp_mono (finish_spec hq context.observedAt) ?_ ?_ id
  · rintro receipt r ⟨hfin, -, hcomm⟩
    exact wp_dropPermit_committed hcomm ⟨_, _, hfin⟩
  · rintro e r ⟨hopen, -⟩
    exact dropped_spec (P := fun _ => _ → KeyRejected sha256 context.provider) hopen fun _ _ => (by simp)

/-- The snapshots have the callbacks of the adapter, each with a sound
correlation. -/
structure Snapshots (callbacks : BTreeMap CallbackId OastCorrelation) (reduction : Reduction) :
    Prop where
  keys : ∀ id, id ∈ reduction.snapshots ↔ id ∈ callbacks
  size : reduction.snapshots.size = callbacks.size
  sound : ∀ (id : CallbackId) (c : OastCorrelation), reduction.snapshots[id]? = some c →
    ∃ began receipts, Registered began receipts c none

theorem reduceCallbacks_spec (callbacks : BTreeMap CallbackId OastCorrelation)
    (events : List HttpEventRecord) : ∀ (rest : List (CallbackId × OastCorrelation))
    {reduction : Reduction}, Snapshots callbacks reduction →
    (∀ entry ∈ rest, entry.1 ∈ callbacks ∧ ∃ began receipts, Registered began receipts entry.2 none) →
    wp (reduceCallbacks sha256 context events rest) (fun _ reduction => Snapshots callbacks reduction)
      (fun kind _ => kind = .internalInvariant → KeyRejected sha256 context.provider) False reduction
  | [], _, h, _ => h
  | (callbackId, correlation) :: rest, reduction, h, hrest => by
    obtain ⟨hmem, began, receipts, hregistered⟩ := hrest _ mem_cons_self
    rw [reduceCallbacks, wp_bind, wp_locally]
    refine wp_imp (reduceCallback_spec hregistered events callbackId) fun receipt c' hc' => ?_
    simp only [↓wp_rules]
    refine reduceCallbacks_spec callbacks events rest ⟨fun id => ?_, ?_, fun id c hc => ?_⟩
      fun entry hent => hrest entry (mem_cons_of_mem _ hent)
    · rw [Std.ExtTreeMap.mem_insert, h.keys, Std.LawfulEqOrd.compare_eq_iff_eq]
      exact ⟨fun hid => hid.elim (fun heq => heq ▸ hmem) fun hold => hold, .inr⟩
    · rw [Std.ExtTreeMap.size_insert, if_pos, h.size]
      exact Std.ExtTreeMap.contains_iff_mem.mpr ((h.keys callbackId).mpr hmem)
    · rw [get_insert] at hc
      split at hc
      · cases hc
        exact hc'
      · exact h.sound id c hc

/-- A page is reduced as a whole, or not at all. -/
theorem reducePageAtomically_spec (h : Sound sha256 a) (hopen : a.session.isSome = true)
    (page : PollResponse) (observedAt : Nat) :
    wp (reducePageAtomically sha256 page observedAt)
      (fun _ a' => ∃ callbacks, a' = { a with callbacks } ∧
        ∀ (id : CallbackId) (c : OastCorrelation), callbacks[id]? = some c →
          ∃ began receipts, Registered began receipts c none)
      (fun kind a' => a' = a ∧ (kind = .internalInvariant →
        KeyRejected sha256 a.boundary.permit.providerOriginFingerprint)) False a := by
  unfold reducePageAtomically
  simp only [↓wp_rules, ↓Checked.wp_okOr, ↓wp_locally]
  refine ⟨fun session _ => ?_, fun hnone => by rw [hnone] at hopen; cases hopen⟩
  refine wp_mono (reduceCallbacks_spec a.callbacks page.events a.callbacks.toList
    ⟨fun _ => Iff.rfl, rfl, h.correlations⟩ fun entry hent => ?_) (fun _ reduction hdone => ?_)
    (fun _ _ he => ⟨trivial, he⟩) id
  · obtain ⟨id, c⟩ := entry
    have hget := mem_toList.mp hent
    exact ⟨Std.ExtTreeMap.mem_iff_isSome_getElem?.mpr (by simp [hget]), h.correlations id c hget⟩
  · exact ⟨fun hne => absurd hdone.size hne, fun _ => ⟨_, rfl, hdone.sound⟩⟩

theorem validatePollPage_spec (hopen : a.session.isSome = true) (page : PollResponse) :
    Checked.wp (validatePollPage a page) (fun _ => True) (fun kind => kind ≠ .internalInvariant) := by
  unfold validatePollPage
  simp only [↓Checked.wp_rules]
  refine ⟨fun session _ => ?_, fun hnone => by rw [hnone] at hopen; cases hopen⟩
  refine ⟨fun _ => (by simp), fun _ => ⟨fun _ => (by simp), fun _ => ⟨fun _ => (by simp), fun _ => ⟨fun _ => (by simp),
    fun _ => ⟨fun _ => (by simp), fun _ => ⟨fun _ => (by simp), fun _ => trivial⟩⟩⟩⟩⟩⟩

/-- What a poll that failed left alone. -/
structure PollKept (a a' : NativeOastProviderAdapter) : Prop where
  callbacks : a'.callbacks = a.callbacks
  correlations : a'.correlations = a.correlations
  session : a'.session = a.session
  lifecycle : a'.lifecycle = a.lifecycle

/-- The end of a poll that received its page. -/
theorem Sound.polled (h : Sound sha256 a) (hopen : a.session.isSome = true)
    {callbacks : BTreeMap CallbackId OastCorrelation}
    (hcbs : ∀ (id : CallbackId) (c : OastCorrelation), callbacks[id]? = some c →
      ∃ began receipts, Registered began receipts c none)
    (f : NativeOastProviderSession → NativeOastProviderSession)
    (receipts : List NativeOastProviderReceipt) :
    Sound sha256 { a with
      callbacks, session := a.session.map f, lifecycle := .polling, receipts } :=
  { h with session := (isSome_map).trans hopen, correlations := hcbs }

theorem pollInner_spec (h : Sound sha256 a) (exchange : Exchange PollResponse) (now : Instant) :
    wp (pollInner sha256 exchange now) (fun _ a' => Step sha256 a a')
      (fun e a' => Step sha256 a a' ∧ Blamed sha256 a e ∧ PollKept a a') False a := by
  have hkept : PollKept a a := ⟨rfl, rfl, rfl, rfl⟩
  unfold pollInner refuse
  simp only [↓wp_rules]
  refine ⟨fun _ => ⟨Step.refl h, nofun, hkept⟩, fun hallowed => ⟨fun _ => ⟨Step.refl h, nofun, hkept⟩,
    fun hroom => ?_⟩⟩
  have hallowed : lifecycleAllows a.lifecycle .poll = true := by simpa using hallowed
  have hopen := h.session_of_allows (by decide) hallowed
  refine ⟨fun hnone => by simp [isNone_iff_eq_none.mp hnone] at hopen, fun _ => ?_⟩
  have hattd : Sound sha256
      { a with pollAttempts := saturatingAdd u16Max a.pollAttempts 1 } := by
    refine { h with pollAttempts := ?_ }
    show min (a.pollAttempts + 1) u16Max ≤ a.boundary.permit.limits.maxPolls
    omega
  refine wp_mono (request_spec hattd.balanced hattd.free .poll a.lifecycle exchange) ?_ ?_ id
  · rintro ⟨page, accounting⟩ a' hreq
    obtain ⟨boundary, receipts, htrac, hfree, rfl⟩ := hreq.exists
    have hdone := hattd.requested_other htrac hfree receipts (by decide) (by decide)
    have hrej : ∀ receipt, Step sha256 a { a with
        pollAttempts := saturatingAdd u16Max a.pollAttempts 1, boundary, receipts := receipt } :=
      fun receipt => ⟨hdone.receipts receipt, htrac.toSame, le_rfl⟩
    have hpage := validatePollPage_spec (a := { a with
        pollAttempts := saturatingAdd u16Max a.pollAttempts 1, boundary, receipts }) hopen page
    split
    · rename_i kind hkind
      rw [hkind] at hpage
      unfold rejectPage recordReceipt
      simp only [↓wp_rules]
      exact ⟨hrej _, fun hint => absurd hint hpage, rfl, rfl, rfl, rfl⟩
    · simp only [↓wp_rules, ↓wp_attempt]
      refine wp_mono (reducePageAtomically_spec hdone hopen page _) ?_ ?_ id
      · rintro correlationReceipts _ ⟨callbacks, rfl, hcbs⟩
        unfold recordReceipt
        simp only [↓wp_rules]
        refine ⟨hdone.polled hopen hcbs _ _, htrac.toSame, ?_⟩
        cases hlife : a.lifecycle <;>
          simp_all [lifecycleAllows, NativeOastProviderLifecycle.rank]
      · rintro kind _ ⟨rfl, hkey⟩
        unfold rejectPage recordReceipt
        simp only [↓wp_rules]
        refine ⟨hrej _, fun hint => ?_, rfl, rfl, rfl, rfl⟩
        have := hkey hint
        rwa [htrac.fingerprint] at this
  · rintro e a' ⟨hkind, hreq⟩
    obtain ⟨boundary, receipts, htrac, hfree, rfl⟩ := hreq.exists
    exact ⟨⟨hattd.requested_other htrac hfree receipts (by decide) (by decide),
      htrac.toSame, le_rfl⟩, fun hint => absurd hint hkind, rfl, rfl, rfl, rfl⟩

/-! ### Runs -/

/-- A session that is closed is gone. -/
theorem Sound.closed (h : Sound sha256 a) (htrac : Traced .cleanup a.boundary boundary)
    (hfree : boundary.permit.activeLease = none)
    (hfirst : a.cleanupAttempted = false) (receipts : List NativeOastProviderReceipt) :
    Sound sha256 { a with
      boundary, receipts, cleanupAttempted := true, lifecycle := .closed, session := none } where
  balanced := htrac.balanced
  free := hfree
  session := rfl
  registrations := by rw [htrac.admitted_eq (by decide)]; exact h.registrations
  cleanups := by
    have hnone := h.cleanups
    have hcnt := htrac.admitted_le
    rw [hfirst] at hnone
    simp only [Bool.toNat_false, Bool.toNat_true] at hnone ⊢
    omega
  callbackAttempts := by rw [htrac.limits]; exact h.callbackAttempts
  pollAttempts := by rw [htrac.limits]; exact h.pollAttempts
  reserved := h.reserved
  correlations := h.correlations

theorem cleanupInner_spec (h : Sound sha256 a) (exchange : Exchange Bool) :
    wp (cleanupInner exchange) (fun _ a' => Step sha256 a a')
      (fun e a' => Step sha256 a a' ∧ Blamed sha256 a e) False a := by
  unfold cleanupInner refuse onBoundary
  simp only [↓wp_rules, ↓wp_attempt, ↓wp_zoom]
  refine ⟨fun _ => ⟨Step.refl h, (by rintro ⟨⟩)⟩, fun hallowed => ?_⟩
  obtain ⟨hallowed, hfirst⟩ : lifecycleAllows a.lifecycle .cleanup = true ∧
      a.cleanupAttempted = false := by simpa using hallowed
  have hopen := h.session_of_allows (by decide) hallowed
  have hrank : a.lifecycle.rank ≤ NativeOastProviderLifecycle.closed.rank := by
    cases a.lifecycle <;> decide
  refine ⟨fun hnone => by simp [isNone_iff_eq_none.mp hnone] at hopen, fun _ => ?_⟩
  refine wp_mono (dispatchWire_spec h.balanced h.free .cleanup exchange) ?_ ?_ id
  · rintro ⟨verified, accounting⟩ b htrac
    refine wp_mono (settle_spec (a := { a with
      boundary := b, cleanupAttempted := true, lifecycle := .closed, session := none }) htrac
      .completed exchange.elapsedMs) ?_ (fun _ _ he => he.elim) id
    rintro _ a' ⟨hsett, hfree, hrest⟩
    have hclosed := fun receipts => h.closed hsett hfree hfirst receipts
    unfold recordReceipt
    simp only [↓wp_rules]
    rw [hrest]
    exact ⟨fun _ => ⟨hclosed _, hsett.toSame, hrank⟩,
      fun _ => ⟨⟨hclosed _, hsett.toSame, hrank⟩, (by rintro ⟨⟩)⟩⟩
  · intro error b htrac
    refine wp_mono (clientFailure_spec (a := { a with
      boundary := b, cleanupAttempted := true, lifecycle := .closed, session := none }) htrac
      a.lifecycle exchange.elapsedMs error) (fun _ _ he => he.elim) ?_ id
    rintro e a' ⟨hkind, hsett, hfree, hrest⟩
    rw [hrest]
    exact ⟨⟨h.closed hsett hfree hfirst _, hsett.toSame, hrank⟩,
      fun hint => absurd hint hkind⟩

/-- The failures that are kept are not looked at. -/
theorem wp_observed {ok : α → NativeOastProviderAdapter → Prop}
    {err : NativeOastProviderError → NativeOastProviderAdapter → Prop} {x : AdapterCommand α}
    (operation : NativeOastProviderOperation)
    (h : wp x ok (fun e a' => ∀ firstProviderFailure cleanupFailure,
      err e { a' with firstProviderFailure, cleanupFailure }) False a) :
    wp (observed operation x) ok err False a := by
  unfold observed
  simp only [↓wp_tryCatch, ↓wp_rules]
  refine wp_mono h (fun _ _ hok => hok) (fun e a' herr => ?_) id
  split
  · exact herr a'.firstProviderFailure _
  · exact herr _ a'.cleanupFailure

theorem Step.noted (h : Step sha256 a a')
    (firstProviderFailure cleanupFailure : Option NativeOastProviderErrorKind) :
    Step sha256 a { a' with firstProviderFailure, cleanupFailure } :=
  ⟨{ h.sound with }, h.same, h.rank⟩

theorem mint_sound {parse : String → Option Url}
    {client : Option (NativeOastClientErrorKind × Option NativeOastHttpFailure)}
    {configuration : NativeOastProviderConfiguration} {targetOrigin : String} {broker : Accounting}
    {parentBudget : RuntimeBudget} {cancelled : Bool} {parentDeadline : Option Instant}
    {now clockOrigin : Instant}
    (hmint : mint sha256 parse client configuration targetOrigin broker parentBudget cancelled
      parentDeadline now clockOrigin = .ok a) :
    Sound sha256 a ∧ a.boundary.permit.limits = configuration.limits := by
  have hspec : Checked.wp (mint sha256 parse client configuration targetOrigin broker parentBudget
      cancelled parentDeadline now clockOrigin)
      (fun a => Sound sha256 a ∧ a.boundary.permit.limits = configuration.limits)
      (fun _ => True) := by
    unfold mint mintPermit
    cases client with
    | some failure => trivial
    | none =>
      simp only [↓Checked.wp_rules]
      refine ⟨fun limits _ => ⟨fun url _ => ⟨fun _ => trivial, fun _ => ?_⟩, fun _ => trivial⟩,
        fun _ => trivial⟩
      refine Checked.wp_of_forall (fun target => ⟨fun _ => trivial, fun _ => ?_⟩) fun _ => trivial
      refine Checked.wp_of_forall (fun _ => ⟨fun _ => trivial, fun _ => ⟨fun _ => trivial, fun _ => ?_⟩⟩)
        fun _ => trivial
      refine ⟨⟨⟨rfl, rfl, Nat.zero_le _, Nat.zero_le _, (by simp)⟩, rfl, rfl, Nat.zero_le _, Nat.zero_le _,
        Nat.zero_le _, Nat.zero_le _, ⟨[], ⟨rfl, rfl, Nat.zero_le _, [], nodup_nil, (by simp), .nil⟩⟩,
        fun id c hc => ?_⟩, trivial⟩
      simp at hc
  rw [hmint] at hspec
  exact hspec

def sampleUrl (host : String) : Url where
  text := "https://" ++ host ++ "/"
  scheme := "https"
  host := some (.domain host)
  port := some 443
  path := "/"
  query := none
  fragment := none
  username := ""
  password := none

/-- `Url::parse` of the two origins of the sample. -/
def sampleParse (source : String) : Option Url :=
  if source = "https://oast/" then some (sampleUrl "oast")
  else if source = "https://target/" then some (sampleUrl "target") else none

/-- A request whose response comes in one chunk. -/
def sampleExchange {α : Type} (value : α) : Exchange α where
  requestBytes := 100
  requestBodyBytes := 10
  now := 2
  body := [.chunk 64]
  parsed := .ok value
  elapsedMs := 1

def sampleSessionId : Oast.SessionId := ⟨"AQEBAQEBAQEBAQEBAQEBAQ", by decide +kernel⟩

def sampleCallbackId : CallbackId := ⟨"AgICAgICAgICAgICAgICAg", by decide +kernel⟩

end Termivar.NativeOast
