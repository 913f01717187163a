/-
# A plugin invocation stays within its budget and keeps its first failure

Over every order of the steps of the calls in flight, of abandoned requests,
of cancellation and of the end of the invocation: what is reserved is what the
requests in flight hold, committed and reserved bytes stay within the budget,
and the invocation succeeds only if every call of the plugin did.
-/
import Termivar.Plugin.Context

namespace Termivar.Plugin

open Command List

/-! ### Under the lock -/

/-- The counters of a context within its budget. -/
structure Within (context : PluginContext) (s : PluginContextState) : Prop where
  requests : s.requests ≤ context.budget.maxRequests
  bodies : s.responseBodyBytes + s.reservedResponseBodyBytes ≤ context.budget.maxCumulativeBodyBytes
  observations : s.observations.length ≤ context.budget.maxObservations
  observationBytes : s.observationBytes ≤ context.budget.maxObservationBytes

/-- What a hold of the lock leaves: `freed` bytes of the reservation of the
call are given back and `taken` are reserved, and a failure stays. -/
structure Moved (context : PluginContext) (freed taken : Nat) (s s' : PluginContextState) : Prop where
  within : Within context s'
  reserved : s'.reservedResponseBodyBytes + freed = s.reservedResponseBodyBytes + taken
  sticky : ∀ error, s.failure = some error → s'.failure = some error
  sealing : s'.isSealed = s.isSealed

variable {context : PluginContext} {s s' : PluginContextState}

theorem Moved.refl (h : Within context s) : Moved context 0 0 s s := ⟨h, rfl, fun _ he => he, rfl⟩

/-- A failure over none. -/
theorem Moved.failed (h : Within context s) (hnone : s.failure = none) (error : PluginError) :
    Moved context 0 0 s { s with failure := some error } :=
  ⟨{ h with }, rfl,
    fun _ he => absurd he (by simp [hnone]), rfl⟩

theorem wp_failWith {α : Type} {ok : α → PluginContextState → Prop}
    {err : PluginError → PluginContextState → Prop} {pan : Prop} (error : PluginError) :
    wp (failWith error : StateCommand α) ok err pan s ↔ err error { s with failure := some error } :=
  Iff.rfl

theorem ensureStateActive_spec (s : PluginContextState) :
    Checked.wp (ensureStateActive s) (fun _ => s.isSealed = false ∧ s.failure = none)
      (fun _ => s.isSealed = true ∨ s.failure.isSome = true) := by
  unfold ensureStateActive
  simp only [↓Checked.wp_rules]
  refine ⟨fun hsealed => .inl hsealed, fun hopen => ?_⟩
  cases hfail : s.failure with
  | none => exact ⟨by simpa using hopen, rfl⟩
  | some error => exact .inr rfl

/-- A failed hold of the lock leaves a failure behind, or was cancelled. -/
structure Spoiling (context : PluginContext) (cancelled : Bool) (s s' : PluginContextState) : Prop where
  moved : Moved context 0 0 s s'
  spoiled : s'.failure.isSome = true ∨ cancelled = true

variable {cancelled : Bool} {now captureLimit : Nat}

theorem Spoiling.failed (cancelled : Bool) (h : Within context s) (hnone : s.failure = none)
    (error : PluginError) :
    Spoiling context cancelled s { s with failure := some error } :=
  ⟨Moved.failed h hnone error, .inl rfl⟩

/-- The check of the state fails only where a failure is there already. -/
theorem Spoiling.refl (h : Within context s) (hopen : s.isSealed = false)
    (hspoiled : s.isSealed = true ∨ s.failure.isSome = true) : Spoiling context cancelled s s :=
  ⟨Moved.refl h, hspoiled.elim (fun hsealed => by rw [hopen] at hsealed; cases hsealed) .inl⟩

theorem reserve_spec (h : Within context s) (hopen : s.isSealed = false) (cancelled : Bool)
    (now : Nat) :
    wp (reserve context cancelled now) (fun captureLimit s' => Moved context 0 captureLimit s s')
      (fun _ s' => Spoiling context cancelled s s') False s := by
  unfold reserve
  simp only [↓wp_rules, ↓wp_failWith]
  refine Checked.wp_mono (ensureStateActive_spec s) ?_ fun _ hspoiled => Spoiling.refl h hopen hspoiled
  rintro _ ⟨-, hnone⟩
  have hfailed := fun error => Spoiling.failed cancelled h hnone error
  refine ⟨fun hcanc => ⟨Moved.refl h, .inr hcanc⟩, fun _ => ⟨fun _ => hfailed _, fun _ =>
    ⟨fun _ => hfailed _, fun hroom => ?_⟩⟩⟩
  have hbodies := h.bodies
  cases hsum : checkedAdd u64Max s.responseBodyBytes s.reservedResponseBodyBytes with
  | none => exact hfailed _
  | some committedAndReserved =>
    obtain ⟨-, rfl⟩ := checkedAdd_eq_some.mp hsum
    simp only [↓wp_rules, ↓wp_failWith]
    refine ⟨fun _ => hfailed _, fun hleft => ⟨fun _ => hfailed _, fun _ => ?_⟩⟩
    cases hnext : checkedAdd u64Max s.reservedResponseBodyBytes
        (min context.budget.maxResponseBodyBytes (context.budget.maxCumulativeBodyBytes -
          (s.responseBodyBytes + s.reservedResponseBodyBytes))) with
    | none =>
      refine ⟨⟨{ h with requests := ?_ }, rfl, ?_, rfl⟩, .inl rfl⟩
      · show s.requests + 1 ≤ _
        omega
      · intro error he
        rw [hnone] at he
        cases he
    | some reserved =>
      obtain ⟨-, rfl⟩ := checkedAdd_eq_some.mp hnext
      simp only [↓wp_rules]
      refine ⟨⟨?_, ?_, h.observations, h.observationBytes⟩, rfl, fun _ he => he, rfl⟩
      · show s.requests + 1 ≤ _
        omega
      · show s.responseBodyBytes + (s.reservedResponseBodyBytes + _) ≤ _
        omega

theorem commit_spec (h : Within context s) (hopen : s.isSealed = false) {delivered : Nat}
    (hheld : captureLimit ≤ s.reservedResponseBodyBytes) (hdel : delivered ≤ captureLimit)
    (cancelled : Bool) (now : Nat) :
    wp (commit context captureLimit delivered cancelled now)
      (fun _ s' => Moved context captureLimit 0 s s')
      (fun _ s' => Spoiling context cancelled s s') False s := by
  unfold commit
  simp only [↓wp_rules, ↓wp_failWith]
  refine Checked.wp_mono (ensureStateActive_spec s) ?_ fun _ hspoiled => Spoiling.refl h hopen hspoiled
  rintro _ ⟨-, hnone⟩
  have hfailed := fun error => Spoiling.failed cancelled h hnone error
  have hbodies := h.bodies
  refine ⟨fun _ => hfailed _, fun _ => ⟨fun hcanc => ⟨Moved.refl h, .inr hcanc⟩, fun _ =>
    ⟨fun _ => hfailed _, fun _ => ?_⟩⟩⟩
  cases hsum : checkedAdd u64Max s.responseBodyBytes delivered with
  | none => exact hfailed _
  | some cumulative =>
    obtain ⟨-, rfl⟩ := checkedAdd_eq_some.mp hsum
    simp only [↓wp_rules, ↓wp_failWith]
    refine ⟨fun _ => hfailed _, fun _ => ⟨{ h with bodies := ?_ }, ?_,
      fun _ he => he, rfl⟩⟩
    · show s.responseBodyBytes + delivered + (s.reservedResponseBodyBytes - captureLimit) ≤ _
      omega
    · show s.reservedResponseBodyBytes - captureLimit + captureLimit = s.reservedResponseBodyBytes + 0
      omega

theorem recordEvidence_spec (h : Within context s) (hopen : s.isSealed = false) (evidence : Evidence)
    (chargedBytes : Nat) (cancelled : Bool) :
    wp (recordEvidence context evidence chargedBytes) (fun _ s' => Moved context 0 0 s s')
      (fun _ s' => Spoiling context cancelled s s') False s := by
  unfold recordEvidence
  simp only [↓wp_rules, ↓wp_failWith]
  refine Checked.wp_mono (ensureStateActive_spec s) ?_ fun _ hspoiled => Spoiling.refl h hopen hspoiled
  rintro _ ⟨-, hnone⟩
  have hfailed := fun error => Spoiling.failed cancelled h hnone error
  refine ⟨fun _ => hfailed _, fun hroom => ?_⟩
  cases hsum : checkedAdd u64Max s.observationBytes chargedBytes with
  | none => exact hfailed _
  | some nextBytes =>
    simp only [↓wp_rules, ↓wp_failWith]
    refine ⟨fun _ => hfailed _, fun hbs => ⟨⟨h.requests, h.bodies, ?_, ?_⟩, rfl, fun _ he => he,
      rfl⟩⟩
    · simp only [length_append, length_singleton]
      omega
    · show nextBytes ≤ _
      omega

theorem moved_latch (h : Within context s) (error : PluginError) :
    Moved context 0 0 s (latch error s) ∧ (latch error s).failure.isSome = true := by
  unfold latch
  refine ⟨⟨{ h with }, rfl, fun e he => ?_, rfl⟩, ?_⟩
  · simp [he]
  · cases s.failure <;> rfl

theorem moved_release (h : Within context s) (hopen : s.isSealed = false)
    (hheld : captureLimit ≤ s.reservedResponseBodyBytes) :
    Moved context captureLimit 0 s (release captureLimit s) ∧
      (release captureLimit s).failure.isSome = true := by
  have hbodies := h.bodies
  have hst : Moved context captureLimit 0 s { s with
      reservedResponseBodyBytes := s.reservedResponseBodyBytes - captureLimit } := by
    refine ⟨{ h with bodies := ?_ }, ?_, fun _ he => he, rfl⟩
    · show s.responseBodyBytes + (s.reservedResponseBodyBytes - captureLimit) ≤ _
      omega
    · show s.reservedResponseBodyBytes - captureLimit + captureLimit = s.reservedResponseBodyBytes + 0
      omega
  have hroom : ¬ s.reservedResponseBodyBytes < captureLimit := by omega
  unfold release
  simp only [if_neg hroom, hopen, Bool.not_false, Bool.true_and]
  cases hfail : s.failure with
  | none =>
    simp only [Option.isNone_none, if_true]
    refine ⟨⟨{ hst.within with }, hst.reserved, fun e he => ?_, hopen.symm⟩, rfl⟩
    rw [hfail] at he
    cases he
  | some error =>
    rw [hopen, hfail] at hst
    exact ⟨hst, rfl⟩

/-! ### The invocation -/

/-- A failure is latched, or the host has cancelled. -/
def Invocation.Spoiled (inv : Invocation) : Prop :=
  inv.state.failure.isSome = true ∨ inv.cancelled = true

/-- What a call in flight has checked. -/
def FlightOK (context : PluginContext) (spoiled : Prop) : Flight → Prop
  | .requestReserving url => inScope context.authorizedOrigin url = true
  | .requestDispatching _ url => inScope context.authorizedOrigin url = true
  | .committing captureLimit response =>
    inScope context.authorizedOrigin response.finalUrl = true ∧
      response.deliveredBodyBytes ≤ captureLimit
  | .releasing _ _ => spoiled
  | _ => True

/-- What a call may return. -/
def ReplyOK (context : PluginContext) (spoiled : Prop) : Except PluginError PluginReply → Prop
  | .ok .recorded => True
  | .ok (.responded response) => inScope context.authorizedOrigin response.finalUrl = true
  | .error _ => spoiled

/-- What holds after every step. -/
structure Accounted (inv : Invocation) : Prop where
  within : Within inv.context inv.state
  reserved : inv.state.reservedResponseBodyBytes = (inv.flights.map Flight.held).sum
  flights : ∀ flight ∈ inv.flights, FlightOK inv.context inv.Spoiled flight
  handed : ∀ url ∈ inv.handed, inScope inv.context.authorizedOrigin url = true
  returned : ∀ reply ∈ inv.returned, ReplyOK inv.context inv.Spoiled reply
  abandoned : 0 < inv.abandoned → inv.Spoiled
  opened : inv.result = none → inv.state.isSealed = false
  succeeded : ∀ result, inv.result = some (.ok result) → ¬ inv.Spoiled

/-- What no step takes back. -/
structure Later (inv inv' : Invocation) : Prop where
  context : inv'.context = inv.context
  sticky : ∀ error, inv.state.failure = some error → inv'.state.failure = some error
  cancelled : inv.cancelled = true → inv'.cancelled = true
  returned : ∀ reply ∈ inv.returned, reply ∈ inv'.returned
  abandoned : inv.abandoned ≤ inv'.abandoned

variable {inv inv' inv'' : Invocation}

theorem Later.refl (inv : Invocation) : Later inv inv :=
  ⟨rfl, fun _ he => he, fun hc => hc, fun _ hr => hr, le_rfl⟩

theorem Later.trans (h : Later inv inv') (h' : Later inv' inv'') : Later inv inv'' :=
  ⟨h'.context.trans h.context, fun _ he => h'.sticky _ (h.sticky _ he),
    fun hc => h'.cancelled (h.cancelled hc), fun _ hr => h'.returned _ (h.returned _ hr),
    h.abandoned.trans h'.abandoned⟩

theorem Later.spoiled (h : Later inv inv') (hs : inv.Spoiled) : inv'.Spoiled := by
  rcases hs with hfail | hcanc
  · obtain ⟨error, he⟩ := Option.isSome_iff_exists.mp hfail
    exact .inl (by simp [h.sticky error he])
  · exact .inr (h.cancelled hcanc)

variable {flight : Flight}

theorem FlightOK.mono {p q : Prop} (hpq : p → q) (h : FlightOK context p flight) :
    FlightOK context q flight := by
  cases flight with
  | releasing captureLimit error => exact hpq h
  | _ => exact h

theorem ReplyOK.mono {p q : Prop} (hpq : p → q) {reply : Except PluginError PluginReply}
    (h : ReplyOK context p reply) : ReplyOK context q reply := by
  cases reply with
  | error e => exact hpq h
  | ok value => cases value <;> exact h

/-- The other calls hold what is not held by the call. -/
theorem held_erase {flights : List Flight} {index : Nat} (h : flights[index]? = some flight) :
    ((flights.eraseIdx index).map Flight.held).sum + flight.held = (flights.map Flight.held).sum := by
  obtain ⟨hlt, rfl⟩ := List.getElem?_eq_some_iff.mp h
  have hperm := (List.getElem_cons_eraseIdx_perm hlt).map Flight.held
  rw [← hperm.sum_eq, List.map_cons, List.sum_cons]
  omega

theorem held_set {flights : List Flight} {index : Nat} (next : Flight)
    (h : flights[index]? = some flight) :
    ((flights.set index next).map Flight.held).sum + flight.held =
      (flights.map Flight.held).sum + next.held := by
  obtain ⟨hlt, -⟩ := List.getElem?_eq_some_iff.mp h
  have hperm := (List.set_perm_cons_eraseIdx hlt next).map Flight.held
  have herase := held_erase h
  rw [hperm.sum_eq, List.map_cons, List.sum_cons]
  omega

theorem Accounted.held_le (h : Accounted inv) (hmem : flight ∈ inv.flights) :
    flight.held ≤ inv.state.reservedResponseBodyBytes := by
  rw [h.reserved]
  exact single_le_sum (fun _ _ => Nat.zero_le _) _ (mem_map_of_mem hmem)

/-- The call goes on, after a hold of the lock. -/
theorem Accounted.replace (h : Accounted inv) (hrunning : inv.result = none) {index : Nat}
    (hfl : inv.flights[index]? = some flight) (next : Flight)
    {state : PluginContextState}
    (hmv : Moved inv.context flight.held next.held inv.state state)
    (hnext : FlightOK inv.context (state.failure.isSome = true ∨ inv.cancelled = true) next) :
    Accounted ({ inv with state }.replace index next) ∧
      Later inv ({ inv with state }.replace index next) := by
  have hlat : Later inv ({ inv with state }.replace index next) :=
    ⟨rfl, hmv.sticky, fun hc => hc, fun _ hr => hr, le_rfl⟩
  refine ⟨⟨hmv.within, ?_, ?_, h.handed, fun reply hrep => ?_, ?_, ?_, ?_⟩, hlat⟩
  · have hheld := held_set next hfl
    have hrsv := h.reserved
    have hmove := hmv.reserved
    show state.reservedResponseBodyBytes = ((inv.flights.set index next).map Flight.held).sum
    omega
  · intro other hoth
    rcases mem_or_eq_of_mem_set hoth with hold | rfl
    · exact (h.flights other hold).mono hlat.spoiled
    · exact hnext
  · exact (h.returned reply hrep).mono hlat.spoiled
  · exact fun hpos => hlat.spoiled (h.abandoned hpos)
  · exact fun _ => hmv.sealing.trans (h.opened hrunning)
  · intro result hres
    have : inv.result = some (.ok result) := hres
    rw [hrunning] at this
    cases this

/-- The call returns, after a hold of the lock. -/
theorem Accounted.ret (h : Accounted inv) (hrunning : inv.result = none) {index : Nat}
    (hfl : inv.flights[index]? = some flight)
    (reply : Except PluginError PluginReply) {state : PluginContextState}
    (hmv : Moved inv.context flight.held 0 inv.state state)
    (hrep : ReplyOK inv.context (state.failure.isSome = true ∨ inv.cancelled = true) reply) :
    Accounted ({ inv with state }.ret index reply) ∧
      Later inv ({ inv with state }.ret index reply) := by
  have hlat : Later inv ({ inv with state }.ret index reply) :=
    ⟨rfl, hmv.sticky, fun hc => hc, fun _ hr => mem_append_left _ hr, le_rfl⟩
  refine ⟨⟨hmv.within, ?_, fun other hoth => ?_, h.handed, fun other hoth => ?_, ?_, ?_, ?_⟩, hlat⟩
  · have hheld := held_erase hfl
    have hrsv := h.reserved
    have hmove := hmv.reserved
    show state.reservedResponseBodyBytes = ((inv.flights.eraseIdx index).map Flight.held).sum
    omega
  · exact (h.flights other (mem_of_mem_eraseIdx hoth)).mono hlat.spoiled
  · rcases mem_append.mp hoth with hold | hlast
    · exact (h.returned other hold).mono hlat.spoiled
    · rw [mem_singleton.mp hlast]
      exact hrep
  · exact fun hpos => hlat.spoiled (h.abandoned hpos)
  · exact fun _ => hmv.sealing.trans (h.opened hrunning)
  · intro result hres
    have : inv.result = some (.ok result) := hres
    rw [hrunning] at this
    cases this

/-- The call goes on and leaves the state alone. -/
theorem Accounted.goOn (h : Accounted inv) (hrunning : inv.result = none) {index : Nat}
    (hfl : inv.flights[index]? = some flight) (next : Flight)
    (hheld : next.held = flight.held) (hnext : FlightOK inv.context inv.Spoiled next) :
    Accounted (inv.replace index next) ∧ Later inv (inv.replace index next) :=
  h.replace hrunning hfl next ⟨h.within, by rw [hheld], fun _ he => he, rfl⟩ hnext

/-- An identifier is not blank. -/
theorem PluginIdentifier.notBlank {max : Nat} (id : PluginIdentifier max) :
    isBlank id.value = false := by
  have hvalid := id.valid
  unfold isPluginIdentifier at hvalid
  simp only [Bool.and_eq_true, decide_eq_true_eq, all_eq_true] at hvalid
  obtain ⟨⟨hne, -⟩, hall⟩ := hvalid
  by_contra hblk
  rw [Bool.not_eq_false, isBlank, all_eq_true] at hblk
  cases hchr : id.value.toList with
  | nil => exact hne (String.toList_inj.mp (by rw [hchr]; rfl))
  | cons c cs =>
    have hmem : c ∈ id.value.toList := by rw [hchr]; exact mem_cons_self
    have hspace := hblk c hmem
    have hletter := hall c hmem
    have hcode : (48 ≤ c.toNat ∧ c.toNat ≤ 57) ∨ (65 ≤ c.toNat ∧ c.toNat ≤ 90) ∨
        (97 ≤ c.toNat ∧ c.toNat ≤ 122) ∨ c.toNat = 46 ∨ c.toNat = 45 ∨ c.toNat = 95 ∨
        c.toNat = 58 ∨ c.toNat = 47 := by
      simp only [Char.isAlphanum, Char.isAlpha, Char.isUpper, Char.isLower, Char.isDigit,
        Bool.or_eq_true, Bool.and_eq_true, decide_eq_true_eq, ge_iff_le, UInt32.le_iff_toNat_le]
        at hletter
      rcases hletter with ((((hletter | rfl) | rfl) | rfl) | rfl) | rfl
      · rcases hletter with (h | h) | h <;> simp at h <;> omega
      all_goals decide
    unfold isWhitespace at hspace
    simp only [Bool.or_eq_true, Bool.and_eq_true, decide_eq_true_eq] at hspace
    omega

theorem evidenceSource_isSome (context : PluginContext) (observation : PluginObservation) :
    evidenceSource context.pluginId.value observation.method.value context.caseId.value ≠ none := by
  unfold evidenceSource
  rw [dif_pos ⟨context.pluginId.notBlank, observation.method.notBlank, context.caseId.notBlank⟩]
  nofun

section Advance

variable {index : Nat} (h : Accounted inv) (hrunning : inv.result = none)
include h hrunning

theorem redacted_accounted {observation : PluginObservation}
    (hfl : inv.flights[index]? = some (.recordRedacting observation)) (evidenceId : EvidenceId)
    (observedAtMs : Nat) :
    Accounted (inv.redacted index observation evidenceId observedAtMs) ∧
      Later inv (inv.redacted index observation evidenceId observedAtMs) := by
  simp only [Invocation.redacted]
  split
  · exact h.goOn hrunning hfl _ rfl trivial
  · split
    · exact h.goOn hrunning hfl _ rfl trivial
    · split
      · rename_i hnone
        exact absurd hnone (evidenceSource_isSome inv.context observation)
      · exact h.goOn hrunning hfl _ rfl trivial

theorem arrived_accounted {captureLimit : Nat}
    (hfl : inv.flights[index]? = some (.awaiting captureLimit)) (now : Nat)
    (arrival : BrokerArrival) :
    Accounted (inv.arrived index captureLimit now arrival) ∧
      Later inv (inv.arrived index captureLimit now arrival) := by
  cases arrival with
  | cancelled =>
    simp only [Invocation.arrived]
    split
    · exact h.goOn hrunning hfl _ rfl trivial
    · exact ⟨h, Later.refl inv⟩
  | slept => exact h.goOn hrunning hfl _ rfl trivial
  | failed error => exact h.goOn hrunning hfl _ rfl trivial
  | responded response =>
    simp only [Invocation.arrived]
    split
    · exact h.goOn hrunning hfl _ rfl trivial
    · rename_i hsc
      split
      · exact h.goOn hrunning hfl _ rfl trivial
      · refine h.goOn hrunning hfl _ rfl ⟨by simpa using hsc, by omega⟩

theorem advance_accounted {flight : Flight} (hfl : inv.flights[index]? = some flight) (now : Nat)
    (arrival : BrokerArrival) (evidenceId : EvidenceId) (observedAtMs : Nat) :
    Accounted (inv.advance index now arrival evidenceId observedAtMs flight) ∧
      Later inv (inv.advance index now arrival evidenceId observedAtMs flight) := by
  have hopen := h.opened hrunning
  have hmem : flight ∈ inv.flights := mem_of_getElem? hfl
  have hheld := h.held_le hmem
  have hchec := h.flights flight hmem
  cases flight with
  | latching error =>
    obtain ⟨hmv, hsome⟩ := moved_latch h.within error
    exact h.ret hrunning hfl _ hmv (.inl hsome)
  | recordChecking observation =>
    have hact := ensureStateActive_spec inv.state
    simp only [Invocation.advance]
    split
    · rename_i error herr
      rw [herr] at hact
      exact h.ret hrunning hfl _ (Moved.refl h.within) (Spoiling.refl h.within hopen hact).spoiled
    · exact h.goOn hrunning hfl _ rfl trivial
  | recordRedacting observation =>
    exact redacted_accounted h hrunning hfl evidenceId observedAtMs
  | recordCommitting evidence chargedBytes =>
    have hspec := recordEvidence_spec h.within hopen evidence chargedBytes inv.cancelled
    simp only [Invocation.advance]
    unfold wp at hspec
    split <;> rename_i heq <;> rw [heq] at hspec
    · exact h.ret hrunning hfl _ hspec trivial
    · exact h.ret hrunning hfl _ hspec.moved hspec.spoiled
    · exact hspec.elim
  | requestReserving url =>
    have hspec := reserve_spec h.within hopen inv.cancelled now
    simp only [Invocation.advance]
    unfold wp at hspec
    split <;> rename_i heq <;> rw [heq] at hspec
    · exact h.replace hrunning hfl _ hspec hchec
    · exact h.ret hrunning hfl _ hspec.moved hspec.spoiled
    · exact hspec.elim
  | requestDispatching captureLimit url =>
    simp only [Invocation.advance]
    split
    · exact h.goOn hrunning hfl _ rfl trivial
    · split
      · exact h.goOn hrunning hfl _ rfl trivial
      · obtain ⟨hnext, hlat⟩ := h.goOn hrunning hfl (.awaiting captureLimit) rfl trivial
        refine ⟨{ hnext with handed := fun other hoth => ?_ }, hlat.context, hlat.sticky,
          hlat.cancelled, hlat.returned, hlat.abandoned⟩
        rcases mem_append.mp hoth with hold | hlast
        · exact h.handed other hold
        · rw [mem_singleton.mp hlast]
          exact hchec
  | awaiting captureLimit => exact arrived_accounted h hrunning hfl now arrival
  | committing captureLimit response =>
    have hheld : captureLimit ≤ inv.state.reservedResponseBodyBytes := hheld
    have hspec := commit_spec h.within hopen hheld hchec.2 inv.cancelled now
    simp only [Invocation.advance]
    unfold wp at hspec
    split <;> rename_i heq <;> rw [heq] at hspec
    · exact h.ret hrunning hfl _ hspec hchec.1
    · refine h.replace hrunning hfl _ { hspec.moved with reserved := ?_ } hspec.spoiled
      have hrsv := hspec.moved.reserved
      simp only [Flight.held]
      omega
    · exact hspec.elim
  | latchingHeld captureLimit error =>
    obtain ⟨hmv, hsome⟩ := moved_latch h.within error
    exact h.replace hrunning hfl (.releasing captureLimit error) { hmv with reserved := rfl } (.inl hsome)
  | releasing captureLimit error =>
    obtain ⟨hmv, hsome⟩ := moved_release h.within hopen hheld
    exact h.ret hrunning hfl _ hmv (.inl hsome)

end Advance

/-- A request is dropped. -/
theorem Accounted.dropped (h : Accounted inv) (hrunning : inv.result = none) {index : Nat}
    (hfl : inv.flights[index]? = some flight) :
    Accounted { inv.remove index with
      state := release flight.held inv.state, abandoned := inv.abandoned + 1 } ∧
    Later inv { inv.remove index with
      state := release flight.held inv.state, abandoned := inv.abandoned + 1 } := by
  obtain ⟨hmv, hsome⟩ := moved_release h.within (h.opened hrunning)
    (h.held_le (mem_of_getElem? hfl))
  obtain ⟨hret, hlat⟩ := h.ret hrunning hfl (.error .requestAbandoned) hmv (.inl hsome)
  refine ⟨{ hret with handed := h.handed, returned := fun reply hrep => ?_, abandoned := fun _ => .inl hsome }, hlat.context, hlat.sticky, hlat.cancelled,
    fun _ hr => hr, Nat.le_succ _⟩
  exact hret.returned reply (mem_append_left _ hrep)

theorem abandon_accounted (h : Accounted inv) (hrunning : inv.result = none) {index : Nat}
    (hfl : inv.flights[index]? = some flight) :
    Accounted (inv.abandon index flight) ∧ Later inv (inv.abandon index flight) := by
  cases flight with
  | requestDispatching captureLimit url => exact h.dropped hrunning hfl
  | awaiting captureLimit => exact h.dropped hrunning hfl
  | _ => exact ⟨h, Later.refl inv⟩

/-- A new call holds nothing yet. -/
theorem Accounted.launch (h : Accounted inv) (flight : Flight) (hheld : flight.held = 0)
    (hfl : FlightOK inv.context inv.Spoiled flight) :
    Accounted (inv.launch flight) ∧ Later inv (inv.launch flight) := by
  refine ⟨{ h with reserved := ?_, flights := fun other hoth => ?_ }, rfl, fun _ he => he, fun hc => hc, fun _ hr => hr, le_rfl⟩
  · simp [Invocation.launch, h.reserved, hheld]
  · rcases mem_append.mp hoth with hold | hlast
    · exact h.flights other hold
    · rw [mem_singleton.mp hlast]
      exact hfl

theorem refuse_accounted (h : Accounted inv) (error : PluginError) :
    Accounted (inv.refuse error) ∧ Later inv (inv.refuse error) := by
  have hlat : Later inv (inv.refuse error) :=
    ⟨rfl, fun _ he => he, fun _ => rfl, fun _ hr => hr, le_rfl⟩
  refine ⟨⟨{ h.within with observations := Nat.zero_le _ }, h.reserved,
    fun flight hfl => (h.flights flight hfl).mono hlat.spoiled, h.handed,
    fun reply hrep => (h.returned reply hrep).mono hlat.spoiled, fun _ => .inr rfl, ?_, ?_⟩,
    hlat⟩
  · intro hres
    cases hres
  · intro result hres
    cases hres

theorem conclude_accounted (h : Accounted inv) (dropPanicked : Bool) (now : Nat) :
    Accounted (inv.conclude dropPanicked now) ∧ Later inv (inv.conclude dropPanicked now) := by
  unfold Invocation.conclude
  split
  · exact refuse_accounted h _
  · split
    · exact ⟨h, Later.refl inv⟩
    · exact refuse_accounted h _
    · have hspec : wp (finish inv.context inv.cancelled now)
          (fun _ s' => s' = { inv.state with isSealed := true, observations := [] } ∧ ¬ inv.Spoiled)
          (fun _ s' => s' = inv.state) False inv.state := by
        unfold finish
        simp only [↓wp_rules]
        refine Checked.wp_mono (ensureStateActive_spec inv.state) ?_ fun _ _ => trivial
        rintro _ ⟨-, hnone⟩
        refine ⟨fun _ => trivial, fun hlive => ⟨fun _ => trivial, fun _ => ⟨fun _ => trivial, fun _ =>
          ⟨trivial, ?_⟩⟩⟩⟩
        rintro (hfail | hcanc)
        · rw [hnone] at hfail
          cases hfail
        · exact hlive hcanc
      unfold wp at hspec
      split <;> rename_i heq <;> rw [heq] at hspec
      · obtain ⟨rfl, hcl⟩ := hspec
        refine ⟨{ h with within := { h.within with observations := Nat.zero_le _ }, opened := ?_, succeeded := fun _ _ => hcl }, rfl,
          fun _ he => he, fun hc => hc, fun _ hr => hr, le_rfl⟩
        intro hres
        cases hres
      · obtain rfl := hspec
        exact refuse_accounted h _
      · exact hspec.elim

theorem step_accounted (h : Accounted inv) (action : PluginStep) :
    Accounted (inv.step action) ∧ Later inv (inv.step action) := by
  unfold Invocation.step
  split
  · exact ⟨h, Later.refl inv⟩
  · rename_i hunf
    have hrunning : inv.result = none := by simpa using hunf
    cases action with
    | record observation now =>
      simp only
      split
      · rename_i hcanc
        refine ⟨{ h with returned := fun reply hrep => ?_ }, rfl, fun _ he => he, fun hc => hc, fun _ hr => mem_append_left _ hr, le_rfl⟩
        rcases mem_append.mp hrep with hold | hlast
        · exact h.returned reply hold
        · rw [mem_singleton.mp hlast]
          exact .inr hcanc
      · split
        · exact h.launch _ rfl trivial
        · exact h.launch _ rfl trivial
    | request url =>
      simp only
      split
      · rename_i hsc
        exact h.launch _ rfl hsc
      · exact h.launch _ rfl trivial
    | advance index now arrival evidenceId observedAtMs =>
      simp only
      split
      · exact ⟨h, Later.refl inv⟩
      · rename_i flight hfl
        exact advance_accounted h hrunning hfl now arrival evidenceId observedAtMs
    | abandon index =>
      simp only
      split
      · exact ⟨h, Later.refl inv⟩
      · rename_i flight hfl
        exact abandon_accounted h hrunning hfl
    | cancel =>
      have hlat : Later inv { inv with cancelled := true } :=
        ⟨rfl, fun _ he => he, fun _ => rfl, fun _ hr => hr, le_rfl⟩
      refine ⟨⟨h.within, h.reserved, fun flight hfl => (h.flights flight hfl).mono hlat.spoiled,
        h.handed, fun reply hrep => (h.returned reply hrep).mono hlat.spoiled,
        fun _ => .inr rfl, h.opened, fun result hres => ?_⟩, hlat⟩
      have : inv.result = some (.ok result) := hres
      rw [hrunning] at this
      cases this
    | complete outcome deadline =>
      simp only
      split
      · exact ⟨h, Later.refl inv⟩
      · exact ⟨{ h with }, rfl, fun _ he => he, fun hc => hc, fun _ hr => hr, le_rfl⟩
    | conclude dropPanicked now =>
      simp only
      split
      · exact conclude_accounted h dropPanicked now
      · exact ⟨h, Later.refl inv⟩

theorem run_accounted (actions : List PluginStep) : ∀ {inv : Invocation}, Accounted inv →
    Accounted (inv.run actions) ∧ Later inv (inv.run actions) := by
  induction actions with
  | nil => exact fun h => ⟨h, Later.refl _⟩
  | cons action actions ih =>
    intro inv h
    obtain ⟨hstep, hlat⟩ := step_accounted h action
    obtain ⟨hrun, hmore⟩ := ih hstep
    exact ⟨hrun, hlat.trans hmore⟩

theorem start_accounted {inputBytes later : Nat}
    (hsta : Invocation.start context inputBytes cancelled now later = .ok inv) :
    Accounted inv ∧ inv.context =
      { context with deadline := now + context.budget.maxWallTimeMs } := by
  unfold Invocation.start at hsta
  simp only at hsta
  split_ifs at hsta
  cases hsta
  refine ⟨⟨⟨Nat.zero_le _, Nat.zero_le _, Nat.zero_le _, Nat.zero_le _⟩, rfl, ?_, ?_, ?_, ?_,
    fun _ => rfl, ?_⟩, rfl⟩
  · exact fun _ hmem => absurd hmem not_mem_nil
  · exact fun _ hmem => absurd hmem not_mem_nil
  · exact fun _ hmem => absurd hmem not_mem_nil
  · exact fun hpos => absurd hpos (Nat.lt_irrefl 0)
  · intro result hres
    cases hres

/-- The URL has the authorized origin. -/
def InOrigin (origin url : Url) : Prop := url.origin.isSome = true ∧ url.origin = origin.origin

theorem inOrigin_of_inScope {origin url : Url} (h : inScope origin url = true) :
    InOrigin origin url := by
  unfold inScope validateScopedUrl at h
  rw [Bool.and_eq_true] at h
  split at h
  · exact absurd h.1 (by simp [Except.isOk, Except.toBool])
  · rename_i hnot
    simp only [Bool.or_eq_true, decide_eq_true_eq, not_or] at hnot
    exact ⟨by simpa [Option.isSome_iff_ne_none] using hnot.1.2, by simpa using hnot.2⟩

/-- **The invocation.** At every point of every run the requests, the
observations and the delivered bytes are within the budget, what is reserved
is what the requests in flight hold, so that a reservation can always be given
back and a commit always fits, and every URL handed out or returned has the
authorized origin. The first failure stays, and once a call has failed or a
request was abandoned the invocation does not succeed. -/
theorem plugin_accounting {inputBytes later : Nat}
    (hstart : Invocation.start context inputBytes cancelled now later = .ok inv)
    (actions more : List PluginStep) :
    let q := inv.run actions
    let r := q.run more
    let budget := context.budget
    q.state.requests ≤ budget.maxRequests ∧
      q.state.reservedResponseBodyBytes = (q.flights.map Flight.held).sum ∧
      q.state.responseBodyBytes + q.state.reservedResponseBodyBytes ≤ budget.maxCumulativeBodyBytes ∧
      (∀ flight ∈ q.flights, flight.held ≤ q.state.reservedResponseBodyBytes) ∧
      (∀ captureLimit response, .committing captureLimit response ∈ q.flights →
        q.state.responseBodyBytes + response.deliveredBodyBytes ≤ budget.maxCumulativeBodyBytes) ∧
      q.state.observations.length ≤ budget.maxObservations ∧
      q.state.observationBytes ≤ budget.maxObservationBytes ∧
      (∀ url ∈ q.handed, InOrigin context.authorizedOrigin url) ∧
      (∀ response, .ok (.responded response) ∈ q.returned →
        InOrigin context.authorizedOrigin response.finalUrl) ∧
      (∀ error, q.state.failure = some error → r.state.failure = some error) ∧
      (∀ error, .error error ∈ q.returned → ∀ result, r.result ≠ some (.ok result)) ∧
      (0 < q.abandoned → ∀ result, r.result ≠ some (.ok result)) := by
  intro q r budget
  obtain ⟨hinv, hctx⟩ := start_accounted hstart
  obtain ⟨h, hq⟩ := run_accounted actions hinv
  obtain ⟨hmore, hr⟩ := run_accounted more h
  have hsame : q.context = { context with deadline := now + context.budget.maxWallTimeMs } :=
    hq.context.trans hctx
  have hbud : q.context.budget = budget := by rw [hsame]
  have horigin : q.context.authorizedOrigin = context.authorizedOrigin := by rw [hsame]
  have hbodies := h.within.bodies
  have hfls : q.Spoiled → ∀ result, r.result ≠ some (.ok result) :=
    fun hspoiled result hres => hmore.succeeded result hres (hr.spoiled hspoiled)
  refine ⟨hbud ▸ h.within.requests, h.reserved, hbud ▸ hbodies, fun _ hmem => h.held_le hmem,
    fun captureLimit response hmem => ?_, hbud ▸ h.within.observations,
    hbud ▸ h.within.observationBytes, fun url hurl => horigin ▸ inOrigin_of_inScope (h.handed url hurl),
    fun response hmem => horigin ▸ inOrigin_of_inScope (h.returned _ hmem), hr.sticky,
    fun error hmem => hfls (h.returned _ hmem), fun hpos => hfls (h.abandoned hpos)⟩
  obtain ⟨-, hdel⟩ := h.flights _ hmem
  have hheld : captureLimit ≤ q.state.reservedResponseBodyBytes := h.held_le hmem
  rw [hbud] at hbodies
  exact (Nat.add_le_add_left (hdel.trans hheld) _).trans hbodies

/-! ### One request -/

def sampleOrigin : Url where
  text := "http://a/"
  scheme := "http"
  host := some (.domain "a")
  port := some 80
  path := "/"
  query := none
  fragment := none
  username := ""
  password := none

def sampleContext : PluginContext where
  pluginId := ⟨"p", by decide⟩
  subject := ⟨"s", by decide⟩
  authorizedOrigin := sampleOrigin
  caseId := ⟨"c", by decide⟩
  budget := {}
  redact := some
  reliability := ⟨0, by decide⟩
  deadline := 0

def sampleEvidenceId : EvidenceId := ⟨"e", by decide⟩

/-- A request that the broker answers, and the end of the plugin. -/
def sampleSteps : List PluginStep :=
  let step (arrival : BrokerArrival) : PluginStep := .advance 0 2 arrival sampleEvidenceId 2
  [.request sampleOrigin, step .slept, step .slept, step (.responded ⟨200, sampleOrigin, 5⟩),
    step .slept, .complete (some (.ok ())) false, .conclude false 3]

/-- The invocation at its start. -/
def sampleInvocation : Invocation where
  context := { sampleContext with deadline := 30001 }
  cancelled := false
  stats := { executionCount := 1 }

theorem plugin_accounting_sample :
    Invocation.start sampleContext 0 false 1 1 = .ok sampleInvocation ∧
      (sampleInvocation.run sampleSteps).state.requests ≤ sampleContext.budget.maxRequests ∧
      (sampleInvocation.run sampleSteps).state.responseBodyBytes = 5 ∧
      (sampleInvocation.run sampleSteps).result.map Except.isOk = some true := by
  have hsta : Invocation.start sampleContext 0 false 1 1 = .ok sampleInvocation := rfl
  exact ⟨hsta, (plugin_accounting hsta sampleSteps []).1, by decide +kernel, by decide +kernel⟩

end Termivar.Plugin
