/-
# The legs of an external-entity review

A leg that is complete has sent its document, kept the receipt of the request
and polled; what the polls brought is what the facts hold. An event of the
control callback ends the legs: the polls of its own leg are the last ones.
-/
import Termivar.NativeOast.Receipts
import Termivar.XmlReview.Runtime

namespace Termivar.XmlReview

open Command ReviewEvent List
open Termivar.Correlation
open Termivar.NativeOast
open Termivar.Oast (PollResponse)
open Termivar.Runtime (TransportDispatchReceipt)

/-! ### Events -/

theorem mem_insertAccepted {key : OastEventKey} : ∀ (receipts : List OastEventReceipt)
    (events : BTreeSet OastEventKey), key ∈ insertAccepted events receipts ↔
      key ∈ events ∨ ∃ event ∈ receipts, event.disposition = .accepted ∧ event.eventKey = key
  | [], events => by simp [insertAccepted]
  | receipt :: receipts, events => by
    have hnext := @mem_insertAccepted key receipts
    unfold insertAccepted at hnext ⊢
    rw [foldl_cons, hnext]
    split
    · rename_i hacc
      simp only [Std.ExtTreeSet.mem_insert, Std.LawfulEqCmp.compare_eq_iff_eq, mem_cons,
        exists_eq_or_imp]
      tauto
    · rename_i hrej
      simp only [mem_cons, exists_eq_or_imp]
      tauto

/-- What one receipt adds to the events of a role. -/
theorem absorbReceipt_events (bindings : CallbackBindings) (facts : RuntimeFacts)
    (receipt : OastPollReceipt) (role : Role) (key : OastEventKey) :
    key ∈ (absorbReceipt bindings facts receipt).events role ↔
      key ∈ facts.events role ∨ (role, key) ∈ brought bindings [receipt] := by
  unfold absorbReceipt brought CallbackBindings.roleOf
  rw [flatMap_singleton]
  split_ifs <;> cases role <;> simp [RuntimeFacts.events, mem_insertAccepted, and_assoc]

theorem brought_cons (bindings : CallbackBindings) (receipt : OastPollReceipt)
    (receipts : List OastPollReceipt) :
    brought bindings (receipt :: receipts) = brought bindings [receipt] ++ brought bindings receipts := by
  simp [brought]

/-- The events of a role after a poll are those before and those it brought. -/
theorem absorbPoll_events (bindings : CallbackBindings) (role : Role) (key : OastEventKey) :
    ∀ (receipts : List OastPollReceipt) (facts : RuntimeFacts),
      key ∈ (receipts.foldl (absorbReceipt bindings) facts).events role ↔
        key ∈ facts.events role ∨ (role, key) ∈ brought bindings receipts
  | [], facts => by simp [brought]
  | receipt :: receipts, facts => by
    rw [foldl_cons, absorbPoll_events bindings role key receipts, absorbReceipt_events,
      brought_cons bindings receipt receipts, mem_append, or_assoc]

/-- A poll changes nothing but the events. -/
theorem absorbPoll_rest (bindings : CallbackBindings) : ∀ (receipts : List OastPollReceipt)
    (facts : RuntimeFacts), ∃ controlEvents candidateEvents replayEvents,
      receipts.foldl (absorbReceipt bindings) facts =
        { facts with controlEvents, candidateEvents, replayEvents }
  | [], facts => ⟨_, _, _, rfl⟩
  | receipt :: receipts, facts => by
    obtain ⟨controlEvents, candidateEvents, replayEvents, heq⟩ :=
      absorbPoll_rest bindings receipts (absorbReceipt bindings facts receipt)
    refine ⟨controlEvents, candidateEvents, replayEvents, ?_⟩
    rw [foldl_cons, heq]
    unfold absorbReceipt
    split_ifs <;> rfl

theorem isEmpty_eq_false_iff {events : BTreeSet OastEventKey} :
    events.isEmpty = false ↔ ∃ key, key ∈ events := by
  rw [Std.ExtTreeSet.isEmpty_eq_false_iff, ← not_forall_not, not_iff_not,
    Std.ExtTreeSet.eq_empty_iff_forall_not_mem]

/-! ### Target requests -/

/-- A response that is complete was counted as it was kept. -/
theorem readTarget_complete {limit : Nat} {body : TargetBody} (hlimit : limit ≤ u64Max) :
    ∀ (chunks : List TargetChunk) (reading : TargetReading), reading.bodyComplete = false →
      reading.responseBytes = reading.bodyBytes → reading.bodyBytes ≤ limit →
      (readTarget limit body chunks reading).1.bodyComplete = true →
      (readTarget limit body chunks reading).1.responseBytes ≤ limit
  | [], reading, hinc, hsame, hle, hcomp => by
    unfold readTarget at hcomp ⊢
    split at hcomp
    · simp [hinc] at hcomp
    · rename_i hroom
      rw [if_neg hroom]
      cases hlast : body.last with
      | ok _ => exact hsame.trans_le hle
      | error interruption =>
        rw [hlast] at hcomp
        simp [hinc] at hcomp
  | chunk :: chunks, reading, hinc, hsame, hle, hcomp => by
    simp only [readTarget] at hcomp ⊢
    split at hcomp
    · simp [hinc] at hcomp
    · rename_i hroom
      rw [if_neg hroom]
      split at hcomp
      · simp [hinc] at hcomp
      · rename_i hwh
        simp only [if_neg hwh]
        refine readTarget_complete hlimit chunks _ hinc ?_ ?_ hcomp
        · show saturatingAdd u64Max reading.responseBytes chunk.bytes = reading.bodyBytes + _
          rw [saturatingAdd_eq (by omega)]
          omega
        · show reading.bodyBytes + _ ≤ limit
          omega

/-- What a target request leaves. -/
theorem collectTarget_receipt {limit : Nat} (role : Role) (requestBodyBytes : Nat)
    (exchange : TargetExchange) {receipt : TransportDispatchReceipt} {room : Bool}
    (h : (collectTarget limit role requestBodyBytes exchange).receipt = some (receipt, room)) :
    receipt.requestBodyBytes = requestBodyBytes := by
  unfold collectTarget at h
  split at h
  · cases h
  · split at h
    · simp only [Option.some.injEq, Prod.mk.injEq] at h
      rw [← h.1]
      rfl
    · split at h <;>
      · simp only [Option.some.injEq, Prod.mk.injEq] at h
        rw [← h.1]
        rfl

/-- A request with a response has a receipt, within the limit if the response
is complete. -/
theorem collectTarget_response {limit : Nat} (hlimit : limit ≤ u64Max) (role : Role)
    (requestBodyBytes : Nat) (exchange : TargetExchange) {response : CollectedHttpResponse}
    (h : (collectTarget limit role requestBodyBytes exchange).result = .ok response) :
    ∃ receipt room,
      (collectTarget limit role requestBodyBytes exchange).receipt = some (receipt, room) ∧
      (response.bodyComplete = true → receipt.responseBytes ≤ limit) := by
  unfold collectTarget at h ⊢
  split at h
  · cases h
  · split at h
    · cases h
    · rename_i body sequence elapsedMs room _ finalUrl
      have hread := @readTarget_complete _ body hlimit body.chunks {} rfl rfl (Nat.zero_le _)
      split at h
      · cases h
      · rename_i reading heq
        rw [heq] at hread
        cases h
        exact ⟨_, room, rfl, hread⟩

/-! ### The invariant -/

variable {setting : ReviewSetting} {bindings : CallbackBindings}

/-- The place of a leg among the three. -/
def legIndex : Role → Nat
  | .control => 0
  | .candidate => 1
  | .replay => 2

/-- A poll of the run brought the event for the callback of the role. -/
def Brought (trace : List ReviewEvent) (role : Role) (key : OastEventKey) : Prop :=
  ∃ leg found, polled leg found ∈ trace ∧ (role, key) ∈ found

/-- A poll of the leg brought an event of the control callback. -/
def ControlIn (leg : Role) (trace : List ReviewEvent) : Prop :=
  ∃ found key, polled (some leg) found ∈ trace ∧ (XmlExternalEntityDocumentRole.control, key) ∈ found

/-- The event is for a document that is not sent yet. -/
def OutOfPhase : Option Role → Role → Prop
  | none, _ => True
  | some leg, role => legIndex leg < legIndex role

/-- A poll brought an event out of its phase. -/
def Contaminated (trace : List ReviewEvent) : Prop :=
  ∃ leg found role key, polled leg found ∈ trace ∧ (role, key) ∈ found ∧
    OutOfPhase leg role

/-- What holds of a review once its documents are planned, with `started` legs. -/
structure Kept (setting : ReviewSetting) (started : Nat) (r : Review) : Prop where
  sound : Sound setting.sha256 r.provider
  limit : r.provider.boundary.permit.limits.maxProviderRequests = maxProviderRequests
  admitted : 1 ≤ r.provider.admittedProviderRequests
  clean : r.facts.preflightClean = true
  distinct : r.facts.callbackTargetsDistinct = true
  reported : ∀ role key, key ∈ r.facts.events role ↔ Brought r.trace role key
  preflight : ∀ found, polled none found ∈ r.trace → found = []
  phases : ∀ leg found, polled (some leg) found ∈ r.trace → legIndex leg < started
  contaminated : r.facts.phaseContaminated = true ↔ Contaminated r.trace
  count : r.targetReceipts.length ≤ started
  bodies : ∀ receipt ∈ r.targetReceipts,
    0 < receipt.requestBodyBytes ∧ receipt.requestBodyBytes ≤ maxDocumentBytes

/-- A review whose first `done` legs are complete; an event of the control
callback can only have come in the last of them. -/
structure Going (setting : ReviewSetting) (done polls : Nat) (r : Review) : Prop
    extends Kept setting done r where
  receipts : r.provider.receipts.length ≤ 5 + polls
  expected : r.expectedBodyLengths.length = done
  complete : r.targetComplete = true
  unstopped : r.facts.stopReason = none
  whole : omitted ∉ r.trace → r.targetReceipts.length = done ∧
    ∀ receipt ∈ r.targetReceipts, receipt.responseBytes ≤ maxTargetResponseBytes
  control : r.facts.controlEvents.isEmpty = false →
    ∃ leg, legIndex leg + 1 = done ∧ ControlIn leg r.trace

/-- A review at the end of its legs. -/
structure Ended (setting : ReviewSetting) (r : Review) : Prop extends Kept setting 3 r where
  complete : r.targetComplete = true → r.expectedBodyLengths.length = 3 ∧
    r.facts.stopReason = none ∧ (omitted ∉ r.trace → r.targetReceipts.length = 3 ∧
      ∀ receipt ∈ r.targetReceipts, receipt.responseBytes ≤ maxTargetResponseBytes)
  cancelled : r.facts.stopReason = some .cancelled → ∃ before, r.trace = before ++ [.cancelled]
  control : r.facts.controlEvents.isEmpty = false → ∃ leg, ControlIn leg r.trace ∧
    r.provider.receipts.length ≤ 5 + (legIndex leg + 1) * setting.policy.pollsPerLeg ∧
    (omitted ∉ r.trace → 0 < r.targetReceipts.length) ∧
    (r.targetComplete = true → leg = .replay)

theorem legIndex_lt (leg : Role) : legIndex leg < 3 := by cases leg <;> decide

theorem Kept.mono {n m : Nat} {r : Review} (h : Kept setting n r) (hle : n ≤ m) : Kept setting m r :=
  { h with
    count := h.count.trans hle
    phases := fun leg found hmem => (h.phases leg found hmem).trans_le hle }

variable {n polls : Nat} {r : Review}

/-- The control events of a review that goes on. -/
theorem Going.controlled (h : Going setting n polls r) (hpolls : polls ≤ n * setting.policy.pollsPerLeg)
    (hcontrol : r.facts.controlEvents.isEmpty = false) :
    ∃ leg, legIndex leg + 1 = n ∧ ControlIn leg r.trace ∧
      r.provider.receipts.length ≤ 5 + (legIndex leg + 1) * setting.policy.pollsPerLeg ∧
      (omitted ∉ r.trace → 0 < r.targetReceipts.length) := by
  obtain ⟨leg, hleg, hin⟩ := h.control hcontrol
  refine ⟨leg, hleg, hin, ?_, fun hroom => ?_⟩
  · have := h.receipts
    rw [hleg]
    omega
  · have := (h.whole hroom).1
    omega

/-- The legs are over. -/
theorem Going.ended (h : Going setting 3 polls r) (hpolls : polls ≤ 3 * setting.policy.pollsPerLeg) :
    Ended setting r where
  toKept := h.toKept
  complete _ := ⟨h.expected, h.unstopped, h.whole⟩
  cancelled hstop := by rw [h.unstopped] at hstop; cases hstop
  control hcontrol := by
    obtain ⟨leg, hleg, hin, hrcpts, hcnt⟩ := h.controlled hpolls hcontrol
    refine ⟨leg, hin, hrcpts, hcnt, fun _ => ?_⟩
    cases leg <;> simp [legIndex] at hleg ⊢

/-- A leg that is not to go on ends the legs without a reason. -/
theorem Going.abandoned (h : Going setting n polls r) (hn : n ≤ 3)
    (hpolls : polls ≤ n * setting.policy.pollsPerLeg) :
    Ended setting { r with targetComplete := false } where
  toKept := { h.toKept.mono hn with }
  complete hcomp := by cases hcomp
  cancelled hstop := by
    have hnone := h.unstopped
    rw [hnone] at hstop
    cases hstop
  control hcontrol := by
    obtain ⟨leg, -, hin, hrcpts, hcnt⟩ := h.controlled hpolls hcontrol
    exact ⟨leg, hin, hrcpts, hcnt, nofun⟩

/-- A leg that stops. -/
def Review.stopped (r : Review) (reason : RuntimeStopReason) : Review :=
  { r with
    facts := { r.facts with stopReason := some reason }
    targetComplete := false
    trace := r.trace ++ if reason = .cancelled then [.cancelled] else [] }

@[simp] theorem wp_stop {ok : Unit → Review → Prop} {err : ReviewFailure → Review → Prop} {pan : Prop}
    (reason : RuntimeStopReason) : wp (stop reason) ok err pan r ↔ ok () (r.stopped reason) := Iff.rfl

/-- Events that are no polls. -/
def Pollless (more : List ReviewEvent) : Prop := ∀ leg found, polled leg found ∉ more

theorem pollless_cancelled (c : Prop) [Decidable c] :
    Pollless (if c then [cancelled] else []) := by
  intro leg found hmem
  split_ifs at hmem <;> simp at hmem

variable {leg : Role} {found : List (Role × OastEventKey)}

/-- What is said of the polls of a trace does not depend on other events. -/
theorem Pollless.mem_iff {trace more : List ReviewEvent} (h : Pollless more) {leg : Option Role} :
    polled leg found ∈ trace ++ more ↔ polled leg found ∈ trace := by
  simp [h leg found]

theorem Kept.noted {more : List ReviewEvent} (h : Kept setting n r) (hmore : Pollless more) :
    Kept setting n { r with trace := r.trace ++ more } :=
  { h with
    reported := fun role key => by simpa only [Brought, hmore.mem_iff] using h.reported role key
    preflight := fun found hmem => h.preflight found (hmore.mem_iff.mp hmem)
    phases := fun leg found hmem => h.phases leg found (hmore.mem_iff.mp hmem)
    contaminated := by simpa only [Contaminated, hmore.mem_iff] using h.contaminated }

theorem controlIn_append {trace : List ReviewEvent} (h : ControlIn leg trace)
    (more : List ReviewEvent) : ControlIn leg (trace ++ more) := by
  obtain ⟨found, key, hmem, hfnd⟩ := h
  exact ⟨found, key, mem_append_left _ hmem, hfnd⟩

/-- A leg that stops ends the legs. -/
theorem Kept.stopped (h : Kept setting 3 r) (reason : RuntimeStopReason)
    (hcontrol : r.facts.controlEvents.isEmpty = false → ∃ leg, ControlIn leg r.trace ∧
      r.provider.receipts.length ≤ 5 + (legIndex leg + 1) * setting.policy.pollsPerLeg ∧
      (omitted ∉ r.trace → 0 < r.targetReceipts.length)) :
    Ended setting (r.stopped reason) where
  toKept := { h.noted (pollless_cancelled (reason = .cancelled)) with }
  complete hcomp := by cases hcomp
  cancelled hstop := by
    obtain rfl : reason = .cancelled := Option.some.inj hstop
    exact ⟨r.trace, rfl⟩
  control hevs := by
    obtain ⟨leg, hin, hrcpts, hcnt⟩ := hcontrol hevs
    exact ⟨leg, controlIn_append hin _, hrcpts,
      fun hroom => hcnt fun hmem => hroom (mem_append_left _ hmem), nofun⟩

theorem Going.stopped (h : Going setting n polls r) (hn : n ≤ 3)
    (hpolls : polls ≤ n * setting.policy.pollsPerLeg) (reason : RuntimeStopReason) :
    Ended setting (r.stopped reason) := by
  refine (h.toKept.mono hn).stopped reason fun hcontrol => ?_
  obtain ⟨leg, -, hrest⟩ := h.controlled hpolls hcontrol
  exact ⟨leg, hrest⟩

/-! ### Polls -/

/-- A call on the provider changes nothing else of the review. -/
theorem onProvider_spec {α : Type} {x : AdapterCommand α}
    {P : α → NativeOastProviderAdapter → Prop} {Q : NativeOastProviderAdapter → Prop}
    (h : wp x P (fun _ a => Q a) False r.provider) :
    wp (onProvider x) (fun result r' => ∃ provider, r' = { r with provider } ∧
        match result with
        | .ok value => P value provider
        | .error _ => Q provider)
      (fun _ _ => False) False r := by
  unfold onProvider
  rw [wp_attempt, wp_mapErr, wp_zoom]
  exact wp_mono h (fun _ provider hp => ⟨provider, rfl, hp⟩) (fun _ provider hq => ⟨provider, rfl, hq⟩)
    id

/-- What an operation leaves of the provider. -/
structure Served (setting : ReviewSetting) (a a' : NativeOastProviderAdapter) : Prop where
  step : Step setting.sha256 a a'
  used : Used a a'

theorem poll_served (h : Sound setting.sha256 r.provider) (script : PollScript) :
    wp (NativeOast.observed .poll (pollInner setting.sha256 script.exchange script.now))
      (fun _ a => Served setting r.provider a) (fun _ a => Served setting r.provider a) False
      r.provider := by
  have hstep : wp (NativeOast.observed .poll (pollInner setting.sha256 script.exchange script.now))
      (fun _ a => Step setting.sha256 r.provider a) (fun _ a => Step setting.sha256 r.provider a)
      False r.provider :=
    wp_observed .poll (wp_mono (pollInner_spec h script.exchange script.now) (fun _ _ hok => hok)
      (fun _ _ herr _ _ => herr.1.noted _ _) id)
  exact wp_mono (wp_and hstep (observed_used .poll (pollInner_used h script.exchange script.now)))
    (fun _ _ hboth => ⟨hboth.1, hboth.2⟩) (fun _ _ hboth => ⟨hboth.1, hboth.2⟩) And.left

/-- A poll either leaves all but the provider alone, or is absorbed. -/
theorem pollProvider_spec (h : Sound setting.sha256 r.provider) (bindings : CallbackBindings)
    (leg : Option Role) (script : PollScript) :
    wp (pollProvider setting bindings leg script)
      (fun result r' => ∃ provider, Served setting r.provider provider ∧
        match result with
        | .error _ => r' = { r with provider }
        | .ok () => ∃ receipts, r' =
          { r with
            provider
            facts := receipts.foldl (absorbReceipt bindings) r.facts
            trace := r.trace ++ [.polled leg (brought bindings receipts)] })
      (fun _ _ => False) False r := by
  unfold pollProvider
  rw [wp_bind]
  refine wp_mono (onProvider_spec (poll_served h script)) ?_ (fun _ _ he => he.elim) id
  rintro (kind | poll) _ ⟨provider, rfl, hserv⟩
  · exact ⟨provider, hserv, rfl⟩
  · exact ⟨provider, hserv, poll.correlationReceipts, rfl⟩

theorem brought_polled {trace : List ReviewEvent} {leg : Option Role}
    {role : Role} {key : OastEventKey} :
    Brought (trace ++ [.polled leg found]) role key ↔
      Brought trace role key ∨ (role, key) ∈ found := by
  unfold Brought
  simp only [mem_append, mem_singleton, polled.injEq]
  constructor
  · rintro ⟨leg', found', hmem | ⟨-, rfl⟩, hkey⟩
    · exact .inl ⟨leg', found', hmem, hkey⟩
    · exact .inr hkey
  · rintro (⟨leg', found', hmem, hkey⟩ | hkey)
    · exact ⟨leg', found', .inl hmem, hkey⟩
    · exact ⟨leg, found, .inr ⟨rfl, rfl⟩, hkey⟩

theorem Going.weaken {more : Nat} (h : Going setting n polls r) (hle : polls ≤ more) :
    Going setting n more r :=
  { h with receipts := h.receipts.trans (by omega) }

/-- An operation of the provider that brings nothing. -/
theorem Going.served {provider : NativeOastProviderAdapter} (h : Going setting n polls r)
    (hserv : Served setting r.provider provider) :
    Going setting n (polls + 1) { r with provider } :=
  { h with
    sound := hserv.step.sound
    limit := by rw [hserv.step.same.limits]; exact h.limit
    admitted := h.admitted.trans hserv.used.requests
    receipts := hserv.used.receipts.trans (by have := h.receipts; omega) }

theorem mark_eq_true (facts : RuntimeFacts) (leg : Role) :
    (markPhaseContamination facts leg).phaseContaminated = true ↔ facts.phaseContaminated = true ∨
      ∃ role, legIndex leg < legIndex role ∧ (facts.events role).isEmpty = false := by
  simp only [markPhaseContamination, Bool.or_eq_true]
  refine or_congr_right ?_
  cases leg with
  | control =>
    simp only [Bool.or_eq_true, Bool.not_eq_true']
    constructor
    · rintro (hsome | hsome)
      · exact ⟨.candidate, by decide, hsome⟩
      · exact ⟨.replay, by decide, hsome⟩
    · rintro ⟨_ | _ | _, hlat, hsome⟩
      · exact absurd hlat (by decide)
      · exact .inl hsome
      · exact .inr hsome
  | candidate =>
    simp only [Bool.not_eq_true']
    constructor
    · exact fun hsome => ⟨.replay, by decide, hsome⟩
    · rintro ⟨_ | _ | _, hlat, hsome⟩
      · exact absurd hlat (by decide)
      · exact absurd hlat (by decide)
      · exact hsome
  | replay =>
    simp only [Bool.false_eq_true, false_iff, not_exists, not_and]
    intro role hlat
    cases role <;> exact absurd hlat (by decide)

/-- The mark of a poll is an event for a document that is not sent yet. -/
theorem Kept.marked {facts : RuntimeFacts} (h : Kept setting n r) (hleg : legIndex leg + 1 = n)
    (hsame : facts.phaseContaminated = r.facts.phaseContaminated)
    (hevs : ∀ role key, key ∈ facts.events role ↔
      Brought (r.trace ++ [.polled (some leg) found]) role key) :
    (markPhaseContamination facts leg).phaseContaminated = true ↔
      Contaminated (r.trace ++ [.polled (some leg) found]) := by
  rw [mark_eq_true, hsame, h.contaminated]
  constructor
  · rintro (⟨leg', found', role, key, hmem, hkey, hph⟩ | ⟨role, hlat, hsome⟩)
    · exact ⟨leg', found', role, key, mem_append_left _ hmem, hkey, hph⟩
    · obtain ⟨key, hkey⟩ := isEmpty_eq_false_iff.mp hsome
      obtain ⟨leg', found', hmem, hbrought⟩ := (hevs role key).mp hkey
      refine ⟨leg', found', role, key, hmem, hbrought, ?_⟩
      cases leg' with
      | none => trivial
      | some leg' =>
        rcases mem_append.mp hmem with hold | hlast
        · have := h.phases leg' found' hold
          show legIndex leg' < legIndex role
          omega
        · simp only [mem_singleton, polled.injEq, Option.some.injEq] at hlast
          rw [hlast.1]
          exact hlat
  · rintro ⟨leg', found', role, key, hmem, hkey, hph⟩
    rcases mem_append.mp hmem with hold | hlast
    · exact .inl ⟨leg', found', role, key, hold, hkey, hph⟩
    · have hbrought := (hevs role key).mpr ⟨leg', found', hmem, hkey⟩
      simp only [mem_singleton, polled.injEq] at hlast
      rw [hlast.1] at hph
      exact .inr ⟨role, hph, isEmpty_eq_false_iff.mpr ⟨key, hbrought⟩⟩

/-- A poll of a leg is absorbed. -/
theorem Going.polled {provider : NativeOastProviderAdapter} (h : Going setting n polls r)
    (hleg : legIndex leg + 1 = n) (hserv : Served setting r.provider provider)
    (bindings : CallbackBindings) (receipts : List OastPollReceipt) :
    Going setting n (polls + 1)
      { r with
        provider
        facts := markPhaseContamination (receipts.foldl (absorbReceipt bindings) r.facts) leg
        trace := r.trace ++ [.polled (some leg) (brought bindings receipts)] } := by
  have hnext := h.served hserv
  obtain ⟨controlEvents, candidateEvents, replayEvents, heq⟩ :=
    absorbPoll_rest bindings receipts r.facts
  have hevs : ∀ role key, key ∈ (receipts.foldl (absorbReceipt bindings) r.facts).events role ↔
        Brought (r.trace ++ [.polled (some leg) (brought bindings receipts)]) role key := by
    intro role key
    rw [absorbPoll_events, brought_polled, h.reported]
  rw [heq] at hevs ⊢
  have hroom : omitted ∉ r.trace ++ [.polled (some leg) (brought bindings receipts)] →
      omitted ∉ r.trace := fun hnone hmem => hnone (mem_append_left _ hmem)
  refine { hnext with
    clean := h.clean, distinct := h.distinct, unstopped := h.unstopped
    reported := fun role key => (Iff.of_eq (by cases role <;> rfl)).trans (hevs role key)
    preflight := fun found hmem => ?_
    phases := fun leg' found hmem => ?_
    contaminated := ?_
    whole := fun hnone => h.whole (hroom hnone)
    control := fun hcontrol => ?_ }
  · exact (mem_append.mp hmem).elim (h.preflight found) (by simp)
  · rcases mem_append.mp hmem with hold | hlast
    · exact h.phases leg' found hold
    · simp only [mem_singleton, polled.injEq, Option.some.injEq] at hlast
      rw [hlast.1]
      omega
  · exact h.toKept.marked hleg rfl hevs
  · obtain ⟨key, hkey⟩ := isEmpty_eq_false_iff.mp hcontrol
    rcases brought_polled.mp ((hevs .control key).mp hkey) with hold | hnew
    · have hthere : key ∈ r.facts.events .control := (h.reported .control key).mpr hold
      obtain ⟨leg', hleg', hin⟩ := h.control (isEmpty_eq_false_iff.mpr ⟨key, hthere⟩)
      exact ⟨leg', hleg', controlIn_append hin _⟩
    · exact ⟨leg, hleg, _, key, mem_append_right _ (mem_singleton.mpr rfl), hnew⟩

/-- A leg is complete, or has ended the legs. -/
def Turned (setting : ReviewSetting) (done : Nat) (r : Review) : Prop :=
  Going setting done (done * setting.policy.pollsPerLeg) r ∨
    (r.targetComplete = false ∧ Ended setting r)

theorem pollLeg_spec {leg : Role} (script : LegScript) (hleg : legIndex leg + 1 = n) :
    ∀ (rest index polls : Nat) (r : Review), Going setting n polls r →
      polls + rest ≤ n * setting.policy.pollsPerLeg →
      wp (pollLeg setting bindings leg script rest index) (fun _ r' => Turned setting n r')
        (fun _ _ => False) False r
  | 0, _, polls, r, h, hpolls => .inl (h.weaken (by omega))
  | rest + 1, index, polls, r, h, hpolls => by
    have hn : n ≤ 3 := by have := legIndex_lt leg; omega
    unfold pollLeg
    split
    · exact .inr ⟨rfl, h.stopped hn (by omega) _⟩
    · rw [wp_bind]
      refine wp_mono (pollProvider_spec h.sound bindings (some leg) (script.polls index)) ?_
        (fun _ _ he => he.elim) id
      rintro (kind | _) r' ⟨provider, hserv, hr'⟩
      · subst hr'
        exact .inr ⟨rfl, (h.served hserv).stopped hn (by omega) _⟩
      · obtain ⟨receipts, rfl⟩ := hr'
        have hnext := h.polled hleg hserv bindings receipts
        have hdone : Turned setting n _ := .inl (hnext.weaken (by omega))
        simp only [↓wp_rules]
        exact ⟨fun _ => hdone, fun _ => ⟨fun _ => hdone, fun _ =>
          pollLeg_spec script hleg rest (index + 1) (polls + 1) _ hnext (by omega)⟩⟩

/-! ### Legs -/

/-- The review with the receipt of a target request. -/
def Review.dispatched (r : Review) : Option (TransportDispatchReceipt × Bool) → Review
  | none => r
  | some (receipt, true) => { r with targetReceipts := r.targetReceipts ++ [receipt] }
  | some (_, false) =>
    { r with
      omittedReceipts := saturatingAdd u64Max r.omittedReceipts 1
      trace := r.trace ++ [.omitted] }

theorem wp_dispatchTarget {ok : Except RuntimeStopReason CollectedHttpResponse → Review → Prop}
    {err : ReviewFailure → Review → Prop} {pan : Prop} (leg : Role)
    (document : XmlExternalEntityDocument) (exchange : TargetExchange) :
    wp (dispatchTarget setting leg document exchange) ok err pan r ↔
      let collected := collectTarget (min setting.maxBodyBytes maxTargetResponseBytes) leg
        document.bytes.length exchange
      ok collected.result (r.dispatched collected.receipt) := by
  simp only [dispatchTarget]
  cases (collectTarget (min setting.maxBodyBytes maxTargetResponseBytes) leg document.bytes.length
      exchange).receipt with
  | none => rfl
  | some pair => obtain ⟨receipt, _ | _⟩ := pair <;> rfl

/-- A target request has left its receipt, or found the audit full. -/
theorem Kept.dispatched (h : Kept setting n r) {receipt : Option (TransportDispatchReceipt × Bool)}
    (hbody : ∀ kept room, receipt = some (kept, room) →
      0 < kept.requestBodyBytes ∧ kept.requestBodyBytes ≤ maxDocumentBytes) :
    Kept setting (n + 1) (r.dispatched receipt) := by
  rcases receipt with _ | ⟨kept, _ | _⟩
  · exact h.mono (Nat.le_succ n)
  · have homit : Pollless [.omitted] := by simp [Pollless]
    exact { (h.mono (Nat.le_succ n)).noted homit with }
  · refine { h.mono (Nat.le_succ n) with count := ?_, bodies := fun other hmem => ?_ }
    · have := h.count
      simp only [Review.dispatched, length_append, length_singleton]
      omega
    · rcases mem_append.mp hmem with hold | hlast
      · exact h.bodies other hold
      · rw [mem_singleton.mp hlast]
        exact hbody kept true rfl

/-- The review with the document of a leg. -/
def Review.started (r : Review) (bodyLength : Nat) : Review :=
  { r with
    expectedBodyLengths := r.expectedBodyLengths ++ [bodyLength]
    facts := { r.facts with
      targetRequestBodyBytes := saturatingAdd u64Max r.facts.targetRequestBodyBytes bodyLength } }

/-- The review with the response of a leg. -/
def Review.answered (r : Review) (bodyBytes : Nat) : Review :=
  { r with facts := { r.facts with
      targetResponseBytes := saturatingAdd u64Max r.facts.targetResponseBytes bodyBytes } }

theorem Kept.started (h : Kept setting n r) (bodyLength : Nat) :
    Kept setting n (r.started bodyLength) :=
  { h with }

theorem Kept.answered (h : Kept setting n r) (bodyBytes : Nat) :
    Kept setting n (r.answered bodyBytes) :=
  { h with }

@[simp] theorem dispatched_facts (r : Review) (receipt : Option (TransportDispatchReceipt × Bool)) :
    (r.dispatched receipt).facts = r.facts := by
  rcases receipt with _ | ⟨kept, _ | _⟩ <;> rfl

/-- A leg whose response is complete has been dispatched and accounted. -/
theorem Going.answered {kept : TransportDispatchReceipt} (room : Bool)
    (h : Going setting n polls r) (hcontrol : r.facts.controlEvents.isEmpty = true) (bodyLength bodyBytes : Nat)
    (hbody : 0 < kept.requestBodyBytes ∧ kept.requestBodyBytes ≤ maxDocumentBytes)
    (hresp : kept.responseBytes ≤ maxTargetResponseBytes) :
    Going setting (n + 1) polls
      (((r.started bodyLength).dispatched (some (kept, room))).answered bodyBytes) where
  toKept := ((h.toKept.started bodyLength).dispatched
    (by rintro _ _ heq; cases heq; exact hbody)).answered bodyBytes
  receipts := by cases room <;> exact h.receipts
  expected := by
    have hlength : (r.expectedBodyLengths ++ [bodyLength]).length = n + 1 := by simp [h.expected]
    cases room <;> exact hlength
  complete := by cases room <;> exact h.complete
  unstopped := by cases room <;> exact h.unstopped
  whole hroom := by
    cases room with
    | false => exact absurd (mem_append_right r.trace (mem_singleton.mpr rfl)) hroom
    | true =>
      obtain ⟨hlength, hsm⟩ := h.whole hroom
      refine ⟨?_, fun receipt hmem => ?_⟩
      · simp [Review.answered, Review.dispatched, Review.started, hlength]
      · rcases mem_append.mp hmem with hold | hlast
        · exact hsm receipt hold
        · rw [mem_singleton.mp hlast]
          exact hresp
  control hevs := by
    have hsame : (((r.started bodyLength).dispatched (some (kept, room))).answered
        bodyBytes).facts.controlEvents = r.facts.controlEvents := by cases room <;> rfl
    rw [hsame, hcontrol] at hevs
    cases hevs

theorem runLeg_spec {document : XmlExternalEntityDocument} (script : LegScript)
    (hleg : legIndex leg = n) (hpol : document.policyId = setting.policy.policyId)
    (h : Going setting n (n * setting.policy.pollsPerLeg) r)
    (hcontrol : r.facts.controlEvents.isEmpty = true) :
    wp (runLeg setting bindings leg document script) (fun _ r' => Turned setting (n + 1) r')
      (fun _ _ => False) False r := by
  have hn : n + 1 ≤ 3 := by have := legIndex_lt leg; omega
  have hbdd := document.bounded
  have hnon := document.nonempty
  unfold runLeg
  simp only [↓wp_rules, wp_dispatchTarget]
  refine ⟨fun hlarge => absurd hlarge (by omega), fun _ => ⟨?_, fun _ => ?_⟩⟩
  · rintro (hoth | hlarge)
    · exact hoth hpol
    · omega
  generalize hcoll : collectTarget (min setting.maxBodyBytes maxTargetResponseBytes) leg
    document.bytes.length script.exchange = collected
  have hbody : ∀ kept room, collected.receipt = some (kept, room) →
      0 < kept.requestBodyBytes ∧ kept.requestBodyBytes ≤ maxDocumentBytes := by
    intro kept room hsome
    rw [← hcoll] at hsome
    rw [collectTarget_receipt leg document.bytes.length script.exchange hsome]
    exact ⟨hnon, hbdd⟩
  have hkept := ((h.toKept.started document.bytes.length).dispatched hbody).mono hn
  have hnone : ((r.started document.bytes.length).dispatched
      collected.receipt).facts.controlEvents.isEmpty = true := by
    rw [dispatched_facts]
    exact hcontrol
  cases hres : collected.result with
  | error reason =>
    refine .inr ⟨rfl, hkept.stopped reason fun hsome => ?_⟩
    rw [hnone] at hsome
    cases hsome
  | ok response =>
    have hlimit : min setting.maxBodyBytes maxTargetResponseBytes ≤ u64Max :=
      (Nat.min_le_right _ _).trans (by decide)
    obtain ⟨kept, room, hrcpt, hsm⟩ := collectTarget_response hlimit leg document.bytes.length script.exchange
      (hcoll ▸ hres)
    rw [hcoll] at hrcpt
    simp only [↓wp_rules, wp_stop]
    refine ⟨fun _ => .inr ⟨rfl, (hkept.answered response.bodyBytes).stopped .incomplete
      fun hsome => ?_⟩, fun hwh => ?_⟩
    · rw [show ((Review.dispatched _ _).answered response.bodyBytes).facts.controlEvents.isEmpty =
        true from hnone] at hsome
      cases hsome
    · have hcomp : response.bodyComplete = true := by
        by_contra hpart
        exact hwh (.inr (by simpa using hpart))
      have hgo := h.answered room hcontrol document.bytes.length response.bodyBytes
        (hbody kept room hrcpt) ((hsm hcomp).trans (Nat.min_le_right _ _))
      rw [hrcpt]
      exact pollLeg_spec script (by omega) setting.policy.pollsPerLeg 0 _ _ hgo
        (by rw [Nat.succ_mul])

theorem runLegs_spec {plan : XmlExternalEntityDocumentPlan} (script : Role → LegScript)
    (hpol : ∀ leg, (plan.document leg).policyId = setting.policy.policyId) :
    ∀ (rest : List Role) (n : Nat) (r : Review), rest.map legIndex = range' n rest.length →
      n + rest.length = 3 → Going setting n (n * setting.policy.pollsPerLeg) r →
      wp (runLegs setting bindings plan script rest) (fun _ r' => Ended setting r')
        (fun _ _ => False) False r
  | [], n, r, _, hlength, h => by
    obtain rfl : n = 3 := hlength
    exact h.ended le_rfl
  | leg :: rest, n, r, hidx, hlength, h => by
    simp only [length_cons] at hlength
    obtain ⟨hleg, hrest⟩ : legIndex leg = n ∧ rest.map legIndex = range' (n + 1) rest.length := by
      simpa [range'_succ] using hidx
    unfold runLegs
    simp only [↓wp_rules, wp_stop]
    refine ⟨fun _ => h.stopped (by omega) le_rfl _, fun _ => ⟨fun _ => h.abandoned (by omega) le_rfl,
      fun hgd => ?_⟩⟩
    -- no event of the control callback has come yet
    have hcontrol : r.facts.controlEvents.isEmpty = true := by
      by_contra hsome
      have hsome : r.facts.controlEvents.isEmpty = false := by simpa using hsome
      obtain ⟨leg', hleg', -⟩ := h.control hsome
      refine hgd ⟨?_, by simpa using hsome⟩
      rintro rfl
      simp only [legIndex] at hleg
      omega
    refine wp_imp (runLeg_spec (script leg) hleg (hpol leg) h hcontrol) ?_
    rintro _ r' (hgo | ⟨hinc, hend⟩)
    · exact ⟨fun _ => ⟨fun _ => hgo.abandoned (by omega) le_rfl,
        fun _ => runLegs_spec script hpol rest (n + 1) r' hrest (by omega) hgo⟩,
        fun hinc => absurd hgo.complete hinc⟩
    · exact ⟨fun hcomp => absurd (hinc.symm.trans hcomp) (by simp), fun _ => hend⟩

end Termivar.XmlReview
