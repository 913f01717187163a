/-
# Every WebSocket review ends in a consistent audit

The run is followed step by step: what it has noted in its trace until a
step fails (`Quiet`), and after that (`Falling`, `Ended`). A step that fails
ends the run, after at most one clean-up step.
-/
import Termivar.WebSocket.Steps

namespace Termivar.WebSocket

open Command List
open Termivar.Runtime (RequestAccountingSnapshot RuntimeBudget TransportDispatchOutcome)

variable {s : Session} {policy : WebSocketReviewPolicy} {phase : Phase}
  {sent : List WebSocketReviewMessage} {texts : List Bytes} {tail : List Event}
  {kind kind' : WebSocketReviewFailureKind} {q r r' : Review}

/-! ### Traces of a run -/

/-- No step has failed. -/
structure Quiet (texts : List Bytes) (tail : List Event) (r : Review) : Prop where
  exchanged : exchanged r.trace = pairedEvents texts ++ tail
  calm : failures r.trace = []
  whole : Event.cutShort ∉ r.trace
  unclosed : Event.closed ∉ r.trace
  control : controlReads r.trace = r.audit.inboundControlFrameCount

/-- A step has failed with `kind`, and the run cleans up. -/
structure Falling (policy : WebSocketReviewPolicy) (texts : List Bytes) (tail : List Event)
    (kind : WebSocketReviewFailureKind) (r : Review) : Prop where
  exchanged : exchanged r.trace = pairedEvents texts ++ tail
  first : (failures r.trace).head? = some kind
  whole : Event.cutShort ∉ r.trace
  unclosed : Event.closed ∉ r.trace
  control : controlReads r.trace ≤ policy.limits.maxControlFrames + 1

/-- The run has reported `kind`. -/
structure Ended (policy : WebSocketReviewPolicy) (texts : List Bytes) (tail : List Event)
    (kind : WebSocketReviewFailureKind) (r : Review) : Prop where
  exchanged : exchanged r.trace = pairedEvents texts ++ tail
  first : Event.cutShort ∉ r.trace → (failures r.trace).head? = some kind
  unclosed : Event.closed ∉ r.trace
  control : controlReads r.trace ≤ policy.limits.maxControlFrames + 1
  failure : r.audit.failure = some kind
  terminal : r.audit.terminal = kind.terminal

/-- What the trace shows after the paired messages: nothing, a message whose
response has not been read, or a response that a limit refused. -/
inductive Pending (policy : WebSocketReviewPolicy) (sent : List WebSocketReviewMessage)
    (texts : List Bytes) : List Event → Prop where
  | paired (h : sent.length = texts.length) : Pending policy sent texts []
  | unsent (h : sent.length = texts.length) : Pending policy sent texts [.sending texts.length]
  | awaited (h : sent.length = texts.length + 1) :
    Pending policy sent texts [.sending texts.length]
  | refused (h : sent.length = texts.length + 1) (text : Bytes)
      (hlimit : policy.limits.maxInboundMessageBytes < text.length ∨
        maxApplicationBytesPerDirection < (texts.map (·.length)).sum + text.length) :
    Pending policy sent texts [.sending texts.length, .text text]

/-- The run has ended with a failure. -/
def Stopped (s : Session) (policy : WebSocketReviewPolicy) (r : Review) : Prop :=
  ∃ phase sent texts tail kind, Kept s policy phase sent texts r ∧ Pending policy sent texts tail ∧
    Ended policy texts tail kind r

theorem Falling.moved {text : Bytes} (h : Falling policy texts tail kind q) (hmv : Moved s text q r) :
    Falling policy texts tail kind r := by
  obtain ⟨audit, snapshot, bytes, reached, outcome, turn, trace⟩ := r
  obtain rfl : trace = _ := hmv.trace
  exact { h with }

theorem Quiet.moved {text : Bytes} (h : Quiet texts tail q) (hmv : Moved s text q r) :
    Quiet texts tail r := by
  have hcontrol := h.control
  obtain ⟨audit, snapshot, bytes, reached, outcome, turn, trace⟩ := r
  obtain rfl : audit = _ := hmv.audit
  obtain rfl : trace = _ := hmv.trace
  exact { h with control := hcontrol }

/-- The first step that fails. -/
theorem Quiet.falling (h : Quiet texts tail q) (hkept : Kept s policy phase sent texts q)
    (htr : r.trace = q.trace ++ [.failed kind]) : Falling policy texts tail kind r where
  exchanged := by
    rw [htr, ← h.exchanged]
    simp [WebSocket.exchanged, Event.isExchange]
  first := by
    have hcalm : q.trace.filterMap Event.failure? = [] := h.calm
    rw [htr, failures, filterMap_append, hcalm]
    rfl
  whole := by
    have := h.whole
    rw [htr]
    simp_all
  unclosed := by
    have := h.unclosed
    rw [htr]
    simp_all
  control := by
    have hcontrol := h.control
    have hmax := hkept.control
    have hsame : controlReads r.trace = controlReads q.trace := by
      rw [htr]
      simp [controlReads]
    omega

theorem Falling.ended (h : Falling policy texts tail kind q) (hfailing : Failing kind q r) :
    Ended policy texts tail kind r where
  exchanged := by
    rw [hfailing.trace, ← h.exchanged]
    simp [WebSocket.exchanged, Event.isExchange]
  first := fun _ => by
    have := h.first
    rw [hfailing.trace]
    simp_all [failures]
  unclosed := by
    have := h.unclosed
    rw [hfailing.trace]
    simp_all
  control := by
    have hcontrol := h.control
    rw [hfailing.trace]
    simp_all [controlReads]
  failure := by rw [hfailing.audit]; rfl
  terminal := by rw [hfailing.audit]; rfl

/-- A clean-up step that fails is what the run reports. -/
theorem Falling.cutShort (h : Falling policy texts tail kind q) (hfailing : Failing kind' q r) :
    Ended policy texts tail kind' (r.noted .cutShort) where
  exchanged := by
    rw [Review.noted, hfailing.trace, ← h.exchanged]
    simp [WebSocket.exchanged, Event.isExchange]
  first := fun hnone => by simp [Review.noted] at hnone
  unclosed := by
    have := h.unclosed
    rw [Review.noted, hfailing.trace]
    simp_all
  control := by
    have hcontrol := h.control
    rw [Review.noted, hfailing.trace]
    simp_all [controlReads]
  failure := by simp only [Review.noted, hfailing.audit]; rfl
  terminal := by simp only [Review.noted, hfailing.audit]; rfl

theorem Falling.ended_of_failure (h : Falling policy texts tail kind r)
    (hfailure : r.audit.failure = some kind) (hterm : r.audit.terminal = kind.terminal) :
    Ended policy texts tail kind r :=
  { h with first := fun _ => h.first, failure := hfailure, terminal := hterm }

theorem Quiet.ended (h : Quiet texts tail q) (hkept : Kept s policy phase sent texts q)
    (hfailing : Failing kind q r) : Ended policy texts tail kind r :=
  (h.falling hkept hfailing.trace).ended_of_failure (by rw [hfailing.audit]; rfl)
    (by rw [hfailing.audit]; rfl)

theorem Kept.failing (h : Kept s policy phase sent texts q) (hfailing : Failing kind q r) :
    Kept s policy phase sent texts r :=
  h.congr hfailing.audit hfailing.turn

/-! ### Steps of a run -/

/-- The state of a run in which no step has failed. -/
structure Going (s : Session) (policy : WebSocketReviewPolicy) (phase : Phase)
    (sent : List WebSocketReviewMessage) (texts : List Bytes) (tail : List Event) (r : Review) :
    Prop where
  kept : Kept s policy phase sent texts r
  quiet : Quiet texts tail r
  pending : Pending policy sent texts tail

theorem Going.stopped (h : Going s policy phase sent texts tail q) (hfailing : Failing kind q r) :
    Stopped s policy r :=
  ⟨phase, sent, texts, tail, kind, h.kept.failing hfailing, h.pending, h.quiet.ended h.kept hfailing⟩

theorem Going.congr (h : Going s policy phase sent texts tail q)
    (hsame : r.audit = q.audit ∧ r.turn = q.turn ∧ r.trace = q.trace) :
    Going s policy phase sent texts tail r := by
  obtain ⟨hkept, hqt, hpend⟩ := h
  obtain ⟨audit, snapshot, bytes, reached, outcome, turn, trace⟩ := r
  obtain ⟨rfl, rfl, rfl⟩ := hsame
  exact ⟨{ hkept with }, { hqt with }, hpend⟩

theorem Going.moved (hvalid : policy.Valid) (h : Going s policy phase sent texts tail q)
    (hph : phase.connections = 1) {text : Bytes} (hmv : Moved s text q r) :
    Going s policy phase sent texts tail r :=
  ⟨h.kept.moved hvalid hph hmv, h.quiet.moved hmv, h.pending⟩

/-- A use of the socket while no step has failed. -/
theorem exchange_going (hvalid : policy.Valid) (h : Going s policy phase sent texts tail r)
    (hph : phase.connections = 1) (budgeted : Bool) (text : Bytes) :
    wp (exchange s budgeted text)
      (fun turn r' => turn = s.peer r.turn ∧ turn.stopped = none ∧ Moved s text r r' ∧
        Going s policy phase sent texts tail r')
      (fun _ r' => Stopped s policy r') False r := by
  refine wp_mono (exchange_spec budgeted text) (fun turn r' hturn => ?_) (fun _ r' hfail => ?_) id
  · obtain ⟨hturn, hstop, hmv⟩ := hturn
    exact ⟨hturn, hstop, hmv, h.moved hvalid hph hmv⟩
  · obtain ⟨q, kind, hfailing, hsame | hmv⟩ := hfail
    · exact (h.congr hsame).stopped hfailing
    · exact (h.moved hvalid hph hmv).stopped hfailing

/-- A use of the socket to clean up. -/
theorem cleanup_falling (hvalid : policy.Valid) (hkept : Kept s policy phase sent texts r)
    (hph : phase.connections = 1) (hpend : Pending policy sent texts tail)
    (h : Falling policy texts tail kind r) :
    wp (cleanup (exchange s false []))
      (fun _ r' => Kept s policy phase sent texts r' ∧ Falling policy texts tail kind r' ∧
        r'.audit.failure = r.audit.failure ∧ r'.audit.terminal = r.audit.terminal ∧
        r'.audit.outboundControlFrameCount = r.audit.outboundControlFrameCount ∧
        r'.audit.inboundControlFrameCount = r.audit.inboundControlFrameCount)
      (fun _ r' => Stopped s policy r') False r := by
  unfold cleanup
  simp only [↓wp_tryCatch, ↓wp_rules, wp_note]
  refine wp_mono (exchange_spec false []) (fun turn r' hturn => ?_) (fun _ r' hfail => ?_) id
  · obtain ⟨-, -, hmv⟩ := hturn
    refine ⟨hkept.moved hvalid hph hmv, h.moved hmv, ?_, ?_, ?_, ?_⟩ <;>
      rw [hmv.audit] <;> rfl
  · obtain ⟨q, kind', hfailing, hq⟩ := hfail
    have hq : Kept s policy phase sent texts q ∧ Falling policy texts tail kind q := by
      obtain ⟨haudit, hturn, htr⟩ | hmv := hq
      · exact ⟨hkept.congr haudit hturn, { h with
          exchanged := htr ▸ h.exchanged, first := htr ▸ h.first, whole := htr ▸ h.whole,
          unclosed := htr ▸ h.unclosed, control := htr ▸ h.control }⟩
      · exact ⟨hkept.moved hvalid hph hmv, h.moved hmv⟩
    exact ⟨phase, sent, texts, tail, kind', (hq.1.failing hfailing).congr rfl rfl, hpend,
      hq.2.cutShort hfailing⟩

theorem not_controlFramesReached (hvalid : policy.Valid) (hkept : Kept s policy phase sent texts r)
    (h : ¬ controlFramesReached r.audit = true) :
    r.audit.outboundControlFrameCount + r.audit.inboundControlFrameCount <
      policy.limits.maxControlFrames := by
  have hmax : policy.limits.maxControlFrames ≤ u64Max := hvalid.control.trans (by decide)
  have hroom : ¬ saturatingAdd u64Max r.audit.outboundControlFrameCount
      r.audit.inboundControlFrameCount ≥ r.audit.limits.maxControlFrames :=
    fun hge => h (decide_eq_true hge)
  rw [hkept.limits] at hroom
  simp only [WebSocketReviewPolicy.executionLimits, saturatingAdd] at hroom
  omega

theorem Kept.outboundControl (h : Kept s policy phase sent texts r)
    (hroom : r.audit.outboundControlFrameCount + r.audit.inboundControlFrameCount <
      policy.limits.maxControlFrames) :
    Kept s policy phase sent texts { r with audit := { r.audit with
      outboundControlFrameCount := r.audit.outboundControlFrameCount + 1 } } :=
  { h with
    control := by
      show r.audit.outboundControlFrameCount + 1 + r.audit.inboundControlFrameCount ≤ _
      omega }

theorem Falling.outboundControl (h : Falling policy texts tail kind r) :
    Falling policy texts tail kind { r with audit := { r.audit with
      outboundControlFrameCount := r.audit.outboundControlFrameCount + 1 } } := { h with }

theorem closeAfterFailure_spec (hvalid : policy.Valid) (hkept : Kept s policy phase sent texts r)
    (hph : phase.connections = 1) (hpend : Pending policy sent texts tail)
    (h : Falling policy texts tail kind r) (hfailure : r.audit.failure = some kind)
    (hterm : r.audit.terminal = kind.terminal) (outcome : TransportDispatchOutcome) :
    wp (closeAfterFailure s outcome) (fun _ _ => False) (fun _ r' => Stopped s policy r') False r := by
  unfold closeAfterFailure countOutboundControl
  simp only [↓wp_rules]
  refine ⟨fun _ => ⟨phase, sent, texts, tail, kind, hkept, hpend,
    h.ended_of_failure hfailure hterm⟩, fun hroom => ?_⟩
  have hroom := not_controlFramesReached hvalid hkept hroom
  refine wp_imp (cleanup_falling hvalid hkept hph hpend h) fun turn r' hr' => ?_
  obtain ⟨hkept', h', hfailure', hterm', hout, hin⟩ := hr'
  have hend := h'.ended_of_failure (hfailure'.trans hfailure) (hterm'.trans hterm)
  refine ⟨fun _ => ?_, fun _ => ⟨phase, sent, texts, tail, kind, hkept', hpend, hend⟩⟩
  exact ⟨phase, sent, texts, tail, kind, hkept'.outboundControl (by rw [hout, hin]; exact hroom),
    hpend, { hend with }⟩

/-- A step that fails and is followed by the closing frame. -/
theorem fail_then_close_spec (hvalid : policy.Valid) (h : Going s policy phase sent texts tail r)
    (hph : phase.connections = 1) (kind : WebSocketReviewFailureKind)
    (outcome : TransportDispatchOutcome) :
    wp (closeAfterFailure s outcome) (fun _ _ => False) (fun _ r' => Stopped s policy r') False
      (r.failed kind) :=
  closeAfterFailure_spec hvalid (h.kept.failing (failing_failed kind r)) hph h.pending
    (h.quiet.falling h.kept rfl) rfl rfl outcome

/-! ### Control frames -/

theorem Going.outboundControl (h : Going s policy phase sent texts tail r)
    (hroom : r.audit.outboundControlFrameCount + r.audit.inboundControlFrameCount <
      policy.limits.maxControlFrames) :
    Going s policy phase sent texts tail { r with audit := { r.audit with
      outboundControlFrameCount := r.audit.outboundControlFrameCount + 1 } } :=
  ⟨h.kept.outboundControl hroom, { h.quiet with }, h.pending⟩

/-- A control frame is read, and counted while there is room for it. -/
theorem observeInboundControl_spec (hvalid : policy.Valid) (h : Going s policy phase sent texts tail r) :
    wp observeInboundControl
      (fun _ r' => Going s policy phase sent texts tail r' ∧ r'.turn = r.turn ∧
        r'.audit.inboundControlFrameCount = r.audit.inboundControlFrameCount + 1)
      (fun _ r' => Stopped s policy r') False r := by
  unfold observeInboundControl
  simp only [↓wp_rules, wp_note, wp_refuse]
  have hexchanged : exchanged (r.trace ++ [Event.control]) = pairedEvents texts ++ tail := by
    rw [← h.quiet.exchanged]
    simp [WebSocket.exchanged, Event.isExchange]
  have hcalm : failures (r.trace ++ [Event.control]) = [] := by
    rw [failures, filterMap_append]
    exact append_eq_nil_iff.mpr ⟨h.quiet.calm, rfl⟩
  have hwh : Event.cutShort ∉ r.trace ++ [Event.control] := by simpa using h.quiet.whole
  have huncl : Event.closed ∉ r.trace ++ [Event.control] := by simpa using h.quiet.unclosed
  have hrd : controlReads (r.trace ++ [Event.control]) = r.audit.inboundControlFrameCount + 1 := by
    rw [← h.quiet.control]
    simp [controlReads]
  refine ⟨fun _ => ?_, fun hroom => ?_⟩
  · -- one frame more than counted: the run ends here
    have hmax := h.kept.control
    refine ⟨phase, sent, texts, tail, .controlFrameLimitReached, h.kept.congr rfl rfl, h.pending, ?_⟩
    refine ⟨?_, fun _ => ?_, ?_, ?_, rfl, rfl⟩
    · show exchanged (r.trace ++ [Event.control] ++ [Event.failed .controlFrameLimitReached]) = _
      rw [← hexchanged]
      simp [WebSocket.exchanged, Event.isExchange]
    · show (failures (r.trace ++ [Event.control] ++ [Event.failed .controlFrameLimitReached])).head? = _
      have hnone : (r.trace ++ [Event.control]).filterMap Event.failure? = [] := hcalm
      rw [failures, filterMap_append, hnone]
      rfl
    · show Event.closed ∉ r.trace ++ [Event.control] ++ [Event.failed .controlFrameLimitReached]
      simpa using h.quiet.unclosed
    · show controlReads (r.trace ++ [Event.control] ++ [Event.failed .controlFrameLimitReached]) ≤ _
      have : controlReads (r.trace ++ [Event.control] ++ [Event.failed .controlFrameLimitReached]) =
          controlReads (r.trace ++ [Event.control]) := by simp [controlReads]
      omega
  · have hroom := not_controlFramesReached hvalid h.kept hroom
    refine ⟨⟨{ h.kept with control := ?_ }, ⟨hexchanged, hcalm, hwh, huncl, hrd⟩,
      h.pending⟩, rfl, rfl⟩
    show r.audit.outboundControlFrameCount + (r.audit.inboundControlFrameCount + 1) ≤ _
    omega

theorem observeInboundControlAndFlush_spec (hvalid : policy.Valid)
    (h : Going s policy phase sent texts tail r) (hph : phase.connections = 1) :
    wp (observeInboundControlAndFlush s) (fun _ r' => Going s policy phase sent texts tail r' ∧
        r'.audit.inboundControlFrameCount = r.audit.inboundControlFrameCount + 1)
      (fun _ r' => Stopped s policy r') False r := by
  unfold observeInboundControlAndFlush countOutboundControl
  simp only [↓wp_rules, wp_refuse]
  refine wp_imp (observeInboundControl_spec hvalid h) fun _ q hq => ?_
  obtain ⟨hgo, -, hcnt⟩ := hq
  refine ⟨fun _ => hgo.stopped (failing_failed _ _), fun hroom => ?_⟩
  have hroom := not_controlFramesReached hvalid hgo.kept hroom
  refine wp_imp (exchange_going hvalid hgo hph false []) fun turn r' hr' => ?_
  obtain ⟨-, -, hmv, hgo'⟩ := hr'
  refine ⟨fun _ => hgo'.stopped (failing_failed _ _), fun _ => ⟨hgo'.outboundControl ?_, ?_⟩⟩
  · rw [hmv.audit]
    exact hroom
  · show r'.audit.inboundControlFrameCount = _
    rw [hmv.audit]
    exact hcnt

/-- The peer's closing frame: the run replies, and reports that it was closed. -/
theorem close_spec (hvalid : policy.Valid) (h : Going s policy phase sent texts tail r)
    (hph : phase.connections = 1) :
    wp (flushClose s) (fun _ r' => Stopped s policy (r'.failed .peerClosed))
      (fun _ r' => Stopped s policy r') False (r.noted (.failed .peerClosed)) := by
  have hkept : Kept s policy phase sent texts (r.noted (.failed .peerClosed)) := h.kept.congr rfl rfl
  have hfall : Falling policy texts tail .peerClosed (r.noted (.failed .peerClosed)) :=
    h.quiet.falling h.kept rfl
  have hstop : ∀ r' : Review, Kept s policy phase sent texts r' →
      Falling policy texts tail .peerClosed r' → Stopped s policy (r'.failed .peerClosed) :=
    fun r' hkept' hfall' => ⟨phase, sent, texts, tail, .peerClosed,
      hkept'.failing (failing_failed _ _), h.pending, hfall'.ended (failing_failed _ _)⟩
  unfold flushClose countOutboundControl
  simp only [↓wp_rules]
  refine ⟨fun hroom => ?_, fun _ => hstop _ hkept hfall⟩
  have hroom := not_controlFramesReached hvalid hkept (by simpa using hroom)
  refine wp_imp (cleanup_falling hvalid hkept hph h.pending hfall) fun turn r' hr' => ?_
  obtain ⟨hkept', hfall', -, -, hout, hin⟩ := hr'
  refine ⟨fun _ => ?_, fun _ => hstop _ hkept' hfall'⟩
  exact hstop _ (hkept'.outboundControl (by rw [hout, hin]; exact hroom)) hfall'.outboundControl

/-! ### Responses -/

theorem Quiet.exchange {event : Event} (h : Quiet texts tail r) (hev : event.isExchange = true) :
    Quiet texts (tail ++ [event]) (r.noted event) := by
  have hwh := h.whole
  have huncl := h.unclosed
  constructor
  · show WebSocket.exchanged (r.trace ++ [event]) = _
    rw [← append_assoc, ← h.exchanged, WebSocket.exchanged, filter_append]
    simp [WebSocket.exchanged, hev]
  · show failures (r.trace ++ [event]) = []
    rw [failures, filterMap_append]
    refine append_eq_nil_iff.mpr ⟨h.calm, ?_⟩
    cases event <;> simp_all [Event.isExchange, Event.failure?]
  · show Event.cutShort ∉ r.trace ++ [event]
    cases event <;> simp_all [Event.isExchange]
  · show Event.closed ∉ r.trace ++ [event]
    cases event <;> simp_all [Event.isExchange]
  · show controlReads (r.trace ++ [event]) = r.audit.inboundControlFrameCount
    rw [← h.control]
    cases event <;> simp_all [Event.isExchange, controlReads]

variable {before : List WebSocketReviewMessage} {message : WebSocketReviewMessage}

/-- The row of the message that waits for its response. -/
theorem Kept.row_awaited (h : Kept s policy phase (before ++ [message]) texts r)
    (hlength : texts.length = before.length) :
    r.audit.messages[texts.length]? = some { message.row with status := .sentNoResponse } := by
  rw [h.rows, rowsOf_snoc _ _ _ hlength, hlength, append_assoc, getElem?_append_right (by simp)]
  simp

theorem Kept.set_awaited (h : Kept s policy phase (before ++ [message]) texts r)
    (hlength : texts.length = before.length) (payload : Bytes) :
    r.audit.messages.set texts.length
        (answeredRow message.row payload (responseMatches s message.runtime payload)) =
      rowsOf s (before ++ [message]) (texts ++ [payload]) ++
        (policy.messages.drop (before ++ [message]).length).map (·.row) := by
  rw [h.rows, rowsOf_snoc _ _ _ hlength, rowsOf_answered _ _ _ _ hlength, hlength,
    append_assoc, set_append_right _ _ (by simp)]
  simp

theorem observeApplicationPayload_spec (hvalid : policy.Valid) {payload : Bytes}
    (hlength : texts.length = before.length)
    (h : Going s policy .established (before ++ [message]) texts [.sending texts.length] r)
    (hdel : (texts.map (·.length)).sum + payload.length ≤ textTotal s.peer r.turn) :
    wp (observeApplicationPayload s message.runtime texts.length payload)
      (fun _ r' => Going s policy .established (before ++ [message]) (texts ++ [payload]) [] r')
      (fun _ r' => Stopped s policy r') False (r.noted (.text payload)) := by
  have hqt : Quiet texts [.sending texts.length, .text payload] (r.noted (.text payload)) :=
    h.quiet.exchange rfl
  have hkept : Kept s policy .established (before ++ [message]) texts (r.noted (.text payload)) :=
    h.kept.congr rfl rfl
  have hsent : (before ++ [message]).length = texts.length + 1 := by
    rw [length_append, hlength, length_singleton]
  have hcnt : (before ++ [message]).length ≤ policy.limits.maxMessages :=
    hkept.sentFirst.length_le.trans hvalid.count
  have htot := hkept.total
  have hu64 : maxDirectionBytes < u64Max := by decide
  have hsame : maxApplicationBytesPerDirection = maxDirectionBytes := rfl
  unfold observeApplicationPayload
  simp only [↓wp_rules, wp_refuse, hkept.inbound, hkept.limits, hkept.inboundBytes,
    WebSocketReviewPolicy.executionLimits, hkept.row_awaited hlength]
  refine ⟨fun hlimit => by omega, fun _ => ⟨fun hlong => ?_, fun hfits => ?_⟩⟩
  · have hlimit : policy.limits.maxInboundMessageBytes < payload.length ∨
        maxApplicationBytesPerDirection < (texts.map (·.length)).sum + payload.length := by
      unfold saturatingAdd at hlong
      omega
    exact Going.stopped ⟨hkept, hqt, .refused hsent payload hlimit⟩ (failing_failed _ _)
  · have hnext : saturatingAdd u64Max (texts.map (·.length)).sum payload.length =
        ((texts ++ [payload]).map (·.length)).sum := by
      rw [map_append, sum_append, map_singleton, sum_singleton]
      unfold saturatingAdd at hfits ⊢
      omega
    have hbs : ((texts ++ [payload]).map (·.length)).sum =
        (texts.map (·.length)).sum + payload.length := by
      rw [map_append, sum_append, map_singleton, sum_singleton]
    rw [hnext] at hfits ⊢
    refine ⟨{ hkept with
      limits := rfl
      inbound := by rw [length_append, length_singleton]
      inboundBytes := rfl
      rows := hkept.set_awaited hlength payload
      awaited := by
        rw [length_append, length_singleton, hsent]
      total := by omega
      delivered := hbs ▸ hdel }, { hqt with exchanged := ?_ }, .paired ?_⟩
    · show exchanged (r.noted (.text payload)).trace = _
      rw [hqt.exchanged, pairedEvents_snoc, append_nil]
    · rw [hsent, length_append, length_singleton]

/-- The response loop pairs the message with one text, or the run ends: a
control frame is counted in every turn but the last. -/
theorem readResponse_spec (hvalid : policy.Valid) (hlength : texts.length = before.length) :
    ∀ (turns : Nat) (r : Review),
    Going s policy .established (before ++ [message]) texts [.sending texts.length] r →
    policy.limits.maxControlFrames < r.audit.inboundControlFrameCount + turns →
    wp (readResponse s message.runtime texts.length turns) (fun _ r' => ∃ payload,
        Going s policy .established (before ++ [message]) (texts ++ [payload]) [] r')
      (fun _ r' => Stopped s policy r') False r
  | 0, r, h, hturns => by
    have := h.kept.control
    omega
  | turns + 1, r, h, hturns => by
    simp only [readResponse, ↓wp_bind]
    refine wp_imp (exchange_going hvalid h rfl true []) fun turn q hq => ?_
    obtain ⟨rfl, hnone, hmv, hgo⟩ := hq
    have hcnt : q.audit.inboundControlFrameCount = r.audit.inboundControlFrameCount := by
      rw [hmv.audit]
      rfl
    cases hrec : (s.peer r.turn).received with
    | capacityError => exact hgo.stopped (failing_failed _ _)
    | otherError => exact hgo.stopped (failing_failed _ _)
    | ended => exact hgo.stopped (failing_failed _ _)
    | message received =>
      cases received with
      | text payload =>
        simp only [↓wp_bind, wp_note]
        refine wp_imp (observeApplicationPayload_spec hvalid hlength hgo ?_)
          (fun _ r' hr' => ⟨payload, hr'⟩)
        have hbs : (s.peer r.turn).textBytes = payload.length := by
          simp [Turn.textBytes, hnone, hrec]
        rw [hmv.turn, textTotal_succ, hbs]
        exact Nat.add_le_add_right h.kept.delivered _
      | binary => exact hgo.stopped (failing_failed _ _)
      | ping =>
        simp only [↓wp_bind]
        refine wp_imp (observeInboundControlAndFlush_spec hvalid hgo rfl) fun _ r' hr' => ?_
        exact readResponse_spec hvalid hlength turns r' hr'.1 (by omega)
      | pong =>
        simp only [↓wp_bind]
        refine wp_imp (observeInboundControl_spec hvalid hgo) fun _ r' hr' => ?_
        exact readResponse_spec hvalid hlength turns r' hr'.1 (by omega)
      | close =>
        simp only [↓wp_bind, wp_note, wp_refuse]
        refine wp_imp (observeInboundControl_spec hvalid hgo) fun _ r' hr' => ?_
        exact close_spec hvalid hr'.1 rfl
      | frame => exact hgo.stopped (failing_failed _ _)

/-! ### Messages -/

/-- The next message is sent. -/
theorem countSent_spec (hvalid : policy.Valid) (hlength : texts.length = before.length)
    (hnext : before ++ [message] <+: policy.messages)
    (h : Going s policy .established before texts [.sending texts.length] r)
    (hwr : r.audit.outboundApplicationBytes + message.text.length ≤ r.audit.transportWriteBytes) :
    wp (countSent texts.length)
      (fun _ r' => Going s policy .established (before ++ [message]) texts [.sending texts.length] r' ∧
        r'.audit.inboundControlFrameCount = r.audit.inboundControlFrameCount)
      (fun _ r' => Stopped s policy r') False r := by
  obtain ⟨unsent, hmsgs⟩ := hnext
  have hdrop : policy.messages.drop before.length = message :: unsent := by
    rw [← hmsgs, append_assoc, drop_left]
    rfl
  have hrows : r.audit.messages = rowsOf s before texts ++ message.row :: unsent.map (·.row) := by
    rw [h.kept.rows, hdrop, map_cons]
  have hrow : r.audit.messages[texts.length]? = some message.row := by
    rw [hrows, hlength, getElem?_append_right (by simp)]
    simp
  have hbs : ((before ++ [message]).map fun message => message.text.length).sum =
      (before.map fun message => message.text.length).sum + message.text.length := by
    simp
  have hle := sentBytes_le hvalid ⟨unsent, hmsgs⟩
  have hu64 : maxDirectionBytes ≤ u64Max := by decide
  have hsum : saturatingAdd u64Max r.audit.outboundApplicationBytes message.row.outboundLength =
      ((before ++ [message]).map fun message => message.text.length).sum := by
    have hbef := h.kept.outboundBytes
    simp only [WebSocketReviewMessage.row, saturatingAdd]
    omega
  unfold countSent
  simp only [↓wp_rules, hrow, hsum]
  refine ⟨⟨{ h.kept with
    outbound := ?_
    outboundBytes := rfl
    rows := ?_
    sentFirst := ⟨unsent, hmsgs⟩
    awaited := ?_
    written := ?_
    unsent := by intros; contradiction }, { h.quiet with }, .awaited (by simp [hlength])⟩, trivial⟩
  · show r.audit.outboundMessageCount + 1 = _
    rw [h.kept.outbound, length_append, length_singleton]
  · show r.audit.messages.set texts.length _ = _
    rw [hrows, hlength, rowsOf_snoc _ _ _ hlength, set_append_right _ _ (by simp)]
    simp [← hmsgs]
  · rw [length_append, hlength]
    exact Nat.le_add_right _ _
  · show _ ≤ r.audit.transportWriteBytes
    rw [hbs, ← h.kept.outboundBytes]
    exact hwr

/-- The messages are sent and paired in order, or the run ends. -/
theorem sendMessages_spec (hframed : s.Framed) (hvalid : policy.Valid) :
    ∀ (unsent sent : List WebSocketReviewMessage) (texts : List Bytes) (r : Review),
    policy.messages = sent ++ unsent → texts.length = sent.length →
    Going s policy .established sent texts [] r →
    wp (sendMessages s (unsent.map (·.runtime)) sent.length)
      (fun _ r' => ∃ texts', Going s policy .established policy.messages texts' [] r')
      (fun _ r' => Stopped s policy r') False r
  | [], sent, texts, r, hmsgs, _, h => by
    rw [append_nil] at hmsgs
    exact ⟨texts, hmsgs ▸ h⟩
  | message :: unsent, sent, texts, r, hmsgs, hlength, h => by
    have hfirst : sent ++ [message] <+: policy.messages :=
      ⟨unsent, by rw [hmsgs, append_assoc]; rfl⟩
    have hcnt : sent.length < policy.limits.maxMessages := by
      have hall := hvalid.count
      rw [hmsgs, length_append, length_cons] at hall
      omega
    have hsen : Going s policy .established sent texts [.sending texts.length]
        (r.noted (.sending sent.length)) := by
      rw [← hlength]
      exact ⟨h.kept.congr rfl rfl, h.quiet.exchange rfl, .unsent hlength.symm⟩
    simp only [map_cons, sendMessages, ↓wp_rules, wp_fail, wp_note, wp_refuse, h.kept.outbound,
      h.kept.limits, WebSocketReviewPolicy.executionLimits]
    refine ⟨fun hlimit => absurd hcnt (Nat.not_lt.mpr hlimit), fun _ => ?_⟩
    refine wp_imp (exchange_going hvalid hsen rfl true message.text) fun turn q hq => ?_
    obtain ⟨rfl, hnone, hmv, hgo⟩ := hq
    refine ⟨fun _ => hgo.stopped (failing_failed _ _), fun hsucc => ?_⟩
    have hwr : q.audit.outboundApplicationBytes + message.text.length ≤
        q.audit.transportWriteBytes := by
      have hsend := hframed.sends r.turn message.text hnone
        (by simpa only [Review.noted, Bool.not_eq_true', Bool.not_eq_false] using hsucc)
      have hbef := hsen.kept.written
      have hsent := sentBytes_le hvalid hfirst
      have hbs := hsen.kept.outboundBytes
      have hu64 : maxDirectionBytes ≤ u64Max := by decide
      rw [map_append, sum_append, map_singleton, sum_singleton] at hsent
      rw [hmv.audit]
      simp only [WebSocketReviewAudit.transported, saturatingAdd, Review.noted] at hbef hbs ⊢
      omega
    rw [← hlength]
    refine wp_imp (countSent_spec hvalid hlength hfirst hgo hwr) fun _ r' hr' => ?_
    refine wp_imp (readResponse_spec hvalid hlength _ r' hr'.1 (by omega)) fun _ r'' hr'' => ?_
    obtain ⟨payload, hpaired⟩ := hr''
    have hnext := sendMessages_spec hframed hvalid unsent (sent ++ [message]) (texts ++ [payload]) r''
      (by rw [hmsgs, append_assoc]; rfl) (by simp [hlength]) hpaired
    rw [length_append, length_singleton, ← hlength] at hnext
    exact hnext

/-! ### The whole run -/

/-- Every message was sent and paired, and the connection closed. -/
structure Finished (s : Session) (policy : WebSocketReviewPolicy) (texts : List Bytes) (r : Review) :
    Prop where
  kept : Kept s policy .established policy.messages texts r
  paired : policy.messages.length = texts.length
  exchanged : exchanged r.trace = pairedEvents texts
  calm : failures r.trace = []
  closed : Event.closed ∈ r.trace
  control : controlReads r.trace ≤ policy.limits.maxControlFrames
  terminal : r.audit.terminal = .completed
  failure : r.audit.failure = none

theorem sendClose_spec (hvalid : policy.Valid)
    (h : Going s policy .established policy.messages texts [] r) :
    wp (sendClose s) (fun _ r' => Finished s policy texts { r' with audit := { r'.audit with
        terminal := .completed, failure := none } })
      (fun _ r' => Stopped s policy r') False r := by
  unfold sendClose countOutboundControl
  simp only [↓wp_rules, wp_refuse, wp_note]
  refine ⟨fun _ => h.stopped (failing_failed _ _), fun hroom => ?_⟩
  have hroom := not_controlFramesReached hvalid h.kept hroom
  refine wp_imp (exchange_going hvalid h rfl false []) fun turn q hq => ?_
  obtain ⟨-, -, hmv, hgo⟩ := hq
  refine ⟨fun _ => hgo.stopped (failing_failed _ _), fun _ => ?_⟩
  have hkept := hgo.kept.outboundControl (by rw [hmv.audit]; exact hroom)
  have hcontrol := hgo.quiet.control
  have hmax := hgo.kept.control
  refine
    { kept := hkept.congr rfl rfl
      paired := ?_
      exchanged := ?_
      calm := ?_
      closed := mem_append_right _ mem_cons_self
      control := ?_
      terminal := rfl
      failure := rfl }
  · cases hgo.pending with
    | paired hpaired => exact hpaired
  · show exchanged (q.trace ++ [Event.closed]) = _
    rw [← append_nil (pairedEvents texts), ← hgo.quiet.exchanged]
    simp [exchanged, Event.isExchange]
  · show failures (q.trace ++ [Event.closed]) = []
    rw [failures, filterMap_append]
    exact append_eq_nil_iff.mpr ⟨hgo.quiet.calm, rfl⟩
  · show controlReads (q.trace ++ [Event.closed]) ≤ _
    have : controlReads (q.trace ++ [Event.closed]) = controlReads q.trace := by simp [controlReads]
    omega

theorem Going.connecting (h : Going s policy .admitted [] [] [] r) :
    Going s policy .connecting [] [] []
      { r with audit := { r.audit with connectionAttemptCount := 1 } } :=
  ⟨{ h.kept with
      connections := rfl
      negotiated := fun hsome => by cases (h.kept.negotiated hsome).2
      idle := nofun
      unsent := fun _ => rfl }, { h.quiet with }, h.pending⟩

theorem Going.established (h : Going s policy .connecting [] [] [] r) :
    Going s policy .established [] [] []
      { r with audit := { r.audit with handshakeCompletedCount := 1 } } :=
  ⟨{ h.kept with
      handshakes := rfl
      negotiated := fun hsome => ⟨(h.kept.negotiated hsome).1, rfl⟩
      idle := nofun
      unsent := fun _ => rfl }, { h.quiet with }, h.pending⟩

theorem Going.negotiated (h : Going s policy .established [] [] [] r) :
    Going s policy .established [] [] []
      { r with audit := { r.audit with subprotocolNegotiated := policy.subprotocol.isSome } } :=
  ⟨{ h.kept with negotiated := fun hsome => ⟨h.kept.requested.trans hsome, rfl⟩ }, { h.quiet with },
    h.pending⟩

/-- The session runs what the policy minted. -/
def Session.Mints (s : Session) (policy : WebSocketReviewPolicy) : Prop :=
  WebSocketReviewRuntime.new policy = .ok s.runtime

theorem halt_going {α : Type} (h : Going s policy phase sent texts tail r) (stop : StepStop)
    (ok : α → Review → Prop) :
    wp (halt stop : ReviewCommand α) ok (fun _ r' => Stopped s policy r') False r :=
  wp_mono (halt_spec stop) (fun _ _ he => he.elim)
    (fun _ _ hfailing => hfailing.elim fun _ hkind => h.stopped hkind) id

theorem executeWithLease_spec (hframed : s.Framed) (hvalid : policy.Valid) (hmints : s.Mints policy)
    (h : Going s policy .admitted [] [] [] r) :
    wp (executeWithLease s) (fun _ r' => ∃ texts, Finished s policy texts r')
      (fun _ r' => Stopped s policy r') False r := by
  have hrunt : s.runtime.messages = policy.messages.map (·.runtime) ∧
      s.runtime.subprotocol = policy.subprotocol := by
    have hnew := (new_eq_ok hvalid).symm.trans hmints
    rw [← Except.ok.inj hnew]
    exact ⟨rfl, rfl⟩
  unfold executeWithLease
  cases s.opening.request with
  | error failure => exact h.stopped (failing_failed _ _)
  | ok _ =>
  simp only [↓wp_rules, wp_refuse]
  refine ⟨fun _ => h.stopped (failing_failed _ _), fun _ =>
    ⟨fun _ => h.stopped (failing_failed _ _), fun _ => ?_⟩⟩
  rcases s.opening.resolved with stop | _ | addresses
  · exact halt_going h stop _
  · exact h.stopped (failing_failed _ _)
  simp only [↓wp_rules, wp_refuse]
  refine ⟨fun _ => h.stopped (failing_failed _ _), fun _ => ?_⟩
  have hconn := h.connecting
  rcases s.opening.connected with stop | _ | _
  · exact halt_going hconn stop _
  · exact hconn.stopped (failing_failed _ _)
  simp only [↓wp_bind]
  refine wp_imp (exchange_going hvalid hconn rfl true []) fun turn q hq => ?_
  obtain ⟨-, -, -, hgo⟩ := hq
  cases s.opening.handshake with
  | error error => exact hgo.stopped (failing_failed _ _)
  | ok response =>
  have hest := hgo.established
  simp only [↓wp_rules, wp_fail]
  refine ⟨fun _ => ?_, fun _ => ⟨fun _ => ?_, fun _ => ?_⟩⟩
  · exact wp_imp (fail_then_close_spec hvalid hest rfl _ _) (fun _ _ he => he.elim)
  · exact wp_imp (fail_then_close_spec hvalid hest rfl _ _) (fun _ _ he => he.elim)
  · rw [hrunt.1, hrunt.2]
    refine wp_imp (sendMessages_spec hframed hvalid policy.messages [] [] _ rfl rfl
      hest.negotiated) (fun _ r' hr' => ?_)
    obtain ⟨texts, hpaired⟩ := hr'
    exact wp_imp (sendClose_spec hvalid hpaired) (fun _ r'' hr'' => ⟨texts, hr''⟩)

/-- The start of a review. -/
def WebSocketReviewPolicy.start (policy : WebSocketReviewPolicy) (snapshot : RequestAccountingSnapshot) :
    Review := { audit := policy.initialAudit, snapshot }

/-- How a review ends. -/
theorem executeInner_spec (hframed : s.Framed) (hvalid : policy.Valid) (hmints : s.Mints policy)
    (snapshot : RequestAccountingSnapshot) :
    wp (executeInner s) (fun _ r' => Stopped s policy r' ∨ ∃ texts, Finished s policy texts r')
      (fun _ _ => False) False (policy.start snapshot) := by
  have hidle : Going s policy .idle [] [] [] (policy.start snapshot) :=
    ⟨Kept.initial s policy snapshot, ⟨rfl, rfl, (by rintro ⟨⟩), (by rintro ⟨⟩), rfl⟩, .paired rfl⟩
  have hattd : Going s policy .attempted [] [] [] { policy.start snapshot with
      audit := { policy.initialAudit with requestAttemptCount := 1 } } :=
    ⟨{ hidle.kept with
        attempts := rfl
        negotiated := by intros; contradiction
        idle := fun _ => ⟨rfl, rfl⟩
        unsent := fun _ => rfl }, { hidle.quiet with }, hidle.pending⟩
  unfold executeInner
  cases lesserDeadline s.opening.localDeadline s.opening.parentDeadline with
  | none => exact .inl (hidle.stopped (failing_failed _ _))
  | some deadline =>
  simp only [↓wp_rules, wp_fail]
  refine ⟨fun _ => .inl (hidle.stopped (failing_failed _ _)), fun _ =>
    ⟨fun _ => .inl (hidle.stopped (failing_failed _ _)), fun _ => ?_⟩⟩
  cases Runtime.checkRequestLimits _ s.budget reviewActionId .passive 0 with
  | error _ => exact .inl (hattd.stopped (failing_failed _ _))
  | ok _ =>
    simp only [↓wp_rules, ↓wp_attempt]
    have hadmitted : Going s policy .admitted [] [] [] { policy.start snapshot with
        audit := { policy.initialAudit with requestAttemptCount := 1, requestAdmittedCount := 1 }
        snapshot := Runtime.recordDispatch snapshot .passive none 0 } :=
      ⟨{ hattd.kept with
          admitted := rfl
          negotiated := by intros; contradiction
          idle := fun _ => ⟨rfl, rfl⟩
          unsent := fun _ => rfl }, { hattd.quiet with }, hattd.pending⟩
    refine wp_mono (executeWithLease_spec hframed hvalid hmints hadmitted) (fun _ r' hr' => ?_)
      (fun _ r' hr' => ?_) id
    · obtain ⟨texts, hfin⟩ := hr'
      exact .inr ⟨texts, { hfin with kept := hfin.kept.congr rfl rfl }⟩
    · obtain ⟨phase, sent, texts, tail, kind, hkept, hpend, hend⟩ := hr'
      exact .inl ⟨phase, sent, texts, tail, kind, hkept.congr rfl rfl, hpend, { hend with }⟩

end Termivar.WebSocket
