/-
# A WebSocket review as a whole

For every accepted policy, every peer and every cancellation, the review ends
with an audit that passes its own check. It counts no more control frames
than the policy allows, sends a message only when the one before is paired,
and is completed exactly when every message is paired and the connection was
closed. It reports the first step that failed, unless a clean-up step after
it was cut short.
-/
import Termivar.WebSocket.Run

namespace Termivar.WebSocket

open Command List
open Termivar.Runtime (RequestAccountingSnapshot RuntimeBudget)

variable {s : Session} {policy : WebSocketReviewPolicy} {r : Review}

theorem answered_rowsOf : ∀ (sent : List WebSocketReviewMessage) (texts : List Bytes),
    sent.length = texts.length → ∀ row ∈ rowsOf s sent texts, row.inboundLength.isSome = true
  | [], _, _ => nofun
  | _ :: sent, _ :: texts, h =>
    forall_mem_cons.mpr ⟨rfl, answered_rowsOf sent texts (by simpa using h)⟩

theorem terminalIsConsistent_of_failure {kind : WebSocketReviewFailureKind}
    (hfail : r.audit.failure = some kind) (hterm : r.audit.terminal = kind.terminal) :
    r.audit.terminalIsConsistent = true := by
  have hcomp := kind.terminal_ne_completed
  simp [WebSocketReviewAudit.terminalIsConsistent, hfail, hterm, hcomp]

theorem Finished.terminalIsConsistent {texts : List Bytes} (h : Finished s policy texts r) :
    r.audit.terminalIsConsistent = true := by
  simp [WebSocketReviewAudit.terminalIsConsistent, h.terminal, h.failure, h.kept.outbound,
    h.kept.inbound, h.kept.configured, h.paired]

/-- What a review shows at its end. -/
structure Reviewed (s : Session) (policy : WebSocketReviewPolicy) (r : Review) : Prop where
  /-- The audit passes its check. -/
  consistent : r.audit.isConsistent = true
  /-- The control frames of both directions are within their limit. -/
  counted : r.audit.outboundControlFrameCount + r.audit.inboundControlFrameCount ≤
    policy.limits.maxControlFrames
  /-- The response loop reads at most the frame that is refused in addition. -/
  control : controlReads r.trace ≤ policy.limits.maxControlFrames + 1
  /-- A message is sent when the one before it is paired with one text, and
  the rows are the texts in order. -/
  paired : ∃ sent texts tail, sent <+: policy.messages ∧
    exchanged r.trace = pairedEvents texts ++ tail ∧ Pending policy sent texts tail ∧
    r.audit.messages = rowsOf s sent texts ++ (policy.messages.drop sent.length).map (·.row)
  /-- The review is completed when every message was paired and the closing
  frame sent. -/
  completed : r.audit.terminal = .completed ↔
    (∀ row ∈ r.audit.messages, row.inboundLength.isSome = true) ∧ Event.closed ∈ r.trace
  /-- The first step that failed is reported. -/
  first : Event.cutShort ∉ r.trace → r.audit.failure = (failures r.trace).head?

theorem Stopped.reviewed (hframed : s.Framed) (hvalid : policy.Valid) (h : Stopped s policy r) :
    Reviewed s policy r := by
  obtain ⟨phase, sent, texts, tail, kind, hkept, hpend, hend⟩ := h
  refine
    { consistent := hkept.isConsistent hframed hvalid
        (terminalIsConsistent_of_failure hend.failure hend.terminal)
      counted := hkept.control
      control := hend.control
      paired := ⟨sent, texts, tail, hkept.sentFirst, hend.exchanged, hpend, hkept.rows⟩
      completed := ⟨fun hcomp => ?_, fun hclosed => absurd hclosed.2 hend.unclosed⟩
      first := fun hwh => hend.failure.trans (hend.first hwh).symm }
  exact absurd (hend.terminal.symm.trans hcomp) kind.terminal_ne_completed

theorem Finished.reviewed (hframed : s.Framed) (hvalid : policy.Valid) {texts : List Bytes}
    (h : Finished s policy texts r) : Reviewed s policy r := by
  refine
    { consistent := h.kept.isConsistent hframed hvalid h.terminalIsConsistent
      counted := h.kept.control
      control := h.control.trans (Nat.le_succ _)
      paired := ⟨policy.messages, texts, [], prefix_refl _, ?_, .paired h.paired, h.kept.rows⟩
      completed := ⟨fun _ => ⟨?_, h.closed⟩, fun _ => h.terminal⟩
      first := fun _ => ?_ }
  · rw [h.exchanged, append_nil]
  · rw [h.kept.rows, drop_length, map_nil, append_nil]
    exact answered_rowsOf policy.messages texts h.paired
  · rw [h.failure, h.calm]
    rfl

/-- **Every review ends in a consistent audit.** -/
theorem review_consistent {validateEndpoint : String → Except WebSocketReviewPolicyError Url}
    {wire : WirePolicy} (haccept : WebSocketReviewPolicy.accept s.sha256 validateEndpoint wire =
      .ok policy) (hmints : s.Mints policy) (hframed : s.Framed)
    (snapshot : RequestAccountingSnapshot) :
    ∃ r, executeInner s (policy.start snapshot) = .ok () r ∧ Reviewed s policy r := by
  have hvalid := WebSocketReviewPolicy.valid_of_accept haccept
  have hspec := executeInner_spec hframed hvalid hmints snapshot
  unfold wp at hspec
  cases hrun : executeInner s (policy.start snapshot) with
  | ok _ r =>
    rw [hrun] at hspec
    obtain hstop | ⟨texts, hfin⟩ := hspec
    · exact ⟨r, rfl, hstop.reviewed hframed hvalid⟩
    · exact ⟨r, rfl, hfin.reviewed hframed hvalid⟩
  | error _ _ =>
    rw [hrun] at hspec
    exact hspec.elim
  | panic =>
    rw [hrun] at hspec
    exact hspec.elim

/-! ### Sample reviews -/

/-- The digest of the empty text, and of no other. -/
def sampleSha256 (bytes : Bytes) : Bytes :=
  if bytes.isEmpty then
    [0xe3, 0xb0, 0xc4, 0x42, 0x98, 0xfc, 0x1c, 0x14, 0x9a, 0xfb, 0xf4, 0xc8, 0x99, 0x6f, 0xb9, 0x24,
      0x27, 0xae, 0x41, 0xe4, 0x64, 0x9b, 0x93, 0x4c, 0xa4, 0x95, 0x99, 0x1b, 0x78, 0x52, 0xb8, 0x55]
  else replicate 32 0

def sampleEndpoint : Url where
  text := "ws://127.0.0.1:9/"
  scheme := "ws"
  host := some (.ipv4 2130706433)
  port := some 9
  path := "/"
  query := none
  fragment := none
  username := ""
  password := none

/-- One message `a`, to be answered by an empty text, and one control frame. -/
def sampleWire : WirePolicy where
  schema := "security.websocket-review-policy/v1"
  targetAuthorized := true
  messagesReadOnlyAcknowledged := true
  messageContentIsNonSecret := true
  endpoint := "ws://127.0.0.1:9/"
  originMode := "omit"
  subprotocol := none
  compression := false
  reconnect := false
  messages := [{
    id := [97]
    text := [97]
    sha256 := utf8Bytes "e3b0c44298fc1c149afbf4c8996fb92427ae41e4649b934ca495991b7852b855"
    length := 0 }]
  limits := {
    maxInboundMessageBytes := 16
    maxOutboundMessageBytes := 16
    maxMessages := 1
    maxControlFrames := 1
    maxWallTimeMs := 1000 }

def samplePolicy : WebSocketReviewPolicy where
  endpoint := sampleEndpoint
  originMode := .omit
  subprotocol := none
  messages := [{
    text := [97]
    expectedResponseSha256 := sampleSha256 []
    expectedResponseLength := 0
    messageReference :=
      digestReference sampleSha256 "termivar.websocket-review.message-reference.v1\x00"
        "websocket-message-revision-sha256" [[97]]
    expectedResponseReference :=
      digestReference sampleSha256 "termivar.websocket-review.expected-response-reference.v1\x00"
        "websocket-expected-response-revision-sha256" [[97], beBytes 8 0] }]
  limits := sampleWire.limits

/-- A session whose peer answers the handshake with the given headers and then
takes the given turns. -/
theorem one_le_u32Max : 1 ≤ u32Max := by decide

theorem page_le_u64Max : 4096 ≤ u64Max := by decide

def sampleSession (extensions : Bool) (turns : List Turn) : Session where
  sha256 := sampleSha256
  runtime :=
    { endpoint := sampleEndpoint
      subprotocol := none
      messages := samplePolicy.messages.map (·.runtime)
      audit := samplePolicy.initialAudit }
  budget := ⟨1, 4096, 0, 0, one_le_u32Max, page_le_u64Max, by decide, by decide⟩
  opening :=
    { localDeadline := some 1000
      parentDeadline := none
      cancelled := false
      now := 0
      request := .ok ()
      resolved := .ok (some [2130706433])
      connected := .ok true
      handshake := .ok { extensions, subprotocol := none } }
  peer n := turns.getD n {}

theorem sampleWire_accepted : WebSocketReviewPolicy.accept sampleSha256
    (fun _ => .ok sampleEndpoint) sampleWire = .ok samplePolicy := by
  rfl

theorem sampleSession_mints (extensions : Bool) (turns : List Turn) :
    (sampleSession extensions turns).Mints samplePolicy := by
  rfl

/-- Turns that write what they send and deliver no bytes of text. -/
theorem sampleSession_framed (extensions : Bool) {turns : List Turn}
    (h : ∀ turn ∈ turns, (∀ text, text.length ≤ turn.written text) ∧ turn.textBytes = 0) :
    (sampleSession extensions turns).Framed := by
  have hturn : ∀ n, (∀ text, text.length ≤ ((sampleSession extensions turns).peer n).written text) ∧
      ((sampleSession extensions turns).peer n).textBytes = 0 := by
    intro n
    show (∀ text, _ ≤ (turns.getD n {}).written text) ∧ (turns.getD n {}).textBytes = 0
    rw [getD_eq_getElem?_getD]
    cases hget : turns[n]? with
    | none => exact ⟨fun _ => le_refl _, rfl⟩
    | some turn => exact h turn (mem_of_getElem? hget)
  refine ⟨fun n text _ _ => (hturn n).1 text, fun n => ?_⟩
  have hnone : textTotal (sampleSession extensions turns).peer n = 0 := by
    unfold textTotal
    refine sum_eq_zero fun bytes hmem => ?_
    obtain ⟨k, -, rfl⟩ := mem_map.mp hmem
    exact (hturn k).2
  rw [hnone]
  exact Nat.zero_le _

/-- A peer that answers the message and lets the review close. -/
def answeringPeer : List Turn :=
  [{ read := 129 }, {}, { read := 2, received := .message (.text []) }, {}]

theorem answeringPeer_framed : (sampleSession false answeringPeer).Framed :=
  sampleSession_framed false (by
    simp only [answeringPeer, forall_mem_cons]
    exact ⟨⟨fun _ => le_refl _, rfl⟩, ⟨fun _ => le_refl _, rfl⟩, ⟨fun _ => le_refl _, rfl⟩,
      ⟨fun _ => le_refl _, rfl⟩, nofun⟩)

/-- The sample review is completed. -/
theorem review_consistent_sample :
    (∃ r, executeInner (sampleSession false answeringPeer) (samplePolicy.start {}) = .ok () r ∧
      Reviewed (sampleSession false answeringPeer) samplePolicy r) ∧
    ((reply (executeInner (sampleSession false answeringPeer)) (samplePolicy.start {})).map
      fun q => q.2.audit.terminal) = some .completed :=
  ⟨review_consistent (s := sampleSession false answeringPeer) sampleWire_accepted
    (sampleSession_mints _ _) answeringPeer_framed {}, by decide +kernel⟩

/-- A peer that selects an extension; the closing frame is cancelled. -/
def extendingPeer : List Turn := [{ read := 129 }, { stopped := some .cancelled }]

/-- A peer that sends two pongs instead of a response. -/
def pongingPeer : List Turn :=
  [{ read := 129 }, {}, { read := 2, received := .message .pong },
    { read := 2, received := .message .pong }]

/-- With one control frame allowed, the response loop reads a second one. And
the failure of a clean-up step is reported in place of the first failure. -/
theorem second_control_frame_read_and_first_failure_replaced :
    WebSocketReviewPolicy.accept sampleSha256 (fun _ => .ok sampleEndpoint) sampleWire =
      .ok samplePolicy ∧
    ((sampleSession false pongingPeer).Mints samplePolicy ∧
      (sampleSession false pongingPeer).Framed ∧
      ((reply (executeInner (sampleSession false pongingPeer)) (samplePolicy.start {})).map
        fun q => (decide (controlReads q.2.trace ≤ samplePolicy.limits.maxControlFrames),
          q.2.audit.failure)) = some (false, some .controlFrameLimitReached)) ∧
    (sampleSession true extendingPeer).Mints samplePolicy ∧
      (sampleSession true extendingPeer).Framed ∧
      ((reply (executeInner (sampleSession true extendingPeer)) (samplePolicy.start {})).map
        fun q => ((failures q.2.trace).head?, q.2.audit.failure)) =
        some (some .extensionNegotiationRefused, some .cancelled) := by
  refine ⟨sampleWire_accepted, ⟨sampleSession_mints _ _, sampleSession_framed false ?_,
    by decide +kernel⟩, sampleSession_mints _ _, sampleSession_framed true ?_, by decide +kernel⟩
  · simp only [pongingPeer, List.forall_mem_cons]
    exact ⟨⟨fun _ => le_refl _, rfl⟩, ⟨fun _ => le_refl _, rfl⟩, ⟨fun _ => le_refl _, rfl⟩,
      ⟨fun _ => le_refl _, rfl⟩, nofun⟩
  · simp only [extendingPeer, List.forall_mem_cons]
    exact ⟨⟨fun _ => le_refl _, rfl⟩, ⟨fun _ => le_refl _, rfl⟩, nofun⟩

end Termivar.WebSocket
