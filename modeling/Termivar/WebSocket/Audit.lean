/-
# The audit of a WebSocket review

`termivar-scanner/src/web_runtime/websocket_runtime.rs`: the counters, the
message rows and the terminal state that one review reports, and the check
that recomputes the counters from the rows. The run writes the counters one
at a time, so that an audit at any exit passes the check is something to
prove.
-/
import Termivar.WebSocket.Policy

namespace Termivar.WebSocket

open List

/-! ### Terminals and failures -/

inductive WebSocketReviewTerminal where
  | completed
  | incomplete
  | cancelled
  | deadlineReached
  | limitReached
  | authorityRefused
  deriving DecidableEq

inductive WebSocketReviewFailureKind where
  | authorityAlreadyMinted
  | endpointOutsideAuthority
  | parentAuthorityUnavailable
  | requestConstruction
  | connectionFailed
  | handshakeRejected
  | extensionNegotiationRefused
  | subprotocolNegotiationRefused
  | sendFailed
  | readFailed
  | binaryMessageUnsupported
  | closeFailed
  | peerClosed
  | messageTooLarge
  | messageLimitReached
  | controlFrameLimitReached
  | applicationByteLimitReached
  | parentResponseBudgetReached
  | cancelled
  | deadlineReached
  | internalInvariant
  deriving DecidableEq

def WebSocketReviewFailureKind.terminal : WebSocketReviewFailureKind → WebSocketReviewTerminal
  | .authorityAlreadyMinted | .endpointOutsideAuthority => .authorityRefused
  | .messageTooLarge | .messageLimitReached | .controlFrameLimitReached
  | .applicationByteLimitReached | .parentResponseBudgetReached => .limitReached
  | .cancelled => .cancelled
  | .deadlineReached => .deadlineReached
  | _ => .incomplete

theorem WebSocketReviewFailureKind.terminal_ne_completed (kind : WebSocketReviewFailureKind) :
    kind.terminal ≠ .completed := by
  cases kind <;> decide

/-! ### Rows -/

inductive WebSocketReviewMessageStatus where
  | notSent
  | sentNoResponse
  | responseMatched
  | responseMismatched
  deriving DecidableEq

structure WebSocketReviewMessageAudit where
  (messageReference expectedResponseReference : String)
  observedResponseReference : Option String
  (outboundLength expectedResponseLength : Nat)
  inboundLength : Option Nat
  status : WebSocketReviewMessageStatus

structure WebSocketReviewExecutionLimits where
  (maxConnections maxOutboundApplicationBytes maxInboundApplicationBytes : Nat)
  (maxOutboundMessageBytes maxInboundMessageBytes maxMessages maxControlFrames maxWallTimeMs : Nat)

/-- `MAX_WEBSOCKET_REVIEW_CONNECTIONS`. -/
def maxConnections : Nat := 1

/-- `MAX_WEBSOCKET_REVIEW_APPLICATION_BYTES_PER_DIRECTION`. -/
def maxApplicationBytesPerDirection : Nat := 64 * 1024

structure WebSocketReviewAudit where
  (subprotocolRequested subprotocolNegotiated : Bool)
  (requestAttemptCount requestAdmittedCount connectionAttemptCount handshakeCompletedCount : Nat)
  (configuredMessageCount outboundMessageCount inboundMessageCount outboundControlFrameCount : Nat)
  (inboundControlFrameCount outboundApplicationBytes inboundApplicationBytes transportReadBytes : Nat)
  (transportWriteBytes accountedRequestBodyBytes accountedResponseBytes : Nat)
  terminal : WebSocketReviewTerminal
  failure : Option WebSocketReviewFailureKind
  messages : List WebSocketReviewMessageAudit
  limits : WebSocketReviewExecutionLimits

namespace WebSocketReviewMessageAudit

/-- The row of a message agrees with its status. -/
def isValid (limits : WebSocketReviewExecutionLimits) (message : WebSocketReviewMessageAudit) :
    Bool :=
  message.outboundLength ≤ limits.maxOutboundMessageBytes &&
    message.expectedResponseLength ≤ limits.maxInboundMessageBytes &&
    match message.status with
    | .notSent | .sentNoResponse =>
      message.inboundLength.isNone && message.observedResponseReference.isNone
    | .responseMatched =>
      message.inboundLength = some message.expectedResponseLength &&
        message.observedResponseReference = some message.expectedResponseReference
    | .responseMismatched =>
      message.inboundLength.isSome && message.observedResponseReference.isNone

end WebSocketReviewMessageAudit

namespace WebSocketReviewAudit

variable (audit : WebSocketReviewAudit)

/-- The bytes of the rows that were sent, as the check adds them up. -/
def rowOutboundBytes (messages : List WebSocketReviewMessageAudit) : Nat :=
  (messages.filter fun message => message.status ≠ .notSent).foldl
    (fun total message => saturatingAdd u64Max total message.outboundLength) 0

def rowInboundBytes (messages : List WebSocketReviewMessageAudit) : Nat :=
  messages.foldl
    (fun total message => saturatingAdd u64Max total (message.inboundLength.getD 0)) 0

/-- The counters of the connection agree with each other. -/
def connectionIsConsistent : Bool :=
  audit.requestAttemptCount ≤ 1 &&
    audit.requestAdmittedCount ≤ audit.requestAttemptCount &&
    audit.connectionAttemptCount ≤ audit.requestAdmittedCount &&
    audit.connectionAttemptCount ≤ audit.limits.maxConnections &&
    audit.handshakeCompletedCount ≤ audit.connectionAttemptCount &&
    (!audit.subprotocolNegotiated ||
      (audit.subprotocolRequested && audit.handshakeCompletedCount = 1))

/-- The counters of the messages are those of the rows. -/
def messagesAreConsistent : Bool :=
  audit.configuredMessageCount = audit.messages.length &&
    audit.configuredMessageCount > 0 &&
    audit.configuredMessageCount ≤ audit.limits.maxMessages &&
    audit.outboundMessageCount =
      (audit.messages.filter fun message => message.status ≠ .notSent).length &&
    audit.inboundMessageCount =
      (audit.messages.filter fun message => message.inboundLength.isSome).length &&
    audit.inboundMessageCount ≤ audit.outboundMessageCount &&
    audit.outboundApplicationBytes = rowOutboundBytes audit.messages &&
    audit.inboundApplicationBytes = rowInboundBytes audit.messages

/-- The counters of the transport agree with those of the messages. -/
def transportIsConsistent : Bool :=
  audit.accountedRequestBodyBytes = 0 &&
    audit.accountedResponseBytes = audit.transportReadBytes &&
    audit.transportReadBytes ≥ audit.inboundApplicationBytes &&
    audit.transportWriteBytes ≥ audit.outboundApplicationBytes &&
    (audit.transportReadBytes = 0 || audit.connectionAttemptCount = 1) &&
    (audit.transportWriteBytes = 0 || audit.connectionAttemptCount = 1) &&
    (audit.outboundMessageCount = 0 || audit.handshakeCompletedCount = 1)

/-- The counters are within the limits, and the limits within theirs. -/
def limitsAreConsistent : Bool :=
  audit.outboundMessageCount ≤ audit.limits.maxMessages &&
    audit.inboundMessageCount ≤ audit.limits.maxMessages &&
    saturatingAdd u64Max audit.outboundControlFrameCount audit.inboundControlFrameCount ≤
      audit.limits.maxControlFrames &&
    audit.outboundApplicationBytes ≤ audit.limits.maxOutboundApplicationBytes &&
    audit.inboundApplicationBytes ≤ audit.limits.maxInboundApplicationBytes &&
    audit.limits.maxConnections = maxConnections &&
    audit.limits.maxOutboundApplicationBytes ≤ maxApplicationBytesPerDirection &&
    audit.limits.maxInboundApplicationBytes ≤ maxApplicationBytesPerDirection &&
    audit.limits.maxMessages ≤ maxMessages &&
    audit.limits.maxControlFrames ≤ maxControlFrames &&
    audit.limits.maxWallTimeMs ≤ maxWallTimeMs

/-- The failure is that of the terminal state, and a completed review sent
and paired every message. -/
def terminalIsConsistent : Bool :=
  (if audit.terminal = .completed then audit.failure.isNone
    else audit.failure.any fun failure => failure.terminal = audit.terminal) &&
    (audit.terminal ≠ .completed ||
      (audit.outboundMessageCount = audit.configuredMessageCount &&
        audit.inboundMessageCount = audit.configuredMessageCount))

/-- `is_consistent`, of an audit without a supplied session. -/
def isConsistent : Bool :=
  audit.connectionIsConsistent && audit.messagesAreConsistent && audit.transportIsConsistent &&
    audit.limitsAreConsistent && audit.messages.all (·.isValid audit.limits) &&
    audit.terminalIsConsistent

def fail (failure : WebSocketReviewFailureKind) : WebSocketReviewAudit :=
  { audit with terminal := failure.terminal, failure := some failure }

end WebSocketReviewAudit

/-! ### Minting -/

structure RuntimeMessage where
  (text expectedResponseSha256 : Bytes)
  expectedResponseLength : Nat

inductive WebSocketReviewRuntimeMintError where
  | authorityAlreadyMinted
  | endpointOutsideAuthority
  | internalInvariant

structure WebSocketReviewRuntime where
  endpoint : Url
  subprotocol : Option Bytes
  messages : List RuntimeMessage
  audit : WebSocketReviewAudit

namespace WebSocketReviewMessage

def runtime (message : WebSocketReviewMessage) : RuntimeMessage where
  text := message.text
  expectedResponseSha256 := message.expectedResponseSha256
  expectedResponseLength := message.expectedResponseLength

/-- The row of a message that was not sent. -/
def row (message : WebSocketReviewMessage) : WebSocketReviewMessageAudit where
  messageReference := message.messageReference
  expectedResponseReference := message.expectedResponseReference
  observedResponseReference := none
  outboundLength := message.text.length
  expectedResponseLength := message.expectedResponseLength
  inboundLength := none
  status := .notSent

end WebSocketReviewMessage

def WebSocketReviewPolicy.executionLimits (policy : WebSocketReviewPolicy) :
    WebSocketReviewExecutionLimits where
  maxConnections := WebSocket.maxConnections
  maxOutboundApplicationBytes := maxApplicationBytesPerDirection
  maxInboundApplicationBytes := maxApplicationBytesPerDirection
  maxOutboundMessageBytes := policy.limits.maxOutboundMessageBytes
  maxInboundMessageBytes := policy.limits.maxInboundMessageBytes
  maxMessages := policy.limits.maxMessages
  maxControlFrames := policy.limits.maxControlFrames
  maxWallTimeMs := policy.limits.maxWallTimeMs

/-- The audit of a review that has not begun. -/
def WebSocketReviewPolicy.initialAudit (policy : WebSocketReviewPolicy) : WebSocketReviewAudit where
  subprotocolRequested := policy.subprotocol.isSome
  subprotocolNegotiated := false
  requestAttemptCount := 0
  requestAdmittedCount := 0
  connectionAttemptCount := 0
  handshakeCompletedCount := 0
  configuredMessageCount := policy.messages.length
  outboundMessageCount := 0
  inboundMessageCount := 0
  outboundControlFrameCount := 0
  inboundControlFrameCount := 0
  outboundApplicationBytes := 0
  inboundApplicationBytes := 0
  transportReadBytes := 0
  transportWriteBytes := 0
  accountedRequestBodyBytes := 0
  accountedResponseBytes := 0
  terminal := .incomplete
  failure := some .internalInvariant
  messages := policy.messages.map (·.row)
  limits := policy.executionLimits

def WebSocketReviewRuntime.new (policy : WebSocketReviewPolicy) :
    Except WebSocketReviewRuntimeMintError WebSocketReviewRuntime := do
  let configuredBytes := policy.messages.foldl
    (fun total message => saturatingAdd u64Max total message.text.length) 0
  let configuredExpectedBytes := policy.messages.foldl
    (fun total message => saturatingAdd u64Max total message.expectedResponseLength) 0
  if configuredBytes > maxApplicationBytesPerDirection ∨
      configuredExpectedBytes > maxApplicationBytesPerDirection ∨
      policy.messages.length > maxMessages then
    throw .internalInvariant
  let limits := policy.executionLimits
  if limits.maxMessages > maxMessages ∨ limits.maxControlFrames > maxControlFrames ∨
      limits.maxOutboundMessageBytes > maxApplicationBytesPerDirection ∨
      limits.maxInboundMessageBytes > maxApplicationBytesPerDirection ∨
      limits.maxWallTimeMs > maxWallTimeMs ∨ policy.messages.length > limits.maxMessages ∨
      (policy.messages.any fun message =>
        message.text.length > limits.maxOutboundMessageBytes ||
          message.expectedResponseLength > limits.maxInboundMessageBytes) then
    throw .internalInvariant
  return {
    endpoint := policy.endpoint
    subprotocol := policy.subprotocol
    messages := policy.messages.map (·.runtime)
    audit := policy.initialAudit }

/-! ### Sums -/

theorem foldl_saturatingAdd {α : Type} (size : α → Nat) : ∀ (xs : List α) (total : Nat),
    total ≤ u64Max → total + (xs.map size).sum ≤ u64Max →
    xs.foldl (fun total x => saturatingAdd u64Max total (size x)) total = total + (xs.map size).sum
  | [], total, _, _ => by simp
  | x :: xs, total, _, hsum => by
    rw [map_cons, sum_cons] at hsum
    have hstep : saturatingAdd u64Max total (size x) = total + size x :=
      saturatingAdd_eq (by omega)
    rw [foldl_cons, hstep, foldl_saturatingAdd size xs (total + size x) (by omega) (by omega),
      map_cons, sum_cons]
    omega

/-- **A valid policy mints a runtime.** -/
theorem new_eq_ok {policy : WebSocketReviewPolicy} (h : policy.Valid) :
    WebSocketReviewRuntime.new policy = .ok {
      endpoint := policy.endpoint
      subprotocol := policy.subprotocol
      messages := policy.messages.map (·.runtime)
      audit := policy.initialAudit } := by
  have hmax : maxDirectionBytes ≤ u64Max := by decide
  have hfold := foldl_saturatingAdd (fun message : WebSocketReviewMessage => message.text.length)
    policy.messages 0 (Nat.zero_le _) (by have := h.outboundTotal; omega)
  have hfol := foldl_saturatingAdd (fun message => message.expectedResponseLength)
    policy.messages 0 (Nat.zero_le _) (by have := h.expectedTotal; omega)
  have htexts : ¬ (policy.messages.any fun message =>
      message.text.length > policy.executionLimits.maxOutboundMessageBytes ||
        message.expectedResponseLength > policy.executionLimits.maxInboundMessageBytes) = true := by
    rw [any_eq_true]
    rintro ⟨message, hmem, hlong⟩
    obtain ⟨houtb, hexpected⟩ := h.texts message hmem
    obtain hlong | hlong := Bool.or_eq_true_iff.mp hlong
    · exact absurd houtb (Nat.not_le.mpr (of_decide_eq_true hlong))
    · exact absurd hexpected (Nat.not_le.mpr (of_decide_eq_true hlong))
  have hsame : maxApplicationBytesPerDirection = maxDirectionBytes := rfl
  simp only [WebSocketReviewRuntime.new, hfold, hfol]
  rw [if_neg, if_neg]
  · rfl
  · rintro (hlimit | hlimit | hlimit | hlimit | hlimit | hlimit | hlimit)
    · exact absurd h.messages (Nat.not_le.mpr hlimit)
    · exact absurd h.control (Nat.not_le.mpr hlimit)
    · exact absurd h.outbound (Nat.not_le.mpr hlimit)
    · exact absurd h.inbound (Nat.not_le.mpr hlimit)
    · exact absurd h.wallTime (Nat.not_le.mpr hlimit)
    · exact absurd h.count (Nat.not_le.mpr hlimit)
    · exact htexts hlimit
  · have := h.outboundTotal
    have := h.expectedTotal
    have := h.messages
    have := h.count
    omega

end Termivar.WebSocket
