/-
# The run of a WebSocket review

`termivar-scanner/src/web_runtime/websocket_runtime.rs`: one connection under
one request lease of the parent. The run sends the configured messages in
order, waits for one text response to each, answers control frames while it
waits, and closes. Every await may be cut short by the cancellation token or
the deadline, and every byte read is charged to the parent.

What the run meets outside is a script: the opening of the connection, and
then a turn for every time the socket is used. The review keeps a trace of
what it did, which the source does not have.
-/
import Termivar.Runtime.Budget
import Termivar.WebSocket.Audit

namespace Termivar.WebSocket

open Command
open Termivar.Runtime (RequestAccountingSnapshot RuntimeBudget TransportDispatchOutcome
  checkRequestLimits recordDispatch)

def reviewActionId : String := "websocket.review"

/-! ### What the run meets -/

inductive StepStop where
  | cancelled
  | deadline

inductive Message where
  | text (payload : Bytes)
  | binary
  | ping
  | pong
  | close
  | frame

/-- What `socket.next()` yields. -/
inductive Received where
  | message (message : Message)
  | capacityError
  | otherError
  | ended

inductive ConnectError where
  | http
  | capacity
  | protocol
  | httpFormat
  | other

/-- The headers of the handshake response that the run reads. -/
structure HandshakeResponse where
  extensions : Bool
  subprotocol : Option Bytes

/-- One use of the socket, under the parent's read gate. `written` is the
number of bytes put on the wire by a send of the given text. -/
structure Turn where
  gate : Option StepStop := none
  othersBefore : Nat := 0
  stopped : Option StepStop := none
  othersMeanwhile : Nat := 0
  read : Nat := 0
  written : Bytes → Nat := fun text => text.length
  succeeded : Bool := true
  received : Received := .ended

/-- The connection up to the handshake response. An address is a number. -/
structure Opening where
  (localDeadline parentDeadline : Option Nat)
  cancelled : Bool
  now : Nat
  request : Except WebSocketReviewFailureKind Unit
  resolved : Except StepStop (Option (List Nat))
  connected : Except StepStop Bool
  handshake : Except ConnectError HandshakeResponse

structure Session where
  sha256 : Bytes → Bytes
  runtime : WebSocketReviewRuntime
  budget : RuntimeBudget
  opening : Opening
  peer : Nat → Turn

/-! ### The state of the run -/

inductive Event where
  | sending (index : Nat)
  | text (payload : Bytes)
  | control
  | closed
  | failed (kind : WebSocketReviewFailureKind)
  | cutShort
  deriving DecidableEq

/-- The audit, what the run reads of the parent's broker and of its lease, the
next turn, and the trace. -/
structure Review where
  audit : WebSocketReviewAudit
  snapshot : RequestAccountingSnapshot
  responseBytes : Nat := 0
  responseBudgetReached : Bool := false
  outcome : Option TransportDispatchOutcome := none
  turn : Nat := 0
  trace : List Event := []

abbrev ReviewCommand (α : Type) : Type := Command Review TransportDispatchOutcome α

namespace Review

variable (r : Review)

/-- Response bytes that other requests charge to the parent. -/
def charged (bytes : Nat) : Review :=
  { r with snapshot := { r.snapshot with
      responseBytes := saturatingAdd u64Max r.snapshot.responseBytes bytes } }

def noted (event : Event) : Review := { r with trace := r.trace ++ [event] }

def failed (kind : WebSocketReviewFailureKind) : Review :=
  { r with audit := r.audit.fail kind, trace := r.trace ++ [.failed kind] }

end Review

def note (event : Event) : ReviewCommand Unit := modify fun r => r.noted event

/-- `audit.fail`, `audit.cancel` and `audit.deadline`. -/
def fail (kind : WebSocketReviewFailureKind) : ReviewCommand Unit := modify fun r => r.failed kind

def refuse {α : Type} (kind : WebSocketReviewFailureKind) : ReviewCommand α := do
  fail kind
  throw .transportFailure

def refuseBudget {α : Type} : ReviewCommand α := do
  fail .parentResponseBudgetReached
  throw .responseBudgetReached

def halt {α : Type} : StepStop → ReviewCommand α
  | .cancelled => do
    fail .cancelled
    throw .cancelled
  | .deadline => do
    fail .deadlineReached
    throw .requestTimeout

/-- Marks a clean-up step that ended the run. -/
def cleanup {α : Type} (step : ReviewCommand α) : ReviewCommand α :=
  tryCatch step fun outcome => do
    note .cutShort
    throw outcome

/-! ### The socket -/

section Runtime

variable (s : Session)

/-- `acquire_response_read`. -/
def acquireResponseRead : ReviewCommand Unit := do
  let r ← get
  set (r.charged (s.peer r.turn).othersBefore)
  match (s.peer r.turn).gate with
  | some stop => halt stop
  | none => pure ()

def remainingResponseBytes (snapshot : RequestAccountingSnapshot) : Nat :=
  s.budget.maxResponseBytes - snapshot.responseBytes

/-- `observe_response_bytes` of the lease. -/
def observeResponseBytes (bytes : Nat) : ReviewCommand Nat := do
  let r ← get
  let remaining := remainingResponseBytes s r.snapshot
  set { r with
    responseBytes := saturatingAdd u64Max r.responseBytes bytes
    responseBudgetReached := r.responseBudgetReached || (bytes > 0 && bytes ≥ remaining)
    snapshot := { r.snapshot with
      responseBytes := saturatingAdd u64Max r.snapshot.responseBytes bytes } }
  return min bytes remaining

/-- `observe_transport_delta`, of the bytes a turn moved. -/
def observeTransportDelta (read written : Nat) : ReviewCommand Unit := do
  modify fun r => { r with audit := { r.audit with
    transportReadBytes := saturatingAdd u64Max r.audit.transportReadBytes read
    transportWriteBytes := saturatingAdd u64Max r.audit.transportWriteBytes written } }
  if read ≠ 0 then
    let retained ← observeResponseBytes s read
    modify fun r => { r with audit := { r.audit with
      accountedResponseBytes := saturatingAdd u64Max r.audit.accountedResponseBytes read } }
    let r ← get
    if retained ≠ read ∨ r.responseBudgetReached then refuseBudget

/-- One use of the socket: the read gate, the remaining budget where the
source looks at it, the await with its accounting, and whether it was cut
short. -/
def exchange (budgeted : Bool) (text : Bytes) : ReviewCommand Turn := do
  acquireResponseRead s
  let r ← get
  if budgeted ∧ remainingResponseBytes s r.snapshot = 0 then refuseBudget
  let turn := s.peer r.turn
  set { r.charged turn.othersMeanwhile with turn := r.turn + 1 }
  observeTransportDelta s turn.read (turn.written text)
  match turn.stopped with
  | some stop => halt stop
  | none => return turn

/-- The control frames counted so far leave no room for another. -/
def controlFramesReached (audit : WebSocketReviewAudit) : Bool :=
  saturatingAdd u64Max audit.outboundControlFrameCount audit.inboundControlFrameCount ≥
    audit.limits.maxControlFrames

def countOutboundControl : ReviewCommand Unit :=
  modify fun r => { r with audit := { r.audit with
    outboundControlFrameCount := r.audit.outboundControlFrameCount + 1 } }

def closeAfterFailure (outcome : TransportDispatchOutcome) : ReviewCommand Unit := do
  let r ← get
  if controlFramesReached r.audit then throw outcome
  let turn ← cleanup (exchange s false [])
  if turn.succeeded then countOutboundControl
  throw outcome

def sendClose : ReviewCommand Unit := do
  let r ← get
  if controlFramesReached r.audit then refuse .controlFrameLimitReached
  let turn ← exchange s false []
  if !turn.succeeded then refuse .closeFailed
  countOutboundControl
  note .closed

/-! ### Responses -/

def observeInboundControl : ReviewCommand Unit := do
  note .control
  let r ← get
  if controlFramesReached r.audit then refuse .controlFrameLimitReached
  set { r with audit := { r.audit with
    inboundControlFrameCount := r.audit.inboundControlFrameCount + 1 } }

def observeInboundControlAndFlush : ReviewCommand Unit := do
  observeInboundControl
  let r ← get
  if controlFramesReached r.audit then refuse .controlFrameLimitReached
  let turn ← exchange s false []
  if !turn.succeeded then refuse .sendFailed
  countOutboundControl

/-- The reply to the peer's closing frame. -/
def flushClose : ReviewCommand Unit := do
  let r ← get
  if !controlFramesReached r.audit then
    let turn ← cleanup (exchange s false [])
    if turn.succeeded then countOutboundControl

/-- The row of a message and the response received to it. -/
def answeredRow (row : WebSocketReviewMessageAudit) (payload : Bytes) (matched : Bool) :
    WebSocketReviewMessageAudit :=
  { row with
    inboundLength := some payload.length
    observedResponseReference := if matched then some row.expectedResponseReference else none
    status := if matched then .responseMatched else .responseMismatched }

def responseMatches (message : RuntimeMessage) (payload : Bytes) : Bool :=
  payload.length = message.expectedResponseLength &&
    s.sha256 payload = message.expectedResponseSha256

def observeApplicationPayload (message : RuntimeMessage) (index : Nat) (payload : Bytes) :
    ReviewCommand Unit := do
  let r ← get
  if r.audit.inboundMessageCount ≥ r.audit.limits.maxMessages then refuse .messageLimitReached
  let nextTotal := saturatingAdd u64Max r.audit.inboundApplicationBytes payload.length
  if payload.length > r.audit.limits.maxInboundMessageBytes ∨
      nextTotal > r.audit.limits.maxInboundApplicationBytes then
    refuse (if payload.length > r.audit.limits.maxInboundMessageBytes then .messageTooLarge
      else .applicationByteLimitReached)
  match r.audit.messages[index]? with
  | none => unwind
  | some row =>
    set { r with audit := { r.audit with
      inboundMessageCount := r.audit.inboundMessageCount + 1
      inboundApplicationBytes := nextTotal
      messages := r.audit.messages.set index
        (answeredRow row payload (responseMatches s message payload)) } }

/-- The loop of `read_application_response`, for at most the given number of
turns. -/
def readResponse (message : RuntimeMessage) (index : Nat) : Nat → ReviewCommand Unit
  | 0 => unwind
  | turns + 1 => do
    let turn ← exchange s true []
    match turn.received with
    | .capacityError => refuse .messageTooLarge
    | .otherError => refuse .readFailed
    | .ended => refuse .peerClosed
    | .message (.text payload) => do
      note (.text payload)
      observeApplicationPayload s message index payload
    | .message .binary => refuse .binaryMessageUnsupported
    | .message .ping => do
      observeInboundControlAndFlush s
      readResponse message index turns
    | .message .pong => do
      observeInboundControl
      readResponse message index turns
    | .message .close => do
      observeInboundControl
      -- the peer has ended the exchange; the source classifies it after its reply
      note (.failed .peerClosed)
      flushClose s
      refuse .peerClosed
    | .message .frame => refuse .internalInvariant

/-! ### The run -/

def countSent (index : Nat) : ReviewCommand Unit := do
  let r ← get
  match r.audit.messages[index]? with
  | none => unwind
  | some row =>
    set { r with audit := { r.audit with
      outboundMessageCount := r.audit.outboundMessageCount + 1
      outboundApplicationBytes :=
        saturatingAdd u64Max r.audit.outboundApplicationBytes row.outboundLength
      messages := r.audit.messages.set index { row with status := .sentNoResponse } } }

def sendMessages : List RuntimeMessage → Nat → ReviewCommand Unit
  | [], _ => pure ()
  | message :: rest, index => do
    let r ← get
    if r.audit.outboundMessageCount ≥ r.audit.limits.maxMessages then
      fail .messageLimitReached
      closeAfterFailure s .transportFailure
    note (.sending index)
    let turn ← exchange s true message.text
    if !turn.succeeded then refuse .sendFailed
    countSent index
    -- a control frame is counted in every turn of the loop but the last
    readResponse s message index (r.audit.limits.maxControlFrames + 1)
    sendMessages rest (index + 1)

def classifyConnectError : ConnectError → WebSocketReviewFailureKind
  | .http => .handshakeRejected
  | .capacity => .messageTooLarge
  | .protocol | .httpFormat => .handshakeRejected
  | .other => .connectionFailed

def executeWithLease : ReviewCommand Unit := do
  match s.opening.request with
  | .error failure => refuse failure
  | .ok () =>
  if s.runtime.endpoint.host.isNone then refuse .requestConstruction
  if s.runtime.endpoint.port.isNone then refuse .requestConstruction
  match s.opening.resolved with
  | .error stop => halt stop
  | .ok none => refuse .connectionFailed
  | .ok (some addresses) =>
  if addresses.min?.isNone then refuse .connectionFailed
  modify fun r => { r with audit := { r.audit with connectionAttemptCount := 1 } }
  match s.opening.connected with
  | .error stop => halt stop
  | .ok false => refuse .connectionFailed
  | .ok true =>
  let _ ← exchange s true []
  match s.opening.handshake with
  | .error error => refuse (classifyConnectError error)
  | .ok response =>
  modify fun r => { r with audit := { r.audit with handshakeCompletedCount := 1 } }
  if response.extensions then
    fail .extensionNegotiationRefused
    closeAfterFailure s .transportFailure
  if response.subprotocol ≠ s.runtime.subprotocol then
    fail .subprotocolNegotiationRefused
    closeAfterFailure s .transportFailure
  modify fun r => { r with audit := { r.audit with
    subprotocolNegotiated := s.runtime.subprotocol.isSome } }
  sendMessages s s.runtime.messages 0
  sendClose s
  modify fun r => { r with audit := { r.audit with terminal := .completed, failure := none } }

def lesserDeadline : Option Nat → Option Nat → Option Nat
  | some first, some second => some (min first second)
  | some deadline, none | none, some deadline => some deadline
  | none, none => none

def executeInner : ReviewCommand Unit := do
  match lesserDeadline s.opening.localDeadline s.opening.parentDeadline with
  | none => fail .internalInvariant
  | some deadline =>
  if s.opening.cancelled then fail .cancelled
  else if s.opening.now ≥ deadline then fail .deadlineReached
  else
    modify fun r => { r with audit := { r.audit with requestAttemptCount := 1 } }
    let r ← get
    match checkRequestLimits r.snapshot s.budget reviewActionId .passive 0 with
    | .error _ => fail .parentAuthorityUnavailable
    | .ok _ =>
      set { r with
        audit := { r.audit with requestAdmittedCount := 1 }
        snapshot := recordDispatch r.snapshot .passive none 0 }
      match ← attempt (executeWithLease s) with
      | .ok () => modify fun r => { r with outcome := some .completed }
      | .error outcome => modify fun r => { r with outcome := some outcome }

end Runtime

end Termivar.WebSocket
