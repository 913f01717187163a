/-
# The policy of a WebSocket review

`termivar-scanner/src/websocket_review.rs`: an operator declares the messages
to send, the response expected to each and the ceilings of the connection. A
policy is accepted when every ceiling is finite and every declared message
fits under them.

The application target, the endpoint and the JSON text are checked by other
code; the endpoint's check is a parameter here, and the policy is accepted
from its decoded fields.
-/
import Termivar.Command
import Termivar.Framing
import Termivar.Url

namespace Termivar.WebSocket

open Checked List

def maxMessages : Nat := 8
def maxMessageTextBytes : Nat := 16 * 1024
/-- `MAX_WEBSOCKET_REVIEW_DIRECTION_BYTES`, of which the limits of one
message and of all the messages of a direction are copies. -/
def maxDirectionBytes : Nat := 64 * 1024
def maxControlFrames : Nat := 16
def maxWallTimeMs : Nat := 10000
def maxMessageIdBytes : Nat := 128
def maxSubprotocolBytes : Nat := 128

inductive WebSocketOriginMode where
  | applicationOrigin
  | omit

inductive WebSocketReviewPolicyError where
  | unsupportedSchema
  | targetAuthorizationRequired
  | readOnlyAcknowledgementRequired
  | nonSecretContentAcknowledgementRequired
  | compressionNotPermitted
  | reconnectNotPermitted
  | invalidEndpoint
  | endpointOutsideApplication
  | insecureEndpoint
  | unsupportedOriginMode
  | invalidSubprotocol
  | invalidMessageCount
  | invalidMessageId
  | duplicateMessageId
  | messageTextTooLarge
  | messageTextAggregateTooLarge
  | invalidExpectedResponse
  | expectedResponseAggregateTooLarge
  | invalidLimits

structure WireMessage where
  (id text sha256 : Bytes)
  length : Nat

structure WebSocketReviewLimits where
  (maxInboundMessageBytes maxOutboundMessageBytes maxMessages maxControlFrames maxWallTimeMs : Nat)

structure WirePolicy where
  schema : String
  (targetAuthorized messagesReadOnlyAcknowledged messageContentIsNonSecret : Bool)
  (endpoint originMode : String)
  subprotocol : Option Bytes
  (compression reconnect : Bool)
  messages : List WireMessage
  limits : WebSocketReviewLimits

structure WebSocketReviewMessage where
  (text expectedResponseSha256 : Bytes)
  expectedResponseLength : Nat
  (messageReference expectedResponseReference : String)

structure WebSocketReviewPolicy where
  endpoint : Url
  originMode : WebSocketOriginMode
  subprotocol : Option Bytes
  messages : List WebSocketReviewMessage
  limits : WebSocketReviewLimits

/-! ### Fields -/

def isAsciiAlphanumeric (byte : UInt8) : Bool :=
  (48 ≤ byte && byte ≤ 57) || (65 ≤ byte && byte ≤ 90) || (97 ≤ byte && byte ≤ 122)

def httpTokenByte (byte : UInt8) : Bool :=
  isAsciiAlphanumeric byte || byte ∈ utf8Bytes "!#$%&'*+-.^_\x60|~"

def validSubprotocol (value : Bytes) : Bool :=
  !value.isEmpty && value.length ≤ maxSubprotocolBytes && value.all httpTokenByte

def validMessageId : Bytes → Bool
  | [] => false
  | first :: rest =>
    (first :: rest).length ≤ maxMessageIdBytes && isAsciiAlphanumeric first &&
      (first :: rest).all fun byte => isAsciiAlphanumeric byte || byte ∈ utf8Bytes "._:-"

def validateLimits (wire : WebSocketReviewLimits) (messageCount : Nat) :
    Except WebSocketReviewPolicyError WebSocketReviewLimits := do
  if messageCount = 0 ∨ messageCount > maxMessages then throw .invalidMessageCount
  if wire.maxInboundMessageBytes = 0 ∨ wire.maxInboundMessageBytes > maxDirectionBytes ∨
      wire.maxOutboundMessageBytes = 0 ∨ wire.maxOutboundMessageBytes > maxDirectionBytes ∨
      wire.maxMessages < messageCount ∨ wire.maxMessages > maxMessages ∨
      wire.maxControlFrames = 0 ∨ wire.maxControlFrames > maxControlFrames ∨
      wire.maxWallTimeMs = 0 ∨ wire.maxWallTimeMs > maxWallTimeMs then
    throw .invalidLimits
  return wire

def lowerHexNibble (byte : UInt8) : Option UInt8 :=
  if 48 ≤ byte ∧ byte ≤ 57 then some (byte - 48)
  else if 97 ≤ byte ∧ byte ≤ 102 then some (byte - 97 + 10)
  else none

/-- The bytes two hexadecimal digits at a time. -/
def decodeHex : Bytes → Option Bytes
  | high :: low :: rest => do
    let high ← lowerHexNibble high
    let low ← lowerHexNibble low
    return (high <<< 4 ||| low) :: (← decodeHex rest)
  | [] => some []
  | [_] => none

def parseSha256 (value : Bytes) : Except WebSocketReviewPolicyError Bytes := do
  if value.length ≠ 64 then throw .invalidExpectedResponse
  okOr (decodeHex value) .invalidExpectedResponse

section Accept

variable (sha256 : Bytes → Bytes)

/-- `digest_reference`; the domain is written with the NUL byte that ends it. -/
def digestReference (domain label : String) (values : List Bytes) : String :=
  label ++ ":" ++ hex (sha256 (utf8Bytes domain ++ values.flatMap (frame 8)))

/-- One turn of the loop of `parse_json` over the declared messages. -/
def acceptMessage (limits : WebSocketReviewLimits) (seen : List Bytes) (outbound expected : Nat)
    (declaration : WireMessage) :
    Except WebSocketReviewPolicyError (WebSocketReviewMessage × Nat × Nat) := do
  if !validMessageId declaration.id then throw .invalidMessageId
  if declaration.id ∈ seen then throw .duplicateMessageId
  if declaration.text.length > maxMessageTextBytes then throw .messageTextTooLarge
  let outbound ← okOr ((checkedAdd u64Max outbound declaration.text.length).filter
    fun length => length ≤ maxDirectionBytes) .messageTextAggregateTooLarge
  let expectedSha256 ← parseSha256 declaration.sha256
  let expected ← okOr ((checkedAdd u64Max expected declaration.length).filter
    fun length => length ≤ maxDirectionBytes) .expectedResponseAggregateTooLarge
  if declaration.text.length > limits.maxOutboundMessageBytes ∨
      declaration.length > limits.maxInboundMessageBytes then
    throw .invalidLimits
  let message : WebSocketReviewMessage :=
    { text := declaration.text
      expectedResponseSha256 := expectedSha256
      expectedResponseLength := declaration.length
      messageReference :=
        digestReference sha256 "termivar.websocket-review.message-reference.v1\x00"
          "websocket-message-revision-sha256" [declaration.id]
      expectedResponseReference :=
        digestReference sha256 "termivar.websocket-review.expected-response-reference.v1\x00"
          "websocket-expected-response-revision-sha256"
          [declaration.id, beBytes 8 declaration.length] }
  return (message, outbound, expected)

def acceptMessages (limits : WebSocketReviewLimits) : List WireMessage → List Bytes → Nat → Nat →
    Except WebSocketReviewPolicyError (List WebSocketReviewMessage)
  | [], _, _, _ => return []
  | declaration :: rest, seen, outbound, expected => do
    let (message, outbound, expected) ←
      acceptMessage sha256 limits seen outbound expected declaration
    return message :: (← acceptMessages limits rest (declaration.id :: seen) outbound expected)

def parseOriginMode : String → Except WebSocketReviewPolicyError WebSocketOriginMode
  | "application_origin" => return .applicationOrigin
  | "omit" => return .omit
  | _ => throw .unsupportedOriginMode

/-- `parse_json`, from the decoded fields of the policy. -/
def WebSocketReviewPolicy.accept (validateEndpoint : String → Except WebSocketReviewPolicyError Url)
    (wire : WirePolicy) : Except WebSocketReviewPolicyError WebSocketReviewPolicy := do
  if wire.schema ≠ "security.websocket-review-policy/v1" then throw .unsupportedSchema
  if !wire.targetAuthorized then throw .targetAuthorizationRequired
  if !wire.messagesReadOnlyAcknowledged then throw .readOnlyAcknowledgementRequired
  if !wire.messageContentIsNonSecret then throw .nonSecretContentAcknowledgementRequired
  if wire.compression then throw .compressionNotPermitted
  if wire.reconnect then throw .reconnectNotPermitted
  let endpoint ← validateEndpoint wire.endpoint
  let originMode ← parseOriginMode wire.originMode
  if wire.subprotocol.any fun value => !validSubprotocol value then throw .invalidSubprotocol
  let limits ← validateLimits wire.limits wire.messages.length
  let messages ← acceptMessages sha256 limits wire.messages [] 0 0
  return { endpoint, originMode, subprotocol := wire.subprotocol, messages, limits }

end Accept

/-! ### What an accepted policy holds -/

/-- The bounds of an accepted policy. -/
structure WebSocketReviewPolicy.Valid (policy : WebSocketReviewPolicy) : Prop where
  nonempty : 0 < policy.messages.length
  count : policy.messages.length ≤ policy.limits.maxMessages
  messages : policy.limits.maxMessages ≤ maxMessages
  inbound : policy.limits.maxInboundMessageBytes ≤ maxDirectionBytes
  outbound : policy.limits.maxOutboundMessageBytes ≤ maxDirectionBytes
  controlPositive : 0 < policy.limits.maxControlFrames
  control : policy.limits.maxControlFrames ≤ maxControlFrames
  wallTime : policy.limits.maxWallTimeMs ≤ maxWallTimeMs
  texts : ∀ message ∈ policy.messages,
    message.text.length ≤ policy.limits.maxOutboundMessageBytes ∧
      message.expectedResponseLength ≤ policy.limits.maxInboundMessageBytes
  outboundTotal : (policy.messages.map fun message => message.text.length).sum ≤ maxDirectionBytes
  expectedTotal : (policy.messages.map (·.expectedResponseLength)).sum ≤ maxDirectionBytes

theorem validateLimits_spec (wire : WebSocketReviewLimits) (count : Nat) :
    wp (validateLimits wire count) (fun limits => limits = wire ∧ 0 < count ∧
      count ≤ wire.maxMessages ∧ wire.maxMessages ≤ maxMessages ∧
      wire.maxInboundMessageBytes ≤ maxDirectionBytes ∧
      wire.maxOutboundMessageBytes ≤ maxDirectionBytes ∧ 0 < wire.maxControlFrames ∧
      wire.maxControlFrames ≤ maxControlFrames ∧ wire.maxWallTimeMs ≤ maxWallTimeMs)
      (fun _ => True) := by
  unfold validateLimits
  simp only [↓wp_rules, implies_true, true_and]
  intro hcnt hlims
  omega

variable {sha256 : Bytes → Bytes} {limits : WebSocketReviewLimits}

/-- A length added to the total of its direction. -/
theorem directionTotal_spec {total length : Nat} {error : WebSocketReviewPolicyError} :
    wp (okOr ((checkedAdd u64Max total length).filter fun length => length ≤ maxDirectionBytes) error)
      (fun next => next = total + length ∧ next ≤ maxDirectionBytes) (fun _ => True) := by
  rw [wp_okOr]
  refine ⟨fun next hnext => ?_, fun _ => trivial⟩
  obtain ⟨hsum, hle⟩ := Option.filter_eq_some_iff.mp hnext
  exact ⟨(checkedAdd_eq_some.mp hsum).2, of_decide_eq_true hle⟩

theorem acceptMessage_spec (seen : List Bytes) (outbound expected : Nat) (declaration : WireMessage) :
    wp (acceptMessage sha256 limits seen outbound expected declaration)
      (fun (message, outbound', expected') =>
        (message.text.length ≤ limits.maxOutboundMessageBytes ∧
          message.expectedResponseLength ≤ limits.maxInboundMessageBytes) ∧
        (outbound' = outbound + message.text.length ∧ outbound' ≤ maxDirectionBytes) ∧
        expected' = expected + message.expectedResponseLength ∧ expected' ≤ maxDirectionBytes)
      (fun _ => True) := by
  unfold acceptMessage
  simp only [↓wp_bind, ↓wp_ite, ↓wp_throw, ↓wp_pure, implies_true, true_and]
  intro _ _ _
  refine wp_imp directionTotal_spec fun outbound' houtb => ?_
  refine wp_of_forall (fun digest => ?_) fun _ => trivial
  refine wp_imp directionTotal_spec fun expected' hexpected => ?_
  intro hlims
  exact ⟨by omega, houtb, hexpected⟩

theorem acceptMessages_spec : ∀ (wire : List WireMessage) (seen : List Bytes) (outbound expected : Nat),
    outbound ≤ maxDirectionBytes → expected ≤ maxDirectionBytes →
    wp (acceptMessages sha256 limits wire seen outbound expected)
      (fun messages => messages.length = wire.length ∧
        (∀ message ∈ messages, message.text.length ≤ limits.maxOutboundMessageBytes ∧
          message.expectedResponseLength ≤ limits.maxInboundMessageBytes) ∧
        outbound + (messages.map fun message => message.text.length).sum ≤ maxDirectionBytes ∧
        expected + (messages.map (·.expectedResponseLength)).sum ≤ maxDirectionBytes)
      (fun _ => True)
  | [], seen, outbound, expected, houtb, hexpected => by
    simp [acceptMessages, houtb, hexpected]
  | declaration :: rest, seen, outbound, expected, _, _ => by
    simp only [acceptMessages, ↓wp_bind]
    refine wp_imp (acceptMessage_spec seen outbound expected declaration) ?_
    rintro ⟨message, outbound', expected'⟩ ⟨hfits, ⟨hout, hout'⟩, hexp, hexp'⟩
    refine wp_imp (acceptMessages_spec rest _ outbound' expected' hout' hexp') ?_
    rintro messages ⟨hlength, heach, hsumOut, hsumExp⟩
    refine ⟨by simpa using hlength, forall_mem_cons.mpr ⟨hfits, heach⟩, ?_, ?_⟩
    · simp only [map_cons, sum_cons]
      omega
    · simp only [map_cons, sum_cons]
      omega

/-- **An accepted policy is within its bounds.** -/
theorem WebSocketReviewPolicy.valid_of_accept
    {validateEndpoint : String → Except WebSocketReviewPolicyError Url} {wire : WirePolicy}
    {policy : WebSocketReviewPolicy} (h : accept sha256 validateEndpoint wire = .ok policy) :
    policy.Valid := by
  have hspec : wp (accept sha256 validateEndpoint wire) Valid (fun _ => True) := by
    unfold accept
    simp only [↓wp_rules, implies_true, true_and]
    intro _ _ _ _ _ _
    refine wp_of_forall (fun endpoint => wp_of_forall (fun originMode _ => ?_) fun _ => trivial)
      fun _ => trivial
    refine wp_imp (validateLimits_spec _ _) ?_
    rintro limits ⟨rfl, hpos, hcnt, hmax, hin, hout, hframe, hframes, hwall⟩
    refine wp_imp (acceptMessages_spec wire.messages [] 0 0 (Nat.zero_le _) (Nat.zero_le _)) ?_
    rintro messages ⟨hlength, htexts, houtT, hexpTotal⟩
    exact
      { nonempty := hlength ▸ hpos
        count := hlength ▸ hcnt
        messages := hmax
        inbound := hin
        outbound := hout
        controlPositive := hframe
        control := hframes
        wallTime := hwall
        texts := htexts
        outboundTotal := by simpa using houtT
        expectedTotal := by simpa using hexpTotal }
  rw [h] at hspec
  exact hspec

end Termivar.WebSocket
