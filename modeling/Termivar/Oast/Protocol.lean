/-
# The native callback protocol

`termivar-oast/src/protocol.rs`, `secret.rs` and the limits of `config.rs`:
opaque identities, credentials, cursors, requests and responses. An opaque
identity carries that its text is canonical, a cursor that it is in range,
limits that they passed their check.
-/
import Termivar.Base64
import Termivar.Collections
import Termivar.Text

namespace Termivar.Oast

/-- Closed failures for native-provider configuration and state transitions. -/
inductive ProviderError where
  | invalidConfiguration
  | invalidPublicOrigin
  | nonLoopbackBindRejected
  | invalidAdminToken
  | unauthorized
  | sessionCapacityExhausted
  | invalidSessionRequest
  | sessionExpired
  | sessionNotFound
  | callbackCapacityExhausted
  | callbackNotFound
  | pollBudgetExhausted
  | eventCapacityExhausted
  | invalidCursor
  | invalidRequestTarget
  | requestTooLarge
  | responseTooLarge
  | methodNotAllowed
  | cancelled
  | deadlineExceeded
  | entropyUnavailable
  | internalInvariant

/-! ### Opaque identities -/

/-- The instances of `opaque_id!`. -/
inductive OpaqueKind where
  | session
  | callback
  | event

namespace OpaqueKind

def rawBytes : OpaqueKind → Nat
  | .session => 16
  | .callback => 16
  | .event => 32

def textBytes : OpaqueKind → Nat
  | .session => 22
  | .callback => 22
  | .event => 43

end OpaqueKind

/-- The check of `from_str`. -/
def isOpaqueText (kind : OpaqueKind) (source : String) : Bool :=
  source.utf8ByteSize = kind.textBytes && source.toList.all Base64.isUrlSafe &&
    match Base64.decode source.toList with
    | some decoded => decoded.length = kind.rawBytes && decoded.any (· ≠ 0) &&
      Base64.encode decoded = source.toList
    | none => false

/-- An opaque identity: the canonical text of its bytes, which are not all zero. -/
structure OpaqueId (kind : OpaqueKind) where
  text : String
  canonical : isOpaqueText kind text = true
  deriving DecidableEq

namespace OpaqueId

variable {kind : OpaqueKind}

theorem text_injective : Function.Injective fun id : OpaqueId kind => id.text := by
  rintro ⟨a, _⟩ ⟨b, _⟩ h
  simp only at h
  subst h
  rfl

instance : Ord (OpaqueId kind) where
  compare := compareOn (·.text)

instance : Std.TransOrd (OpaqueId kind) := inferInstanceAs (Std.TransCmp (compareOn OpaqueId.text))

instance : Std.LawfulEqOrd (OpaqueId kind) := lawfulEqCmp_compareOn text_injective

end OpaqueId

/-- What `getrandom` filled a buffer with. -/
structure RandomBytes (n : Nat) where
  bytes : Bytes
  length_eq : bytes.length = n

theorem isOpaqueText_encode {kind : OpaqueKind} {bytes : Bytes}
    (hlength : bytes.length = kind.rawBytes) (hnonz : bytes.any (· ≠ 0) = true) :
    isOpaqueText kind (String.ofList (Base64.encode bytes)) = true := by
  have hsize : (String.ofList (Base64.encode bytes)).utf8ByteSize = kind.textBytes := by
    rw [byteSize_ascii]
    · rw [Base64.length_encode, hlength]
      cases kind <;> rfl
    · intro c hc
      obtain ⟨n, hn, rfl⟩ := Base64.exists_symbol hc
      exact Base64.utf8Size_symbol hn
  unfold isOpaqueText
  simp only [String.toList_ofList, Base64.decode_encode, hsize, Base64.encode_urlSafe, hlength,
    decide_true, Bool.true_and]
  rw [hnonz]
  rfl

/-- `from_random`. -/
def OpaqueId.fromRandom {kind : OpaqueKind} (random : RandomBytes kind.rawBytes) :
    Except ProviderError (OpaqueId kind) :=
  if h : random.bytes.any (· ≠ 0) = true then
    .ok ⟨String.ofList (Base64.encode random.bytes), isOpaqueText_encode random.length_eq h⟩
  else .error .internalInvariant

/-- `from_str`. -/
def OpaqueId.fromStr (kind : OpaqueKind) (source : String) : Except ProviderError (OpaqueId kind) :=
  if h : isOpaqueText kind source = true then .ok ⟨source, h⟩ else .error .internalInvariant

abbrev SessionId : Type := OpaqueId .session
abbrev CallbackId : Type := OpaqueId .callback
abbrev EventId : Type := OpaqueId .event

/-! ### Credentials -/

/-- The bytes of an ASCII text. -/
def asciiBytes (cs : List Char) : Bytes := cs.map fun c => UInt8.ofNat c.toNat

/-- A session credential, returned once. -/
structure SessionToken where
  encoded : Bytes

def SessionToken.fromRandom (random : RandomBytes 32) : Except ProviderError SessionToken :=
  if random.bytes.any (· ≠ 0) then .ok ⟨asciiBytes (Base64.encode random.bytes)⟩
  else .error .internalInvariant

def minAdminTokenBytes : Nat := 32
def maxAdminTokenBytes : Nat := 4096

def validAdminBytes (bytes : Bytes) : Bool :=
  minAdminTokenBytes ≤ bytes.length && bytes.length ≤ maxAdminTokenBytes &&
    bytes.all fun byte => 0x21 ≤ byte && byte ≤ 0x7e

def adminTokenDigestDomain : Bytes :=
  asciiBytes "security.termivar-oast.admin-token-digest/v1\x00".toList

def sessionTokenDigestDomain : Bytes :=
  asciiBytes "security.termivar-oast.session-token-digest/v1\x00".toList

/-- The digest of a credential under its domain. -/
def digest (sha256 : Bytes → Bytes) (domain secret : Bytes) : Bytes :=
  sha256 (domain ++ secret)

def matchesAdmin (sha256 : Bytes → Bytes) (stored candidate : Bytes) : Bool :=
  validAdminBytes candidate && stored = digest sha256 adminTokenDigestDomain candidate

def matchesSession (sha256 : Bytes → Bytes) (stored candidate : Bytes) : Bool :=
  stored = digest sha256 sessionTokenDigestDomain candidate

/-! ### Limits -/

def hardMaxActiveSessions : Nat := 256
def hardMaxCallbacksPerSession : Nat := 8
def hardMaxEventsPerSession : Nat := 64
def hardMaxPollsPerSession : Nat := 32
def hardMaxPollEventsPerResponse : Nat := 32
def hardMaxSessionLifetimeMillis : Nat := 120000
def hardMaxConcurrentRequests : Nat := 256

/-- A limit is not zero and within its hard ceiling. -/
def WithinCeiling (limit ceiling : Nat) : Prop := limit ≠ 0 ∧ limit ≤ ceiling

instance (limit ceiling : Nat) : Decidable (WithinCeiling limit ceiling) :=
  inferInstanceAs (Decidable (_ ∧ _))

/-- Explicit checked provider resource ceilings. -/
structure ProviderLimits where
  (maxActiveSessions maxCallbacksPerSession maxEventsPerSession maxPollsPerSession : Nat)
  (maxPollEventsPerResponse maxSessionLifetimeMillis maxConcurrentRequests : Nat)
  sessionsChecked : WithinCeiling maxActiveSessions hardMaxActiveSessions
  callbacksChecked : WithinCeiling maxCallbacksPerSession hardMaxCallbacksPerSession
  eventsChecked : WithinCeiling maxEventsPerSession hardMaxEventsPerSession
  pollsChecked : WithinCeiling maxPollsPerSession hardMaxPollsPerSession
  pageChecked : WithinCeiling maxPollEventsPerResponse hardMaxPollEventsPerResponse ∧
    maxPollEventsPerResponse ≤ maxEventsPerSession
  lifetimeChecked : WithinCeiling maxSessionLifetimeMillis hardMaxSessionLifetimeMillis
  requestsChecked : WithinCeiling maxConcurrentRequests hardMaxConcurrentRequests

/-! ### Requests and responses -/

def maxCursor : Nat := u32Max

/-- Strict bounded non-secret event cursor. -/
structure EventCursor where
  value : Nat
  bounded : value ≤ maxCursor

def EventCursor.new (value : Nat) : Except ProviderError EventCursor :=
  if h : value ≤ maxCursor then .ok ⟨value, h⟩ else .error .invalidCursor

/-- `EventCursor::default`. -/
def EventCursor.start : EventCursor := ⟨0, Nat.zero_le _⟩

/-- Strict non-secret registration request. -/
structure SessionRequest where
  (lifetimeMs maxCallbacks maxEvents maxPolls : Nat)

structure SessionRegistration where
  sessionId : SessionId
  sessionToken : SessionToken
  expiresAfterMs : Nat

def maxCallbackTargetBytes : Nat := 2048

structure CallbackAllocation where
  callbackId : CallbackId
  target : String

inductive CallbackDisposition where
  | unknown
  | expired
  | recorded
  | duplicateSuppressed
  | capacityExhausted

/-- Raw-free event returned by polling. -/
structure HttpEventRecord where
  eventId : EventId
  callbackId : CallbackId
  cursor : EventCursor
  duplicateCount : Nat

/-- One bounded, non-blocking poll page. -/
structure PollResponse where
  sessionId : SessionId
  nextCursor : EventCursor
  (complete expired : Bool)
  events : List HttpEventRecord

end Termivar.Oast
