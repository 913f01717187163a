/-
# The callback provider

`termivar-oast/src/state.rs`: sessions behind the lock of the provider, with
their callbacks, events and polls. A call is handed the time it is made at and
what the random source answers it; a failed call leaves what it wrote (a
reclaimed session, a spent poll, the mark of a lost event).
-/
import Termivar.Command
import Termivar.Oast.Protocol

namespace Termivar.Oast

open ProviderError

def maxDuplicateHits : Nat := u16Max
def idGenerationAttempts : Nat := 8
def resultRetentionMillis : Nat := 120000

structure StoredEvent where
  eventId : EventId
  callbackId : CallbackId
  cursor : EventCursor
  duplicateCount : Nat

def StoredEvent.toPublic (event : StoredEvent) : HttpEventRecord where
  eventId := event.eventId
  callbackId := event.callbackId
  cursor := event.cursor
  duplicateCount := event.duplicateCount

structure CallbackState where
  eventIndex : Option Nat

structure SessionState where
  tokenDigest : Bytes
  (expiresAtMillis retainUntilMillis maxCallbacks maxEvents maxPolls polls nextCursor : Nat)
  callbacks : BTreeMap CallbackId CallbackState
  events : List StoredEvent
  eventRetentionIncomplete : Bool

/-- Canonical, externally visible origin of the provider, ending in `/`. -/
structure PublicOrigin where
  canonical : String

structure ProviderState where
  limits : ProviderLimits
  publicOrigin : PublicOrigin
  adminDigest : Bytes
  sessions : BTreeMap SessionId SessionState

abbrev ProviderCommand (α : Type) : Type := Command ProviderState ProviderError α

section Operations

variable (sha256 : Bytes → Bytes)

/-- A provider without sessions. -/
def ProviderState.new (limits : ProviderLimits) (publicOrigin : PublicOrigin) (admin : Bytes) :
    ProviderState where
  limits := limits
  publicOrigin := publicOrigin
  adminDigest := digest sha256 adminTokenDigestDomain admin
  sessions := ∅

/-! ### Sessions -/

def validateSessionRequest (request : SessionRequest) (limits : ProviderLimits) :
    Except ProviderError Unit :=
  if request.lifetimeMs = 0 ∨ request.maxCallbacks = 0 ∨ request.maxEvents = 0 ∨
      request.maxPolls = 0 ∨ request.lifetimeMs > limits.maxSessionLifetimeMillis ∨
      request.maxCallbacks > limits.maxCallbacksPerSession ∨
      request.maxEvents > limits.maxEventsPerSession ∨
      request.maxPolls > limits.maxPollsPerSession then
    .error invalidSessionRequest
  else .ok ()

/-- Sessions past their retention deadline are dropped. -/
def reclaimSessionsAt (now : Nat) : ProviderCommand Unit :=
  modify fun state =>
    { state with sessions := state.sessions.filter fun _ session => now < session.retainUntilMillis }

variable (sessionId : SessionId) (session : SessionState) (sessionBearer : Bytes)
  (callbackId : CallbackId)

/-- Write the session back. -/
def putSession : ProviderCommand Unit :=
  modify fun state => { state with sessions := state.sessions.insert sessionId session }

def authenticatedSession (candidate : Bytes) (now : Nat) :
    ProviderCommand SessionState := do
  let state ← get
  let session ← okOr state.sessions[sessionId]? sessionNotFound
  if !matchesSession sha256 session.tokenDigest candidate then throw unauthorized
  reclaimSessionsAt now
  let state ← get
  okOr state.sessions[sessionId]? sessionNotFound

/-- The first of at most eight random identities that is not taken. -/
def uniqueId {kind : OpaqueKind} (taken : OpaqueId kind → Bool)
    (draws : Nat → Option (RandomBytes kind.rawBytes)) :
    Nat → Except ProviderError (OpaqueId kind)
  | 0 => .error internalInvariant
  | attempts + 1 => do
    let bytes ← okOr (draws attempts) entropyUnavailable
    let id ← OpaqueId.fromRandom bytes
    if taken id then uniqueId taken draws attempts else return id

def randomSessionToken (draw : Option (RandomBytes 32)) : Except ProviderError SessionToken := do
  let bytes ← okOr draw entropyUnavailable
  SessionToken.fromRandom bytes

def randomEventId (draw : Option (RandomBytes 32)) : Except ProviderError EventId := do
  let bytes ← okOr draw entropyUnavailable
  OpaqueId.fromRandom bytes

def registerBearerAt (adminBearer : Bytes) (request : SessionRequest)
    (idDraws : Nat → Option (RandomBytes 16)) (tokenDraw : Option (RandomBytes 32)) (now : Nat) :
    ProviderCommand SessionRegistration := do
  let state ← get
  if !matchesAdmin sha256 state.adminDigest adminBearer then throw unauthorized
  validateSessionRequest request state.limits
  let expiresAtMillis ← okOr (checkedAdd u64Max now request.lifetimeMs) invalidSessionRequest
  let retainUntilMillis ← okOr (checkedAdd u64Max expiresAtMillis resultRetentionMillis)
    invalidSessionRequest
  reclaimSessionsAt now
  let state ← get
  if state.sessions.size ≥ state.limits.maxActiveSessions then throw sessionCapacityExhausted
  let sessionId ← uniqueId state.sessions.contains idDraws idGenerationAttempts
  let sessionToken ← randomSessionToken tokenDraw
  let session : SessionState :=
    { tokenDigest := digest sha256 sessionTokenDigestDomain sessionToken.encoded
      expiresAtMillis
      retainUntilMillis
      maxCallbacks := request.maxCallbacks
      maxEvents := request.maxEvents
      maxPolls := request.maxPolls
      polls := 0
      nextCursor := 0
      callbacks := ∅
      events := []
      eventRetentionIncomplete := false }
  putSession sessionId session
  if state.sessions.contains sessionId then throw internalInvariant
  return { sessionId, sessionToken, expiresAfterMs := request.lifetimeMs }

/-! ### Callbacks -/

def callbackTarget (origin : PublicOrigin) (sessionId : SessionId) (callbackId : CallbackId) :
    Except ProviderError String :=
  let value := origin.canonical ++ "c/" ++ sessionId.text ++ "/" ++ callbackId.text
  if value.utf8ByteSize > maxCallbackTargetBytes then .error internalInvariant else .ok value

def allocateBearerAt (idDraws : Nat → Option (RandomBytes 16)) (now : Nat) :
    ProviderCommand CallbackAllocation := do
  let session ← authenticatedSession sha256 sessionId sessionBearer now
  if now ≥ session.expiresAtMillis then throw sessionExpired
  if session.callbacks.size ≥ session.maxCallbacks then throw callbackCapacityExhausted
  let callbackId ← uniqueId session.callbacks.contains idDraws idGenerationAttempts
  let state ← get
  let target ← callbackTarget state.publicOrigin sessionId callbackId
  putSession sessionId
    { session with callbacks := session.callbacks.insert callbackId { eventIndex := none } }
  if session.callbacks.contains callbackId then throw internalInvariant
  return { callbackId, target }

/-- The session lost an event: no later poll is complete. -/
def markIncomplete : ProviderCommand Unit :=
  putSession sessionId { session with eventRetentionIncomplete := true }

def retainNewEvent (eventId : Except ProviderError EventId) : ProviderCommand Unit :=
  match eventId with
  | .error failure => do
    markIncomplete sessionId session
    throw failure
  | .ok eventId =>
    match checkedAdd u64Max session.nextCursor 1 with
    | none => do
      markIncomplete sessionId session
      throw internalInvariant
    | some nextCursor =>
      match EventCursor.new nextCursor with
      | .error failure => do
        markIncomplete sessionId session
        throw failure
      | .ok cursor =>
        match session.callbacks[callbackId]? with
        | none => do
          markIncomplete sessionId session
          throw internalInvariant
        | some _ =>
          putSession sessionId { session with
            callbacks := session.callbacks.insert callbackId
              { eventIndex := some session.events.length }
            events := session.events ++ [{ eventId, callbackId, cursor, duplicateCount := 0 }]
            nextCursor }

/-- One more hit of a callback that owns an event. -/
def countDuplicate (index : Nat) :
    ProviderCommand CallbackDisposition :=
  match session.events[index]? with
  | none => do
    markIncomplete sessionId session
    throw internalInvariant
  | some event => do
    if event.duplicateCount < maxDuplicateHits then
      putSession sessionId { session with
        events := session.events.set index { event with duplicateCount := event.duplicateCount + 1 } }
    else markIncomplete sessionId session
    return .duplicateSuppressed

def observeCallbackAt (eventDraw : Option (RandomBytes 32)) (now : Nat) :
    ProviderCommand CallbackDisposition := do
  let state ← get
  match state.sessions[sessionId]? with
  | none => return .unknown
  | some session =>
    if now ≥ session.expiresAtMillis then return .expired
    else
      match session.callbacks[callbackId]? with
      | none => return .unknown
      | some callback =>
        match callback.eventIndex with
        | some index => countDuplicate sessionId session index
        | none =>
          if session.events.length ≥ session.maxEvents then do
            markIncomplete sessionId session
            return .capacityExhausted
          else do
            retainNewEvent sessionId session callbackId (randomEventId eventDraw)
            return .recorded

def markCallbackObservationIncomplete :
    ProviderCommand Unit := do
  let state ← get
  match state.sessions[sessionId]? with
  | none => return
  | some session =>
    if session.callbacks.contains callbackId then markIncomplete sessionId session

/-! ### Polls -/

/-- The page after a cursor. -/
def pollPage (limits : ProviderLimits) (sessionId : SessionId) (session : SessionState)
    (after : EventCursor) (now : Nat) : PollResponse :=
  let pending := session.events.filter fun event => event.cursor.value > after.value
  let events := (pending.take limits.maxPollEventsPerResponse).map StoredEvent.toPublic
  let hasMore := limits.maxPollEventsPerResponse < pending.length
  { sessionId
    nextCursor := events.getLast?.elim after (·.cursor)
    complete := !hasMore && !session.eventRetentionIncomplete
    expired := now ≥ session.expiresAtMillis
    events }

def pollBearerAt (after : EventCursor)
    (now : Nat) : ProviderCommand PollResponse := do
  let session ← authenticatedSession sha256 sessionId sessionBearer now
  if session.polls ≥ session.maxPolls then throw pollBudgetExhausted
  let polls ← okOr (checkedAdd u16Max session.polls 1) internalInvariant
  putSession sessionId { session with polls }
  if after.value > session.nextCursor then throw invalidCursor
  let state ← get
  return pollPage state.limits sessionId session after now

def cleanupBearerAt (now : Nat) :
    ProviderCommand Unit := do
  let _ ← authenticatedSession sha256 sessionId sessionBearer now
  let state ← get
  if state.sessions.contains sessionId then
    set { state with sessions := state.sessions.erase sessionId }
  else throw internalInvariant

end Operations

/-! ### Calls -/

/-- A call of the provider, with its time and its random bytes. -/
inductive ProviderOp where
  | register (adminBearer : Bytes) (request : SessionRequest)
      (idDraws : Nat → Option (RandomBytes 16)) (tokenDraw : Option (RandomBytes 32)) (now : Nat)
  | allocate (sessionId : SessionId) (sessionBearer : Bytes)
      (idDraws : Nat → Option (RandomBytes 16)) (now : Nat)
  | observeCallback (sessionId : SessionId) (callbackId : CallbackId)
      (eventDraw : Option (RandomBytes 32)) (now : Nat)
  | markCallbackObservationIncomplete (sessionId : SessionId) (callbackId : CallbackId)
  | poll (sessionId : SessionId) (sessionBearer : Bytes) (after : EventCursor) (now : Nat)
  | cleanup (sessionId : SessionId) (sessionBearer : Bytes) (now : Nat)

inductive ProviderReply where
  | registered (registration : SessionRegistration)
  | allocated (allocation : CallbackAllocation)
  | observed (disposition : CallbackDisposition)
  | marked
  | polled (page : PollResponse)
  | removed

def ProviderOp.exec (sha256 : Bytes → Bytes) :
    ProviderOp → ProviderCommand ProviderReply
  | .register adminBearer request idDraws tokenDraw now =>
    .registered <$> registerBearerAt sha256 adminBearer request idDraws tokenDraw now
  | .allocate sessionId sessionBearer idDraws now =>
    .allocated <$> allocateBearerAt sha256 sessionId sessionBearer idDraws now
  | .observeCallback sessionId callbackId eventDraw now =>
    .observed <$> observeCallbackAt sessionId callbackId eventDraw now
  | .markCallbackObservationIncomplete sessionId callbackId =>
    (fun _ => .marked) <$> Oast.markCallbackObservationIncomplete sessionId callbackId
  | .poll sessionId sessionBearer after now =>
    .polled <$> pollBearerAt sha256 sessionId sessionBearer after now
  | .cleanup sessionId sessionBearer now =>
    (fun _ => .removed) <$> cleanupBearerAt sha256 sessionId sessionBearer now

end Termivar.Oast
