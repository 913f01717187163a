/-
# One plugin invocation

`termivar-scanner/src/plugin/`: the context a plugin is given for one
invocation, and `PluginRegistry::execute`, which polls the plugin, drops it
and then seals the context. The counters are behind one lock. A call of the
plugin is in flight from its start to its return, and the steps of the calls
in flight come in any order: a step is what a call does up to and in its next
hold of the lock. A request holds a reservation from its admission until it
commits it or drops it.
-/
import Termivar.Knowledge.Records
import Termivar.Url

namespace Termivar.Plugin

open Command

def maxPluginIdBytes : Nat := 128
def maxPluginTextBytes : Nat := 1024
def maxPluginCaseIdBytes : Nat := 256
def maxPluginUrlBytes : Nat := 8192
def hardMaxPluginInputBytes : Nat := 1024 * 1024
def hardMaxPluginRequests : Nat := 64
def hardMaxPluginRequestTimeoutMs : Nat := 60000
def hardMaxPluginWallTimeMs : Nat := 300000
def hardMaxPluginResponseBodyBytes : Nat := 1024 * 1024
def hardMaxPluginCumulativeBodyBytes : Nat := 4 * 1024 * 1024
def hardMaxPluginObservations : Nat := 256
def hardMaxPluginObservationBytes : Nat := 1024 * 1024

def pluginApiVersion : String := "0.2.0"

inductive PluginError where
  | notFound
  | duplicateId
  | inUse
  | invalidConfig (detail : String)
  | incompatibleApiVersion (expected actual : String)
  | disabled
  | cancelled
  | wallTimeExceeded
  | requestTimeout
  | requestAbandoned
  | inputBudgetExceeded (actual maximum : Nat)
  | requestBudgetExceeded
  | responseBodyBudgetExceeded (actual maximum : Nat)
  | responseBodyBudgetUnavailable
  | cumulativeBodyBudgetExceeded
  | observationBudgetExceeded
  | observationBytesBudgetExceeded
  | scopeViolation
  | brokerFailure (detail : String)
  | executionFailed (detail : String)
  | panicked
  | hostCallbackPanicked
  | contextSealed
  | clockBeforeUnixEpoch
  | hostStateUnavailable

/-! ### Limits and identities -/

/-- Immutable invocation limits, which the setters keep under the hard maxima. -/
structure PluginBudget where
  maxInputBytes : Nat := 64 * 1024
  maxRequests : Nat := 16
  requestTimeoutMs : Nat := 5000
  maxWallTimeMs : Nat := 30000
  maxResponseBodyBytes : Nat := 64 * 1024
  maxCumulativeBodyBytes : Nat := 256 * 1024
  maxObservations : Nat := 64
  maxObservationBytes : Nat := 64 * 1024
  inputBounded : maxInputBytes ≤ hardMaxPluginInputBytes := by decide
  requestsBounded : maxRequests ≤ hardMaxPluginRequests := by decide
  timeoutBounded : requestTimeoutMs ≤ hardMaxPluginRequestTimeoutMs := by decide
  wallBounded : maxWallTimeMs ≤ hardMaxPluginWallTimeMs := by decide
  responseBounded : maxResponseBodyBytes ≤ hardMaxPluginResponseBodyBytes := by decide
  cumulativeBounded : maxCumulativeBodyBytes ≤ hardMaxPluginCumulativeBodyBytes := by decide
  observationsBounded : maxObservations ≤ hardMaxPluginObservations := by decide
  observationBytesBounded : maxObservationBytes ≤ hardMaxPluginObservationBytes := by decide

/-- The check of `validate_identifier`. -/
def isPluginIdentifier (max : Nat) (value : String) : Bool :=
  value ≠ "" && value.utf8ByteSize ≤ max &&
    value.toList.all fun c => c.isAlphanum || c = '.' || c = '-' || c = '_' || c = ':' || c = '/'

/-- An identifier that passed its check. -/
structure PluginIdentifier (max : Nat) where
  value : String
  valid : isPluginIdentifier max value = true

/-- Untrusted observation draft accepted by the host recorder. -/
structure PluginObservation where
  kind : EvidenceKind
  predicate : KnowledgePredicate
  value : EvidenceValue
  method : PluginIdentifier maxPluginIdBytes

structure PluginHttpResponse where
  status : Nat
  finalUrl : Url
  deliveredBodyBytes : Nat

structure PluginUsage where
  (requests responseBodyBytes observations observationBytes : Nat)

/-- What stays as it is over one invocation. The deadline is an instant in
milliseconds; `redact` is the policy of the host, which may panic. -/
structure PluginContext where
  pluginId : PluginIdentifier maxPluginIdBytes
  subject : EntityId
  authorizedOrigin : Url
  caseId : PluginIdentifier maxPluginCaseIdBytes
  budget : PluginBudget
  redact : String → Option String
  reliability : ConfidenceScore
  deadline : Nat

structure PluginContextState where
  isSealed : Bool := false
  failure : Option PluginError := none
  requests : Nat := 0
  responseBodyBytes : Nat := 0
  reservedResponseBodyBytes : Nat := 0
  observationBytes : Nat := 0
  observations : List Evidence := []

def validateScopedUrl (origin url : Url) : Except PluginError Unit :=
  if !url.isHttp || url.host.isNone || url.username ≠ "" || url.password.isSome ||
      url.fragment.isSome || url.origin.isNone || url.origin ≠ origin.origin then
    .error .scopeViolation
  else .ok ()

/-- The two scope checks of a URL. -/
def inScope (origin url : Url) : Bool :=
  (validateScopedUrl origin url).isOk && url.text.utf8ByteSize ≤ maxPluginUrlBytes

/-! ### Values and errors at the host boundary -/

def evidenceValueBytes : EvidenceValue → Nat
  | .boolean _ => 1
  | .signed _ => 8
  | .unsigned _ => 8
  | .text text => saturatingAdd u64Max 8 text.utf8ByteSize
  | .textList items => items.foldl
    (fun total item => saturatingAdd u64Max (saturatingAdd u64Max total 8) item.utf8ByteSize) 8

def redactValue (redact : String → Option String) : EvidenceValue → Option EvidenceValue
  | .text text => .text <$> redact text
  | .textList items => .textList <$> items.mapM redact
  | other => some other

/-- The longest prefix of at most so many bytes. -/
def takeBytes : Nat → List Char → List Char
  | _, [] => []
  | left, c :: cs => if c.utf8Size ≤ left then c :: takeBytes (left - c.utf8Size) cs else []

def boundedDetail (value : String) : String :=
  String.ofList (takeBytes maxPluginTextBytes value.toList)

def sanitizeError (redact : String → Option String) : PluginError → Option PluginError
  | .invalidConfig _ =>
    (redact "plugin rejected its configuration").map (.invalidConfig ∘ boundedDetail)
  | .executionFailed _ => (redact "plugin execution failed").map (.executionFailed ∘ boundedDetail)
  | .brokerFailure _ =>
    (redact "host plugin request broker failed").map (.brokerFailure ∘ boundedDetail)
  | .incompatibleApiVersion _ _ => some (.incompatibleApiVersion pluginApiVersion "[invalid]")
  | other => some other

variable (context : PluginContext) (state : PluginContextState) (error : PluginError)

/-- `sanitize_error_safely(..).unwrap_or(HostCallbackPanicked)`. -/
def sanitized : PluginError :=
  (sanitizeError context.redact error).getD .hostCallbackPanicked

/-- `EvidenceSource::new` with `with_correlation_id`. -/
def evidenceSource (component method correlationId : String) : Option EvidenceSource :=
  if h : isBlank component = false ∧ isBlank method = false ∧ isBlank correlationId = false then
    some { component, method, correlationId := some correlationId, componentNotBlank := h.1
           methodNotBlank := h.2.1, correlationNotBlank := by simp [h.2.2] }
  else none

/-! ### Under the lock -/

abbrev StateCommand (α : Type) : Type := Command PluginContextState PluginError α

def ensureStateActive : Except PluginError Unit := do
  if state.isSealed then throw .contextSealed
  if let some error := state.failure then throw error

/-- `fail`: the first failure is kept. -/
def latch (state : PluginContextState) : PluginContextState :=
  { state with failure := state.failure.or (some error) }

/-- The failure is written over whatever was there. -/
def failWith {α : Type} : StateCommand α := do
  modify fun state => { state with failure := some error }
  throw error

/-- The admission of a request: its capture limit is reserved. -/
def reserve (cancelled : Bool) (now : Nat) : StateCommand Nat := do
  let budget := context.budget
  let state ← get
  ensureStateActive state
  if cancelled then throw .cancelled
  if now ≥ context.deadline then failWith .wallTimeExceeded
  if state.requests ≥ budget.maxRequests then failWith .requestBudgetExceeded
  match checkedAdd u64Max state.responseBodyBytes state.reservedResponseBodyBytes with
  | none => failWith .cumulativeBodyBudgetExceeded
  | some committedAndReserved =>
    if budget.maxCumulativeBodyBytes ≤ committedAndReserved then
      failWith .cumulativeBodyBudgetExceeded
    if budget.maxResponseBodyBytes = 0 then failWith .responseBodyBudgetUnavailable
    let captureLimit := min budget.maxResponseBodyBytes
      (budget.maxCumulativeBodyBytes - committedAndReserved)
    modify fun state => { state with requests := state.requests + 1 }
    match checkedAdd u64Max state.reservedResponseBodyBytes captureLimit with
    | none => failWith .cumulativeBodyBudgetExceeded
    | some reserved =>
      modify fun state => { state with reservedResponseBodyBytes := reserved }
      return captureLimit

/-- `commit`, up to the end of the reservation. -/
def commit (captureLimit deliveredBodyBytes : Nat) (cancelled : Bool)
    (now : Nat) : StateCommand Unit := do
  let state ← get
  ensureStateActive state
  if state.reservedResponseBodyBytes < captureLimit then failWith .hostStateUnavailable
  if cancelled then throw .cancelled
  if now ≥ context.deadline then failWith .wallTimeExceeded
  match checkedAdd u64Max state.responseBodyBytes deliveredBodyBytes with
  | none => failWith .cumulativeBodyBudgetExceeded
  | some cumulative =>
    if cumulative > context.budget.maxCumulativeBodyBytes then failWith .cumulativeBodyBudgetExceeded
    modify fun state =>
      { state with
        reservedResponseBodyBytes := state.reservedResponseBodyBytes - captureLimit
        responseBodyBytes := cumulative }

/-- `drop` of an active reservation. -/
def release (captureLimit : Nat) (state : PluginContextState) : PluginContextState :=
  let state :=
    if state.reservedResponseBodyBytes < captureLimit then
      { state with failure := some .hostStateUnavailable }
    else
      { state with
        reservedResponseBodyBytes := state.reservedResponseBodyBytes - captureLimit }
  if !state.isSealed && state.failure.isNone then { state with failure := some .requestAbandoned }
  else state

/-- The last part of `record`. -/
def recordEvidence (evidence : Evidence) (chargedBytes : Nat) :
    StateCommand Unit := do
  let state ← get
  ensureStateActive state
  if state.observations.length ≥ context.budget.maxObservations then
    failWith .observationBudgetExceeded
  match checkedAdd u64Max state.observationBytes chargedBytes with
  | none => failWith .observationBytesBudgetExceeded
  | some nextBytes =>
    if nextBytes > context.budget.maxObservationBytes then failWith .observationBytesBudgetExceeded
    modify fun state =>
      { state with
        observationBytes := nextBytes
        observations := state.observations ++ [evidence] }

def discardState : PluginContextState :=
  { state with isSealed := true, observations := [] }

def finish (cancelled : Bool) (now : Nat) :
    StateCommand (List Evidence × PluginUsage) := do
  let state ← get
  ensureStateActive state
  if cancelled then throw .cancelled
  if now ≥ context.deadline then throw .wallTimeExceeded
  if state.reservedResponseBodyBytes ≠ 0 then throw .requestAbandoned
  set { state with isSealed := true, observations := [] }
  return (state.observations,
    { requests := state.requests, responseBodyBytes := state.responseBodyBytes
      observations := state.observations.length, observationBytes := state.observationBytes })

/-! ### The invocation -/

/-- A call in flight, by what it does next. A request is in the last six: it
is about to be admitted, or holds a reservation of its capture limit. -/
inductive Flight where
  /-- A call without a reservation is about to latch its failure. -/
  | latching (error : PluginError)
  | recordChecking (observation : PluginObservation)
  | recordRedacting (observation : PluginObservation)
  | recordCommitting (evidence : Evidence) (chargedBytes : Nat)
  | requestReserving (url : Url)
  | requestDispatching (captureLimit : Nat) (url : Url)
  | awaiting (captureLimit : Nat)
  | committing (captureLimit : Nat) (response : PluginHttpResponse)
  /-- A request is about to latch its failure and then to drop its reservation. -/
  | latchingHeld (captureLimit : Nat) (error : PluginError)
  | releasing (captureLimit : Nat) (error : PluginError)

/-- The capture limit of the reservation a call holds. -/
def Flight.held : Flight → Nat
  | .requestDispatching captureLimit _ => captureLimit
  | .awaiting captureLimit => captureLimit
  | .committing captureLimit _ => captureLimit
  | .latchingHeld captureLimit _ => captureLimit
  | .releasing captureLimit _ => captureLimit
  | _ => 0

/-- What a request that awaits the broker sees first. -/
inductive BrokerArrival where
  | cancelled
  | slept
  | failed (error : PluginError)
  | responded (response : PluginHttpResponse)

/-- What a call returned to the plugin. -/
inductive PluginReply where
  | recorded
  | responded (response : PluginHttpResponse)

structure PluginStats where
  executionCount : Nat := 0
  successCount : Nat := 0
  errorCount : Nat := 0

structure PluginExecutionResult where
  observations : List Evidence
  usage : PluginUsage

structure Invocation where
  context : PluginContext
  cancelled : Bool
  state : PluginContextState := {}
  flights : List Flight := []
  /-- The URLs handed to the broker. -/
  handed : List Url := []
  /-- What the calls of the plugin returned. -/
  returned : List (Except PluginError PluginReply) := []
  /-- The requests dropped before they returned. -/
  abandoned : Nat := 0
  completion : Option (Except PluginError Unit) := none
  result : Option (Except PluginError PluginExecutionResult) := none
  stats : PluginStats := {}

/-- A step of one call, of the host, or of `execute`. -/
inductive PluginStep where
  | record (observation : PluginObservation) (now : Nat)
  | request (url : Url)
  | advance (flight : Nat) (now : Nat) (arrival : BrokerArrival) (evidenceId : EvidenceId)
    (observedAtMs : Nat)
  | abandon (flight : Nat)
  | cancel
  | complete (outcome : Option (Except PluginError Unit)) (deadline : Bool)
  | conclude (dropPanicked : Bool) (now : Nat)

namespace Invocation

variable (inv : Invocation)

def replace (index : Nat) (flight : Flight) : Invocation :=
  { inv with flights := inv.flights.set index flight }

def remove (index : Nat) : Invocation :=
  { inv with flights := inv.flights.eraseIdx index }

/-- The call returns to the plugin. -/
def ret (index : Nat) (reply : Except PluginError PluginReply) : Invocation :=
  { inv.remove index with returned := inv.returned ++ [reply] }

def launch (flight : Flight) : Invocation :=
  { inv with flights := inv.flights ++ [flight] }

/-- `record` after `ensure_active`: the value is redacted and measured. -/
def redacted (index : Nat) (observation : PluginObservation)
    (evidenceId : EvidenceId) (observedAtMs : Nat) : Invocation :=
  let context := inv.context
  let maximum := context.budget.maxObservationBytes
  let rawBytes := evidenceValueBytes observation.value
  match redactValue context.redact observation.value with
  | none => inv.replace index (.latching .hostCallbackPanicked)
  | some value =>
    let redactedBytes := evidenceValueBytes value
    if rawBytes > maximum ∨ redactedBytes > maximum then
      inv.replace index (.latching .observationBytesBudgetExceeded)
    else
      match evidenceSource context.pluginId.value observation.method.value context.caseId.value with
      | none => inv.ret index
        (.error (.invalidConfig "plugin observation provenance is invalid"))
      | some source =>
        inv.replace index (.recordCommitting
          { id := evidenceId, subject := context.subject, kind := observation.kind
            predicate := observation.predicate, value, source
            reliability := context.reliability, observedAtMs, origin := .direct }
          (max rawBytes redactedBytes))

/-- The wait of `request` ends. -/
def arrived (index captureLimit : Nat) (now : Nat) : BrokerArrival → Invocation
  | .cancelled =>
    if inv.cancelled then inv.replace index (.latchingHeld captureLimit .cancelled) else inv
  | .slept => inv.replace index (.latchingHeld captureLimit
    (if now ≥ inv.context.deadline then .wallTimeExceeded else .requestTimeout))
  | .failed error => inv.replace index (.latchingHeld captureLimit (sanitized inv.context error))
  | .responded response =>
    if !inScope inv.context.authorizedOrigin response.finalUrl then
      inv.replace index (.latchingHeld captureLimit .scopeViolation)
    else if response.deliveredBodyBytes > captureLimit then
      inv.replace index (.latchingHeld captureLimit
        (.responseBodyBudgetExceeded response.deliveredBodyBytes captureLimit))
    else inv.replace index (.committing captureLimit response)

/-- The next step of a call in flight. -/
def advance (index : Nat) (now : Nat) (arrival : BrokerArrival)
    (evidenceId : EvidenceId) (observedAtMs : Nat) : Flight → Invocation
  | .latching error =>
    { inv with state := latch error inv.state }.ret index (.error error)
  | .recordChecking observation =>
    match ensureStateActive inv.state with
    | .error error => inv.ret index (.error error)
    | .ok _ => inv.replace index (.recordRedacting observation)
  | .recordRedacting observation => inv.redacted index observation evidenceId observedAtMs
  | .recordCommitting evidence chargedBytes =>
    match recordEvidence inv.context evidence chargedBytes inv.state with
    | .ok _ state => { inv with state }.ret index (.ok .recorded)
    | .error error state => { inv with state }.ret index (.error error)
    | .panic => inv
  | .requestReserving url =>
    match reserve inv.context inv.cancelled now inv.state with
    | .ok captureLimit state =>
      { inv with state }.replace index (.requestDispatching captureLimit url)
    | .error error state => { inv with state }.ret index (.error error)
    | .panic => inv
  | .requestDispatching captureLimit url =>
    if inv.context.budget.requestTimeoutMs = 0 then
      inv.replace index (.latchingHeld captureLimit .requestTimeout)
    else if now ≥ inv.context.deadline then
      inv.replace index (.latchingHeld captureLimit .wallTimeExceeded)
    else { inv.replace index (.awaiting captureLimit) with handed := inv.handed ++ [url] }
  | .awaiting captureLimit => inv.arrived index captureLimit now arrival
  | .committing captureLimit response =>
    match commit inv.context captureLimit response.deliveredBodyBytes inv.cancelled now inv.state with
    | .ok _ state => { inv with state }.ret index (.ok (.responded response))
    | .error error state => { inv with state }.replace index (.releasing captureLimit error)
    | .panic => inv
  | .latchingHeld captureLimit error =>
    { inv with state := latch error inv.state }.replace index (.releasing captureLimit error)
  | .releasing captureLimit error =>
    { inv with state := release captureLimit inv.state }.ret index (.error error)

/-- A request is dropped before it has returned. It can be dropped only while
it awaits the broker, or by a panic of the call that hands it over. -/
def abandon (index : Nat) : Flight → Invocation
  | .requestDispatching captureLimit _ =>
    { inv.remove index with
      state := release captureLimit inv.state, abandoned := inv.abandoned + 1 }
  | .awaiting captureLimit =>
    { inv.remove index with
      state := release captureLimit inv.state, abandoned := inv.abandoned + 1 }
  | _ => inv

/-- `discard`. -/
def discard : Invocation :=
  { inv with cancelled := true, state := discardState inv.state }

/-- `execute` returns an error. -/
def refuse (error : PluginError) : Invocation :=
  { inv.discard with
    result := some (.error error)
    stats := { inv.stats with errorCount := saturatingAdd u64Max inv.stats.errorCount 1 } }

/-- The end of `execute`, after the future of the plugin was dropped. -/
def conclude (dropPanicked : Bool) (now : Nat) : Invocation :=
  if dropPanicked then inv.refuse .panicked
  else
    match inv.completion with
    | none => inv
    | some (.error error) => inv.refuse error
    | some (.ok _) =>
      match finish inv.context inv.cancelled now inv.state with
      | .ok (observations, usage) state =>
        { inv with
          state, result := some (.ok { observations, usage })
          stats := { inv.stats with
            successCount := saturatingAdd u64Max inv.stats.successCount 1 } }
      | .error error state => { inv with state }.refuse error
      | .panic => inv

/-- How the wait for the plugin ended. With no outcome it was cancelled, ran
into its deadline or panicked. -/
def complete (outcome : Option (Except PluginError Unit)) (deadline : Bool) :
    Invocation :=
  { inv with completion := some (match outcome with
    | some (.ok _) => .ok ()
    | some (.error error) => .error (sanitized inv.context error)
    | none => .error
      (if inv.cancelled then .cancelled else if deadline then .wallTimeExceeded else .panicked)) }

/-- One step. After the result nothing happens; before it, the calls of the
plugin go on, and `execute` concludes once no call is in flight. -/
def step (action : PluginStep) : Invocation :=
  if inv.result.isSome then inv
  else
    match action with
    | .record observation now =>
      if inv.cancelled then { inv with returned := inv.returned ++ [.error .cancelled] }
      else if now ≥ inv.context.deadline then inv.launch (.latching .wallTimeExceeded)
      else inv.launch (.recordChecking observation)
    | .request url =>
      if inScope inv.context.authorizedOrigin url then inv.launch (.requestReserving url)
      else inv.launch (.latching .scopeViolation)
    | .advance index now arrival evidenceId observedAtMs =>
      match inv.flights[index]? with
      | none => inv
      | some flight => inv.advance index now arrival evidenceId observedAtMs flight
    | .abandon index =>
      match inv.flights[index]? with
      | none => inv
      | some flight => inv.abandon index flight
    | .cancel => { inv with cancelled := true }
    | .complete outcome deadline =>
      if inv.completion.isSome then inv else inv.complete outcome deadline
    | .conclude dropPanicked now => if inv.flights.isEmpty then inv.conclude dropPanicked now else inv

/-- `from_request` at one reading of the clock, and the `ensure_active` of
`execute` at a later one. -/
def start (context : PluginContext) (inputBytes : Nat) (cancelled : Bool) (now later : Nat) :
    Except PluginError Invocation :=
  let context := { context with deadline := now + context.budget.maxWallTimeMs }
  if inputBytes > context.budget.maxInputBytes then
    .error (.inputBudgetExceeded inputBytes context.budget.maxInputBytes)
  else if cancelled then .error .cancelled
  else if later ≥ context.deadline then .error .wallTimeExceeded
  else .ok { context, cancelled, stats := { executionCount := 1 } }

def run (actions : List PluginStep) : Invocation := actions.foldl step inv

end Invocation

end Termivar.Plugin
