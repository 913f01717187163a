/-
# Collecting one response body

`termivar-scanner/src/http_evidence/{request_broker,response}.rs`: one request
is sent under a lease of the request budget, its response is read chunk by
chunk up to the limits of the policy, of the execution and of the budget that
other leases use up meanwhile, and what was read is then asked whether it is a
complete body.

What the transport brings is an `Exchange`, with the calls of the other leases
between any two steps. The own lease is kept beside the broker, and a record
says what the collector charged, kept and finished, which the source does not
have. The lease is dropped after the run (`Runtime.dropLease`).
-/
import Termivar.Text
import Termivar.Runtime.Budget

namespace Termivar.HttpEvidence

open Command List Option
open Termivar.Runtime (Accounting AccountingCommand AccountingOp DecisionActionOrigin
  DecisionExecutionStage RequestAccountingLease RuntimeLimitExceeded TransportDispatchOutcome)

/-- `usize::MAX` of a 64-bit target. -/
def usizeMax : Nat := u64Max

/-- What is too large for a `usize` counts as the largest one. -/
def toUsize (n : Nat) : Nat := min n usizeMax

inductive CollectError where
  | unmeteredRequestBody
  | limit (exceeded : RuntimeLimitExceeded)
  | request
  | timeout
  /-- The future was dropped while it waited. -/
  | dropped
  deriving DecidableEq

inductive RequestBody where
  | absent
  | buffered (bytes : Nat)
  | streamed

/-! ### What the transport brings -/

/-- What the wait for a chunk ends with. -/
inductive Delivery where
  | chunk (bytes : Bytes)
  | eof
  | failed
  | timedOut

def Delivery.bytes : Delivery → Bytes
  | .chunk bytes => bytes
  | _ => []

/-- One turn of the loop, with the calls of other leases before the limits are
looked at and while the chunk is waited for. -/
structure Turn where
  before : List AccountingOp := []
  guardTimedOut : Bool := false
  during : List AccountingOp := []
  delivery : Delivery

/-- The head of a response. The length is the one the transport declares. -/
structure ResponseHead where
  status : Nat
  (finalUrl version : String)
  headers : List (String × Bytes)
  contentLength : Option Nat
  ttfbMs : Nat

inductive Exchange where
  | failed
  | timedOut
  | answered (head : ResponseHead) (turns : List Turn) (totalMs : Nat)

structure CollectedHttpResponse where
  status : Nat
  (finalUrl version : String)
  headers : List (String × Bytes)
  body : Bytes
  (bodyTruncated bodyComplete : Bool)
  (ttfbMs totalMs : Nat)

/-! ### The collector -/

/-- What the collector did with its lease and with the bytes. -/
inductive CollectStep where
  | charged (delivered admitted : Nat)
  | retained (bytes : Bytes)
  | finished (outcome : TransportDispatchOutcome)

structure Collector where
  broker : Accounting
  lease : Option RequestAccountingLease := none
  steps : List CollectStep := []

abbrev CollectCommand (α : Type) : Type := Command Collector CollectError α

/-- A call on the own lease: the call sees no other. -/
def onLease {α : Type} (x : AccountingCommand α) : CollectCommand α :=
  zoom (fun c => { c.broker with leases := c.lease.toList })
    (fun c broker =>
      { c with broker := { broker with leases := c.broker.leases }, lease := broker.leases.head? })
    (mapErr .limit x)

/-- The broker after the calls of others, who keep their replies. -/
def afterOthers (ops : List AccountingOp) (broker : Accounting) : Accounting :=
  ops.foldl (fun broker op => (reply op.exec broker).elim broker Prod.snd) broker

def byOthers (ops : List AccountingOp) : CollectCommand Unit :=
  modify fun c => { c with broker := afterOthers ops c.broker }

def note (step : CollectStep) : CollectCommand Unit :=
  modify fun c => { c with steps := c.steps ++ [step] }

/-- `remaining_response_bytes` of the lease, as a `usize`. -/
def sessionRemaining (c : Collector) : Nat :=
  match c.lease with
  | none => usizeMax
  | some _ => toUsize (c.broker.budget.maxResponseBytes - c.broker.state.snapshot.responseBytes)

def meteredRequestBodyBytes : RequestBody → Except CollectError Nat
  | .absent => .ok 0
  | .buffered bytes => .ok (min bytes u64Max)
  | .streamed => .error .unmeteredRequestBody

def beginAccounting (metered : Bool) (actionId : String) (stage : DecisionExecutionStage)
    (origin : Option DecisionActionOrigin) (requestBodyBytes : Nat) : CollectCommand Unit :=
  if metered then
    (fun _ => ()) <$>
      onLease (Runtime.tryBeginWithRequestBodyBytes actionId stage origin requestBodyBytes)
  else pure ()

def finishAccounting (outcome : TransportDispatchOutcome) : CollectCommand Unit := do
  let c ← get
  match c.lease with
  | none => pure ()
  | some lease =>
    onLease (Runtime.finish 0 lease outcome)
    note (.finished outcome)

/-- Charges a delivered chunk; the bytes of it that the session admits. -/
def observeResponseBytes (observed : Nat) : CollectCommand Nat := do
  let c ← get
  match c.lease with
  | none => return observed
  | some lease =>
    let retained ← onLease (Runtime.observeResponseBytes 0 lease (min observed u64Max))
    note (.charged observed retained)
    return if retained ≤ usizeMax then retained else observed

structure BodyRead where
  body : Bytes
  (truncated complete : Bool)

/-- The loop over the chunks. -/
def readBody (bodyLimit : Nat) (expected : Option Nat) :
    List Turn → Bytes → CollectCommand BodyRead
  | [], _ => throw .dropped
  | turn :: turns, body => do
    byOthers turn.before
    let c ← get
    if c.lease.isSome ∧ turn.guardTimedOut then throw .timeout
    else if bodyLimit - body.length = 0 ∨ sessionRemaining c = 0 then
      return ⟨body, expected.all (min body.length u64Max < ·), false⟩
    else do
      byOthers turn.during
      match turn.delivery with
      | .failed => throw .request
      | .timedOut => throw .timeout
      | .eof => return ⟨body, false, true⟩
      | .chunk chunk => do
        let sessionRetention ← observeResponseBytes chunk.length
        let retained := min sessionRetention (bodyLimit - body.length)
        note (.retained (chunk.take retained))
        if retained < chunk.length then return ⟨body ++ chunk.take retained, true, false⟩
        else readBody bodyLimit expected turns (body ++ chunk.take retained)

/-- The future that the request timeout is set on. -/
def exchangeResponse (bodyLimit : Nat) : Exchange → CollectCommand CollectedHttpResponse
  | .failed => throw .request
  | .timedOut => throw .timeout
  | .answered head turns totalMs => do
    let read ← readBody bodyLimit head.contentLength turns []
    return { status := head.status, finalUrl := head.finalUrl, version := head.version,
             headers := head.headers, body := read.body, bodyTruncated := read.truncated,
             bodyComplete := read.complete, ttfbMs := head.ttfbMs, totalMs }

variable (maxBodyBytes : Nat)

/-- The limit of the policy and that of the execution. -/
def bodyLimit (maxResponseBodyBytes : Option Nat) : Nat :=
  min maxBodyBytes ((maxResponseBodyBytes.map toUsize).getD usizeMax)

/-- Every end of the future classifies the dispatch, unless it was dropped. -/
def conclude : Except CollectError CollectedHttpResponse → CollectCommand CollectedHttpResponse
  | .ok response => do
    let c ← get
    finishAccounting (if c.lease.any (·.responseBudgetReached) then .responseBudgetReached
      else .completed)
    return response
  | .error .dropped => throw .dropped
  | .error .timeout => do
    finishAccounting .requestTimeout
    throw .timeout
  | .error error => do
    finishAccounting .transportFailure
    throw error

def collectBuiltRequest (metered : Bool) (actionId : String)
    (stage : DecisionExecutionStage) (origin : Option DecisionActionOrigin)
    (maxResponseBodyBytes : Option Nat) (request : RequestBody) (exchange : Exchange) :
    CollectCommand CollectedHttpResponse := do
  let requestBodyBytes ← liftM (meteredRequestBodyBytes request)
  beginAccounting metered actionId stage origin requestBodyBytes
  let collected ← attempt (exchangeResponse (bodyLimit maxBodyBytes maxResponseBodyBytes) exchange)
  conclude collected

/-! ### What is asked of a response -/

/-- The values of a header, by its name in lower case. -/
def headerValues (name : String) (headers : List (String × Bytes)) : List Bytes :=
  (headers.filter (·.1 = name)).map (·.2)

/-- The bytes that `HeaderValue::to_str` reads. -/
def isVisible (byte : UInt8) : Bool := (32 ≤ byte && byte < 127) || byte = 9

def isAsciiDigit (byte : UInt8) : Bool := 48 ≤ byte && byte ≤ 57

def contentLengthMatchesBody (headers : List (String × Bytes)) (bodyLength : Nat) : Bool :=
  match headerValues "content-length" headers with
  | [] => true
  | [value] => value.all isVisible && !value.isEmpty && value.all isAsciiDigit &&
      parseU64 (value.map fun byte => Char.ofNat byte.toNat) = some bodyLength
  | _ => false

namespace CollectedHttpResponse

variable (response : CollectedHttpResponse)

/-- `body_complete`. -/
def isComplete : Bool :=
  response.bodyComplete && !response.bodyTruncated

def contentEncodingIsAbsent : Bool :=
  (headerValues "content-encoding" response.headers).isEmpty

def contentLengthIsConsistent : Bool :=
  contentLengthMatchesBody response.headers (min response.body.length u64Max)

def completeIdentityContentBody : Option Bytes :=
  if response.isComplete && response.contentEncodingIsAbsent && response.contentLengthIsConsistent
  then some response.body else none

end CollectedHttpResponse

/-! ### What is kept of what is delivered -/

def delivered (turns : List Turn) : Bytes := turns.flatMap (·.delivery.bytes)

theorem delivered_cons {turn : Turn} {bytes : Bytes} (h : turn.delivery = .chunk bytes)
    (turns : List Turn) : delivered (turn :: turns) = bytes ++ delivered turns := by
  simp [delivered, Delivery.bytes, h]

def chargeSteps (metered : Bool) (delivered admitted : Nat) : List CollectStep :=
  if metered then [.charged delivered admitted] else []

def finishSteps (metered : Bool) (outcome : TransportDispatchOutcome) : List CollectStep :=
  if metered then [.finished outcome] else []

/-- How often the lease was finished. -/
def finishes (steps : List CollectStep) : Nat :=
  steps.countP fun
    | .finished _ => true
    | _ => false

@[simp] theorem finishes_append (steps more : List CollectStep) :
    finishes (steps ++ more) = finishes steps + finishes more := countP_append

@[simp] theorem finishes_retained (bytes : Bytes) (steps : List CollectStep) :
    finishes (.retained bytes :: steps) = finishes steps := rfl

@[simp] theorem finishes_chargeSteps (metered : Bool) (n admitted : Nat) :
    finishes (chargeSteps metered n admitted) = 0 := by
  cases metered <;> rfl

@[simp] theorem finishes_finishSteps (metered : Bool) (outcome : TransportDispatchOutcome) :
    finishes (finishSteps metered outcome) = if metered then 1 else 0 := by
  cases metered <;> rfl

/-- The turns bring chunks, each is charged in full and then kept, and only of
the last less may be kept than was delivered. -/
inductive Retained (metered : Bool) : List Turn → Bytes → List CollectStep → Prop
  | none : Retained metered [] [] []
  | cut {turn : Turn} {bytes : Bytes} {n admitted : Nat} (hturn : turn.delivery = .chunk bytes)
      (hcut : n < bytes.length) (hadmitted : metered = true → n ≤ admitted) :
      Retained metered [turn] (bytes.take n)
        (chargeSteps metered bytes.length admitted ++ [.retained (bytes.take n)])
  | whole {turn : Turn} {turns : List Turn} {bytes body : Bytes} {admitted : Nat}
      {steps : List CollectStep} (hturn : turn.delivery = .chunk bytes)
      (hadmitted : metered = true → bytes.length ≤ admitted)
      (hrest : Retained metered turns body steps) :
      Retained metered (turn :: turns) (bytes ++ body)
        (chargeSteps metered bytes.length admitted ++ [.retained bytes] ++ steps)

namespace Retained

variable {metered : Bool} {turns : List Turn} {body : Bytes} {steps : List CollectStep}

theorem isPrefix (h : Retained metered turns body steps) : body <+: delivered turns := by
  induction h with
  | none => exact nil_prefix
  | cut hturn _ _ =>
    rw [delivered_cons hturn]
    exact ( take_prefix _ _).trans (prefix_append _ _)
  | whole hturn _ _ ih =>
    rw [delivered_cons hturn]
    exact (prefix_append_right_inj _).mpr ih

theorem not_finished (h : Retained metered turns body steps) : finishes steps = 0 := by
  induction h with
  | none => rfl
  | cut =>
    rw [finishes_append, finishes_chargeSteps]
    rfl
  | whole _ _ _ ih => simp [ih]

end Retained

/-- What the collector has done over some turns. -/
structure Progress (c : Collector) (front : List Turn) (kept : Bytes) (c' : Collector) : Prop where
  retained : ∃ steps, Retained c.lease.isSome front kept steps ∧ c'.steps = c.steps ++ steps
  charged : c'.lease.map (·.responseBytes) =
    c.lease.map fun lease => min (lease.responseBytes + (delivered front).length) u64Max

theorem Progress.none {c c' : Collector} (hls : c'.lease = c.lease) (hst : c'.steps = c.steps)
    (hbd : ∀ lease ∈ c.lease, lease.responseBytes ≤ u64Max) : Progress c [] [] c' where
  retained := ⟨[], .none, by simp [hst]⟩
  charged := by
    rw [hls]
    cases hheld : c.lease with
    | none => rfl
    | some lease => simpa [delivered] using (hbd lease hheld)

/-- A chunk was charged and some of it kept. -/
structure Took (c : Collector) (bytes : Nat) (admitted : Nat) (kept : Bytes) (c' : Collector) :
    Prop where
  steps : c'.steps = c.steps ++ (chargeSteps c.lease.isSome bytes admitted ++ [.retained kept])
  charged : c'.lease.map (·.responseBytes) =
    c.lease.map fun lease => min (lease.responseBytes + bytes) u64Max

namespace Took

variable {c c' c'' : Collector} {turn : Turn} {front : List Turn} {bytes kept : Bytes}
  {n admitted : Nat}

theorem isSome (h : Took c n admitted kept c') : c'.lease.isSome = c.lease.isSome := by
  have hsame := congrArg Option.isSome h.charged
  simpa using hsame

theorem bounded (h : Took c n admitted kept c') : ∀ lease ∈ c'.lease, lease.responseBytes ≤ u64Max := by
  intro lease hls
  have hchar := h.charged
  rw [mem_def.mp hls] at hchar
  cases hheld : c.lease with
  | none => simp [hheld] at hchar
  | some held =>
    simp only [hheld, map_some, some.injEq] at hchar
    omega

theorem cut (h : Took c bytes.length admitted (bytes.take n) c') (hturn : turn.delivery = .chunk bytes)
    (hcut : n < bytes.length) (hadmitted : c.lease.isSome = true → n ≤ admitted) :
    Progress c [turn] (bytes.take n) c' where
  retained := ⟨_, .cut hturn hcut hadmitted, h.steps⟩
  charged := by
    rw [h.charged, delivered_cons hturn]
    simp [delivered]

theorem whole (h : Took c bytes.length admitted bytes c') (hturn : turn.delivery = .chunk bytes)
    (hadmitted : c.lease.isSome = true → bytes.length ≤ admitted) (hrest : Progress c' front kept c'') :
    Progress c (turn :: front) (bytes ++ kept) c'' where
  retained := by
    obtain ⟨steps, hret, hst⟩ := hrest.retained
    rw [h.isSome] at hret
    exact ⟨_, .whole hturn hadmitted hret, by rw [hst, h.steps, append_assoc]⟩
  charged := by
    have hfirst := h.charged
    rw [hrest.charged, delivered_cons hturn, length_append]
    cases hheld : c.lease with
    | none =>
      rw [hheld] at hfirst
      simp only [map_none, map_eq_none_iff] at hfirst
      rw [hfirst]
      rfl
    | some lease =>
      rw [hheld, map_some] at hfirst
      obtain ⟨next, hnext, hbs⟩ := map_eq_some_iff.mp hfirst
      rw [hnext, map_some, map_some, hbs]
      congr 1
      omega

end Took

/-! ### The calls of the collector -/

section Calls

variable {c : Collector}

theorem observe_spec (n : Nat) :
    wp (observeResponseBytes n) (fun admitted c' => admitted ≤ n ∧
        c'.steps = c.steps ++ chargeSteps c.lease.isSome n admitted ∧
        c'.lease.map (·.responseBytes) =
          c.lease.map fun lease => min (lease.responseBytes + n) u64Max)
      (fun _ _ => False) False c := by
  unfold observeResponseBytes
  rw [wp_bind, wp_get]
  cases hheld : c.lease with
  | none => exact ⟨le_rfl, by simp [chargeSteps], by simp [hheld]⟩
  | some lease =>
    simp only [↓wp_rules, onLease, ↓wp_zoom, ↓wp_mapErr, Runtime.observeResponseBytes, note]
    have hfits : min (min n u64Max) (c.broker.budget.maxResponseBytes -
        c.broker.state.snapshot.responseBytes) ≤ usizeMax := by
      unfold usizeMax
      omega
    rw [if_pos hfits]
    refine ⟨by omega, by simp [chargeSteps], ?_⟩
    simp only [hheld, toList_some, set_cons_zero, head?_cons, map_some, saturatingAdd]
    congr 1
    omega

theorem finish_spec (outcome : TransportDispatchOutcome) :
    wp (finishAccounting outcome)
      (fun _ c' => c'.steps = c.steps ++ finishSteps c.lease.isSome outcome ∧
        c'.lease.map (·.responseBytes) = c.lease.map (·.responseBytes) ∧
        sessionRemaining c' = sessionRemaining c)
      (fun _ _ => False) False c := by
  unfold finishAccounting
  rw [wp_bind, wp_get]
  cases hheld : c.lease with
  | none => exact ⟨by simp [finishSteps], by rw [hheld], rfl⟩
  | some lease =>
    simp only [↓wp_rules, onLease, ↓wp_zoom, ↓wp_mapErr, Runtime.finish, note]
    refine ⟨by simp [finishSteps], by simp [hheld], ?_⟩
    simp [sessionRemaining, hheld]

end Calls

/-! ### The loop -/

/-- How the loop ended. -/
structure Ended (limit : Nat) (expected : Option Nat) (front back : List Turn) (body kept : Bytes)
    (read : BodyRead) (c : Collector) : Prop where
  body : read.body = body ++ kept
  bounded : read.body.length ≤ limit
  complete : read.complete = true → read.truncated = false ∧ kept = delivered front ∧
    ∃ turn rest, back = turn :: rest ∧ turn.delivery = .eof
  limited : read.truncated = false → read.complete = false →
    (read.body.length = limit ∨ sessionRemaining c = 0) ∧
      ∃ length, expected = some length ∧ length ≤ read.body.length

/-- An error ends the loop. -/
def Failed (error : CollectError) : Prop :=
  error = .request ∨ error = .timeout ∨ error = .dropped

theorem readBody_spec {limit : Nat} {expected : Option Nat} : ∀ {turns : List Turn} {body : Bytes}
    {c : Collector}, body.length ≤ limit → (∀ lease ∈ c.lease, lease.responseBytes ≤ u64Max) →
    wp (readBody limit expected turns body)
      (fun read c' => ∃ front back kept, turns = front ++ back ∧ Progress c front kept c' ∧
        Ended limit expected front back body kept read c')
      (fun error c' => Failed error ∧ ∃ front kept, Progress c front kept c') False c
  | [], body, c, _, hbd => ⟨.inr (.inr rfl), [], [], .none rfl rfl hbd⟩
  | turn :: turns, body, c, hbody, hbd => by
    simp only [readBody, ↓wp_bind, byOthers, ↓wp_modify, ↓wp_get, ↓wp_ite, ↓wp_throw, ↓wp_pure]
    refine ⟨fun _ => ⟨.inr (.inl rfl), [], [], .none rfl rfl hbd⟩, fun _ => ⟨fun hlimit => ?_,
      fun hroom => ?_⟩⟩
    · refine ⟨[], turn :: turns, [], rfl, .none rfl rfl hbd, ?_⟩
      refine ⟨by simp, hbody, (by simp), fun htrun _ => ⟨?_, ?_⟩⟩
      · exact hlimit.imp_left fun hfull => by show body.length = limit; omega
      · cases expected with
        | none => simp at htrun
        | some length =>
          simp only [all_some, decide_eq_false_iff_not] at htrun
          exact ⟨length, rfl, by show length ≤ body.length; omega⟩
    · obtain ⟨hleft, -⟩ := not_or.mp hroom
      cases hturn : turn.delivery with
      | failed => exact ⟨.inl rfl, [], [], .none rfl rfl hbd⟩
      | timedOut => exact ⟨.inr (.inl rfl), [], [], .none rfl rfl hbd⟩
      | eof =>
        refine ⟨[], turn :: turns, [], rfl, .none rfl rfl hbd, by simp, hbody, fun _ => ?_, (by simp)⟩
        exact ⟨rfl, rfl, turn, turns, rfl, hturn⟩
      | chunk chunk =>
        simp only [↓wp_bind, ↓wp_modify, note]
        refine wp_mono (observe_spec chunk.length) ?_ (fun _ _ h => h.elim) id
        rintro admitted c₁ ⟨hadmitted, hst, hchar⟩
        simp only [↓wp_ite, ↓wp_pure]
        have htook : Took c chunk.length admitted (chunk.take (min admitted (limit - body.length)))
            { c₁ with steps := c₁.steps ++
              [.retained (chunk.take (min admitted (limit - body.length)))] } :=
          ⟨by rw [hst, append_assoc], hchar⟩
        refine ⟨fun hcut => ?_, fun hwh => ?_⟩
        · refine ⟨[turn], turns, _, rfl, htook.cut hturn hcut fun _ => Nat.min_le_left _ _, ?_⟩
          refine ⟨rfl, ?_, (by simp), (by simp)⟩
          simp only [length_append, length_take]
          omega
        · rw [take_of_length_le (Nat.not_lt.mp hwh)] at htook ⊢
          have hnext : (body ++ chunk).length ≤ limit := by
            rw [length_append]
            omega
          refine wp_mono (readBody_spec hnext htook.bounded) ?_ ?_ id
          · rintro read c₂ ⟨front, back, kept, hturns, hprog, hend⟩
            refine ⟨turn :: front, back, chunk ++ kept, by rw [hturns, cons_append],
              htook.whole hturn (fun _ => by omega) hprog, ?_⟩
            refine { hend with body := by rw [hend.body, append_assoc], complete := ?_ }
            intro hcomp
            obtain ⟨htrun, hkept, hback⟩ := hend.complete hcomp
            exact ⟨htrun, by rw [delivered_cons hturn, hkept], hback⟩
          · rintro error c₂ ⟨hfailed, front, kept, hprog⟩
            exact ⟨hfailed, turn :: front, chunk ++ kept,
              htook.whole hturn (fun _ => by omega) hprog⟩

/-! ### The whole collection -/

theorem begin_spec {metered : Bool} {broker : Accounting} (actionId : String)
    (stage : DecisionExecutionStage) (origin : Option DecisionActionOrigin) (requestBodyBytes : Nat) :
    wp (beginAccounting metered actionId stage origin requestBodyBytes)
      (fun _ c => c.lease.isSome = metered ∧ c.steps = [] ∧ ∀ lease ∈ c.lease, lease.responseBytes = 0)
      (fun error c => (∃ exceeded, error = .limit exceeded) ∧ c.steps = []) False ⟨broker, none, []⟩ := by
  cases metered with
  | false => exact ⟨rfl, rfl, nofun⟩
  | true =>
    simp only [beginAccounting, if_true, ↓wp_rules, onLease, ↓wp_zoom, ↓wp_mapErr,
      Runtime.tryBeginWithRequestBodyBytes]
    refine Checked.wp_of_forall (fun _ => ⟨rfl, trivial, ?_⟩) fun exceeded => ⟨⟨exceeded, rfl⟩, trivial⟩
    intro lease hls
    cases mem_def.mp hls
    rfl

theorem conclude_failed {c : Collector} {error : CollectError} (h : Failed error)
    (hopen : finishes c.steps = 0) :
    wp (conclude (.error error)) (fun _ _ => False) (fun error c' => finishes c'.steps =
        if c.lease.isSome ∧ (error = .request ∨ error = .timeout) then 1 else 0) False c := by
  rcases h with rfl | rfl | rfl
  · simp only [conclude, ↓wp_rules]
    refine wp_mono (finish_spec .transportFailure) (fun _ c' hc => ?_) (fun _ _ hc => hc.elim) id
    simp [hc.1, hopen]
  · simp only [conclude, ↓wp_rules]
    refine wp_mono (finish_spec .requestTimeout) (fun _ c' hc => ?_) (fun _ _ hc => hc.elim) id
    simp [hc.1, hopen]
  · simpa [conclude] using hopen

theorem conclude_ok (c : Collector) (response : CollectedHttpResponse) :
    wp (conclude (.ok response)) (fun r c' => r = response ∧
        (∃ outcome, c'.steps = c.steps ++ finishSteps c.lease.isSome outcome) ∧
        c'.lease.map (·.responseBytes) = c.lease.map (·.responseBytes) ∧
        sessionRemaining c' = sessionRemaining c) (fun _ _ => False) False c := by
  simp only [conclude, ↓wp_rules]
  exact wp_mono (finish_spec _) (fun _ c' hc => ⟨trivial, ⟨_, hc.1⟩, hc.2⟩) (fun _ _ hc => hc) id

/-- A body that is passed on as complete was asked to be. -/
theorem complete_of_identity {response : CollectedHttpResponse} {bytes : Bytes}
    (h : response.completeIdentityContentBody = some bytes) :
    response.bodyComplete = true ∧ response.body = bytes ∧
      headerValues "content-encoding" response.headers = [] := by
  unfold CollectedHttpResponse.completeIdentityContentBody at h
  split_ifs at h with hasked
  simp only [Bool.and_eq_true, CollectedHttpResponse.isComplete,
    CollectedHttpResponse.contentEncodingIsAbsent, List.isEmpty_iff] at hasked
  exact ⟨hasked.1.1.1, some.inj h, hasked.1.2⟩

/-- **A partial body is not passed off as complete.** Of every exchange the
retained body is the start of what was delivered, within the limits; it is
called complete only where the stream ended after it, and neither complete nor
truncated only where a limit was reached with the declared length retained.
Every chunk is charged in full before any of it is kept, within what was
admitted, and every end of the exchange finishes the lease once. -/
theorem collect_bounded (metered : Bool) (actionId : String)
    (stage : DecisionExecutionStage) (origin : Option DecisionActionOrigin)
    (maxResponseBodyBytes : Option Nat) (request : RequestBody) (exchange : Exchange)
    (broker : Accounting) :
    wp (collectBuiltRequest maxBodyBytes metered actionId stage origin maxResponseBodyBytes request
        exchange)
      (fun response c => ∃ head front back totalMs steps outcome,
        exchange = .answered head (front ++ back) totalMs ∧
        response.body <+: delivered front ∧
        response.body.length ≤ bodyLimit maxBodyBytes maxResponseBodyBytes ∧
        (response.bodyComplete = true → response.bodyTruncated = false ∧
          response.body = delivered front ∧ ∃ turn rest, back = turn :: rest ∧ turn.delivery = .eof) ∧
        (response.bodyTruncated = false → response.bodyComplete = false →
          (response.body.length = bodyLimit maxBodyBytes maxResponseBodyBytes ∨
            sessionRemaining c = 0) ∧
          ∃ length, head.contentLength = some length ∧ length ≤ response.body.length ∧
            ((delivered front).length ≤ length → response.body.length = length)) ∧
        Retained metered front response.body steps ∧
        c.steps = steps ++ finishSteps metered outcome ∧
        finishes c.steps = (if metered then 1 else 0) ∧
        c.lease.map (·.responseBytes) =
          (if metered then some (min (delivered front).length u64Max) else none) ∧
        (∀ bytes, response.completeIdentityContentBody = some bytes → bytes = delivered front ∧
          (∃ turn rest, back = turn :: rest ∧ turn.delivery = .eof) ∧
          headerValues "content-encoding" response.headers = []))
      (fun error c => finishes c.steps =
        if metered ∧ (error = .request ∨ error = .timeout) then 1 else 0)
      False ⟨broker, none, []⟩ := by
  have hmeters : Checked.wp (meteredRequestBodyBytes request) (fun _ => True)
      (fun error => error = .unmeteredRequestBody) := by
    cases request <;> trivial
  unfold collectBuiltRequest
  rw [wp_bind, wp_lift]
  refine Checked.wp_mono hmeters (fun requestBodyBytes _ => ?_) ?_
  · rw [wp_bind]
    refine wp_mono (begin_spec actionId stage origin requestBodyBytes) ?_ ?_ id
    · rintro - c ⟨hmet, hfsh, hzero⟩
      have hbd : ∀ lease ∈ c.lease, lease.responseBytes ≤ u64Max := fun lease hls =>
        (hzero lease hls).trans_le (Nat.zero_le _)
      have hends : ∀ {error c'}, Failed error → finishes c'.steps = 0 → c'.lease.isSome = metered →
          wp (conclude (.error error)) (fun _ _ => False) (fun error c' => finishes c'.steps =
            if metered ∧ (error = .request ∨ error = .timeout) then 1 else 0) False c' := by
        rintro error c' hfailed hopen rfl
        exact conclude_failed hfailed hopen
      have hopen : finishes c.steps = 0 := by rw [hfsh]; rfl
      rw [wp_bind, wp_attempt]
      cases exchange with
      | failed =>
        rw [exchangeResponse, wp_throw]
        exact wp_mono (hends (.inl rfl) hopen hmet) (fun _ _ h => h.elim) (fun _ _ h => h) id
      | timedOut =>
        rw [exchangeResponse, wp_throw]
        exact wp_mono (hends (.inr (.inl rfl)) hopen hmet) (fun _ _ h => h.elim) (fun _ _ h => h) id
      | answered head turns totalMs =>
        simp only [exchangeResponse, ↓wp_rules]
        refine wp_mono (readBody_spec (Nat.zero_le _) hbd) ?_ ?_ id
        · rintro read c₁ ⟨front, back, kept, rfl, hprog, hend⟩
          obtain ⟨steps, hret, hst⟩ := hprog.retained
          have hsome : c₁.lease.isSome = metered := by
            have hsame := congrArg Option.isSome hprog.charged
            rw [Option.isSome_map, Option.isSome_map, hmet] at hsame
            exact hsame
          rw [hmet] at hret
          rw [hfsh, List.nil_append] at hst
          have hkept : read.body = kept := hend.body
          refine wp_mono (conclude_ok c₁ _) ?_ (fun _ _ h => h.elim) id
          rintro response c₂ ⟨rfl, ⟨outcome, hfin⟩, hls, hrem⟩
          rw [hst, hsome] at hfin
          have hcomp := hend.complete
          rw [← hkept] at hret hcomp
          refine ⟨head, front, back, totalMs, steps, outcome, rfl, hret.isPrefix, hend.bounded,
            hcomp, fun htrun hopen => ?_, hret, hfin, ?_, ?_, ?_⟩
          · obtain ⟨hlimit, length, hdecl, hle⟩ := hend.limited htrun hopen
            refine ⟨by rwa [hrem], length, hdecl, hle, fun hsh => ?_⟩
            exact le_antisymm (hret.isPrefix.length_le.trans hsh) hle
          · rw [hfin, finishes_append, hret.not_finished, finishes_finishSteps, Nat.zero_add]
          · rw [hls, hprog.charged, ← hmet]
            cases hheld : c.lease with
            | none => rfl
            | some lease => simp [hzero lease hheld]
          · intro bytes hbs
            obtain ⟨hwh, hbody, hid⟩ := complete_of_identity hbs
            obtain ⟨-, hall, heof⟩ := hcomp hwh
            exact ⟨hbody.symm.trans hall, heof, hid⟩
        · rintro error c₁ ⟨hfailed, front, kept, hprog⟩
          obtain ⟨steps, hret, hst⟩ := hprog.retained
          have hsame := congrArg Option.isSome hprog.charged
          rw [Option.isSome_map, Option.isSome_map, hmet] at hsame
          refine wp_mono (hends hfailed ?_ hsame) (fun _ _ h => h.elim) (fun _ _ h => h) id
          rw [hst, finishes_append, hopen, hret.not_finished]
    · rintro error c ⟨⟨exceeded, rfl⟩, hst⟩
      simp [hst, finishes]
  · rintro error rfl
    simp [finishes]

/-- **The declared length may be passed.** Where the transport delivers more
than it declares and the limit is met at the end of a chunk, a body longer than
declared is neither complete nor truncated. -/
theorem declared_length_passed :
    ¬ ∀ (maxBodyBytes : Nat) (metered : Bool) (actionId : String) (stage : DecisionExecutionStage)
      (origin : Option DecisionActionOrigin) (maxResponseBodyBytes : Option Nat)
      (request : RequestBody) (head : ResponseHead) (turns : List Turn) (totalMs : Nat)
      (broker : Accounting),
      wp (collectBuiltRequest maxBodyBytes metered actionId stage origin maxResponseBodyBytes request
          (.answered head turns totalMs))
        (fun response _ => response.bodyTruncated = false → response.bodyComplete = false →
          head.contentLength = some response.body.length)
        (fun _ _ => True) False ⟨broker, none, []⟩ := by
  intro h
  have hwrong := h 5 false "probe" .passive none none .absent
    { status := 200, finalUrl := "http://a.test/", version := "HTTP/1.1", headers := []
      contentLength := some 3, ttfbMs := 1 }
    [{ delivery := .chunk [1, 2, 3, 4, 5] }, { delivery := .eof }] 1
    (.new ⟨1, 1, 1, 1, by decide, by decide, by decide, by decide⟩)
  have hlength := hwrong rfl rfl
  exact absurd hlength (by decide)

end Termivar.HttpEvidence
