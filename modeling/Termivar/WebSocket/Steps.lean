/-
# The steps of a WebSocket review

What a review has counted at every moment of its run (`Kept`), that such
counters are consistent, and what one use of the socket can do to them.

Of the socket the run relies on two things (`Session.Framed`): a send that
succeeded has written the whole text, and a text is delivered only after its
bytes were read.
-/
import Termivar.WebSocket.Runtime

namespace Termivar.WebSocket

open Command WebSocketReviewMessage List WebSocketReviewAudit
open Termivar.Runtime (RequestAccountingSnapshot RuntimeBudget TransportDispatchOutcome)

/-! ### The socket -/

/-- The bytes of the text that a turn delivers. -/
def Turn.textBytes (turn : Turn) : Nat :=
  match turn.stopped, turn.received with
  | none, .message (.text payload) => payload.length
  | _, _ => 0

variable (peer : Nat → Turn) (turns : Nat)

/-- The bytes that the first turns read. -/
def readTotal : Nat :=
  ((range turns).map fun n => (peer n).read).sum

/-- The bytes of the texts that the first turns deliver. -/
def textTotal : Nat :=
  ((range turns).map fun n => (peer n).textBytes).sum

theorem readTotal_succ :
    readTotal peer (turns + 1) = readTotal peer turns + (peer turns).read := by
  simp [readTotal, range_succ]

theorem textTotal_succ :
    textTotal peer (turns + 1) = textTotal peer turns + (peer turns).textBytes := by
  simp [textTotal, range_succ]

/-- What the run relies on of the socket. -/
structure Session.Framed (s : Session) : Prop where
  sends : ∀ n text, (s.peer n).stopped = none → (s.peer n).succeeded = true →
    text.length ≤ (s.peer n).written text
  reads : ∀ n, textTotal s.peer n ≤ readTotal s.peer n

/-! ### Traces -/

def Event.failure? : Event → Option WebSocketReviewFailureKind
  | .failed kind => some kind
  | _ => none

def Event.isExchange : Event → Bool
  | .sending _ | .text _ => true
  | _ => false

/-- The classifications of the steps that failed, in order. -/
def failures (trace : List Event) : List WebSocketReviewFailureKind := trace.filterMap Event.failure?

/-- The messages sent and the texts read, in order. -/
def exchanged (trace : List Event) : List Event := trace.filter Event.isExchange

/-- The control frames that the response loop read. -/
def controlReads (trace : List Event) : Nat := trace.count .control

/-- Each message sent, with the text it was paired with. -/
def pairedEvents (texts : List Bytes) : List Event :=
  texts.zipIdx.flatMap fun (text, index) => [.sending index, .text text]

theorem pairedEvents_snoc (texts : List Bytes) (text : Bytes) :
    pairedEvents (texts ++ [text]) = pairedEvents texts ++ [.sending texts.length, .text text] := by
  simp [pairedEvents, zipIdx_append]

/-! ### Rows -/

section Rows

variable (s : Session)

/-- The rows of the messages sent, of which the first were answered. -/
def rowsOf : List WebSocketReviewMessage → List Bytes → List WebSocketReviewMessageAudit
  | [], _ => []
  | message :: sent, [] =>
    { message.row with status := .sentNoResponse } :: rowsOf sent []
  | message :: sent, text :: texts =>
    answeredRow message.row text (responseMatches s message.runtime text) :: rowsOf sent texts

variable {s}

@[simp] theorem length_rowsOf : ∀ (sent : List WebSocketReviewMessage) (texts : List Bytes),
    (rowsOf s sent texts).length = sent.length
  | [], _ => rfl
  | _ :: sent, [] => by simp [rowsOf, length_rowsOf sent]
  | _ :: sent, _ :: texts => by simp [rowsOf, length_rowsOf sent]

theorem rowsOf_snoc (message : WebSocketReviewMessage) :
    ∀ (sent : List WebSocketReviewMessage) (texts : List Bytes), texts.length = sent.length →
    rowsOf s (sent ++ [message]) texts =
      rowsOf s sent texts ++ [{ message.row with status := .sentNoResponse }]
  | [], [], _ => rfl
  | _ :: sent, text :: texts, h => by
    simp only [cons_append, rowsOf, rowsOf_snoc message sent texts (by simpa using h)]

theorem rowsOf_answered (message : WebSocketReviewMessage) (text : Bytes) :
    ∀ (sent : List WebSocketReviewMessage) (texts : List Bytes), texts.length = sent.length →
    rowsOf s (sent ++ [message]) (texts ++ [text]) = rowsOf s sent texts ++
      [answeredRow message.row text (responseMatches s message.runtime text)]
  | [], [], _ => rfl
  | _ :: sent, _ :: texts, h => by
    simp only [cons_append, rowsOf, rowsOf_answered message text sent texts (by simpa using h)]

theorem status_answeredRow (row : WebSocketReviewMessageAudit) (payload : Bytes) (matched : Bool) :
    (answeredRow row payload matched).status ≠ .notSent := by
  unfold answeredRow
  cases matched <;> simp

theorem filter_sent_rowsOf : ∀ (sent : List WebSocketReviewMessage) (texts : List Bytes),
    (rowsOf s sent texts).filter (fun row => row.status ≠ .notSent) = rowsOf s sent texts
  | [], _ => rfl
  | message :: sent, [] => by
    simpa [rowsOf] using filter_sent_rowsOf sent []
  | message :: sent, text :: texts => by
    rw [rowsOf, filter_cons_of_pos (by simpa using status_answeredRow _ _ _),
      filter_sent_rowsOf sent texts]

variable (messages : List WebSocketReviewMessage)

theorem filter_unsent :
    (messages.map (·.row)).filter (fun row => row.status ≠ .notSent) = [] := by
  simp [filter_eq_nil_iff, row]

theorem length_filter_answered : ∀ (sent : List WebSocketReviewMessage) (texts : List Bytes),
    texts.length ≤ sent.length →
    ((rowsOf s sent texts).filter fun row => row.inboundLength.isSome).length = texts.length
  | [], [], _ => rfl
  | message :: sent, [], _ => by
    simpa [rowsOf, row] using length_filter_answered sent [] (Nat.zero_le _)
  | message :: sent, text :: texts, h => by
    have := length_filter_answered sent texts (by simpa using h)
    simpa [rowsOf, answeredRow] using this

theorem filter_unanswered :
    (messages.map (·.row)).filter (fun row => row.inboundLength.isSome) = [] := by
  simp [filter_eq_nil_iff, row]

theorem outboundLength_rowsOf : ∀ (sent : List WebSocketReviewMessage) (texts : List Bytes),
    (rowsOf s sent texts).map (·.outboundLength) = sent.map fun message => message.text.length
  | [], _ => rfl
  | message :: sent, [] => by
    simp [rowsOf, row, outboundLength_rowsOf sent []]
  | message :: sent, text :: texts => by
    simp [rowsOf, row, answeredRow, outboundLength_rowsOf sent texts]

theorem inboundLength_rowsOf : ∀ (sent : List WebSocketReviewMessage) (texts : List Bytes),
    texts.length ≤ sent.length →
    ((rowsOf s sent texts).map fun row => row.inboundLength.getD 0).sum = (texts.map (·.length)).sum
  | [], [], _ => rfl
  | message :: sent, [], _ => by
    have := inboundLength_rowsOf sent [] (Nat.zero_le _)
    simpa [rowsOf, row] using this
  | message :: sent, text :: texts, h => by
    have := inboundLength_rowsOf sent texts (by simpa using h)
    simpa [rowsOf, answeredRow] using this

theorem inboundLength_unsent :
    ((messages.map (·.row)).map fun row => row.inboundLength.getD 0).sum = 0 := by
  simp [sum_eq_zero_iff, row]

theorem isValid_answeredRow {limits : WebSocketReviewExecutionLimits} (message : WebSocketReviewMessage)
    (text : Bytes) (hout : message.text.length ≤ limits.maxOutboundMessageBytes)
    (hexp : message.expectedResponseLength ≤ limits.maxInboundMessageBytes) :
    (answeredRow message.row text (responseMatches s message.runtime text)).isValid limits = true := by
  cases hmat : responseMatches s message.runtime text with
  | false =>
    simp [answeredRow, WebSocketReviewMessageAudit.isValid, row, hout, hexp]
  | true =>
    have hlength : text.length = message.expectedResponseLength := by
      simp only [responseMatches, runtime, Bool.and_eq_true] at hmat
      exact of_decide_eq_true hmat.1
    simp [answeredRow, WebSocketReviewMessageAudit.isValid, row, hout, hexp, hlength]

theorem isValid_rowsOf {limits : WebSocketReviewExecutionLimits} :
    ∀ (sent : List WebSocketReviewMessage) (texts : List Bytes),
    (∀ message ∈ sent, message.text.length ≤ limits.maxOutboundMessageBytes ∧
      message.expectedResponseLength ≤ limits.maxInboundMessageBytes) →
    ∀ row ∈ rowsOf s sent texts, row.isValid limits = true
  | [], _, _ => nofun
  | message :: sent, texts, h => by
    obtain ⟨hhead, htail⟩ := forall_mem_cons.mp h
    cases texts with
    | nil =>
      refine forall_mem_cons.mpr ⟨?_, isValid_rowsOf sent [] htail⟩
      simp [WebSocketReviewMessageAudit.isValid, row, hhead]
    | cons text texts =>
      exact forall_mem_cons.mpr
        ⟨isValid_answeredRow message text hhead.1 hhead.2, isValid_rowsOf sent texts htail⟩

end Rows

/-! ### What the run has counted -/

/-- How far the connection has come. -/
inductive Phase where
  | idle
  | attempted
  | admitted
  | connecting
  | established

namespace Phase

def attempts : Phase → Nat
  | idle => 0
  | _ => 1

def admissions : Phase → Nat
  | idle | attempted => 0
  | _ => 1

def connections : Phase → Nat
  | connecting | established => 1
  | _ => 0

def handshakes : Phase → Nat
  | established => 1
  | _ => 0

end Phase

/-- The counters of a run that has sent `sent` and paired `texts`. -/
structure Kept (s : Session) (policy : WebSocketReviewPolicy) (phase : Phase)
    (sent : List WebSocketReviewMessage) (texts : List Bytes) (r : Review) : Prop where
  limits : r.audit.limits = policy.executionLimits
  configured : r.audit.configuredMessageCount = policy.messages.length
  attempts : r.audit.requestAttemptCount = phase.attempts
  admitted : r.audit.requestAdmittedCount = phase.admissions
  connections : r.audit.connectionAttemptCount = phase.connections
  handshakes : r.audit.handshakeCompletedCount = phase.handshakes
  negotiated : r.audit.subprotocolNegotiated = true →
    r.audit.subprotocolRequested = true ∧ phase = .established
  requested : r.audit.subprotocolRequested = policy.subprotocol.isSome
  body : r.audit.accountedRequestBodyBytes = 0
  outbound : r.audit.outboundMessageCount = sent.length
  inbound : r.audit.inboundMessageCount = texts.length
  outboundBytes : r.audit.outboundApplicationBytes = (sent.map fun message => message.text.length).sum
  inboundBytes : r.audit.inboundApplicationBytes = (texts.map (·.length)).sum
  rows : r.audit.messages = rowsOf s sent texts ++ (policy.messages.drop sent.length).map (·.row)
  sentFirst : sent <+: policy.messages
  awaited : texts.length ≤ sent.length
  total : (texts.map (·.length)).sum ≤ maxDirectionBytes
  accounted : r.audit.accountedResponseBytes = r.audit.transportReadBytes
  read : r.audit.transportReadBytes = min (readTotal s.peer r.turn) u64Max
  written : r.audit.outboundApplicationBytes ≤ r.audit.transportWriteBytes
  delivered : (texts.map (·.length)).sum ≤ textTotal s.peer r.turn
  idle : phase.connections = 0 → r.audit.transportReadBytes = 0 ∧ r.audit.transportWriteBytes = 0
  unsent : phase.handshakes = 0 → sent = []
  control : r.audit.outboundControlFrameCount + r.audit.inboundControlFrameCount ≤
    policy.limits.maxControlFrames

variable {s : Session} {policy : WebSocketReviewPolicy} {phase : Phase}
  {sent : List WebSocketReviewMessage} {texts : List Bytes} {r r' : Review}

/-- Only the counters and the turn matter. -/
theorem Kept.congr (h : Kept s policy phase sent texts r) {terminal : WebSocketReviewTerminal}
    {failure : Option WebSocketReviewFailureKind}
    (haudit : r'.audit = { r.audit with terminal, failure }) (hturn : r'.turn = r.turn) :
    Kept s policy phase sent texts r' := by
  obtain ⟨audit, snapshot, bytes, reached, outcome, turn, trace⟩ := r'
  obtain rfl : audit = _ := haudit
  obtain rfl : turn = _ := hturn
  exact { h with }

theorem sentBytes_le (hvalid : policy.Valid) (h : sent <+: policy.messages) :
    (sent.map fun message => message.text.length).sum ≤ maxDirectionBytes := by
  obtain ⟨unsent, hmsgs⟩ := h
  have htot := hvalid.outboundTotal
  rw [← hmsgs, map_append, sum_append] at htot
  omega

theorem Kept.connectionIsConsistent (h : Kept s policy phase sent texts r) :
    r.audit.connectionIsConsistent = true := by
  have hneg := h.negotiated
  simp only [WebSocketReviewAudit.connectionIsConsistent, h.attempts, h.admitted, h.connections,
    h.handshakes, h.limits, WebSocketReviewPolicy.executionLimits]
  cases hsub : r.audit.subprotocolNegotiated with
  | false =>
    rw [Bool.not_false, Bool.true_or, Bool.and_true]
    cases phase <;> decide
  | true =>
    obtain ⟨hreq, rfl⟩ := hneg hsub
    rw [hreq]
    decide

theorem Kept.messagesAreConsistent (hvalid : policy.Valid) (h : Kept s policy phase sent texts r) :
    r.audit.messagesAreConsistent = true := by
  obtain ⟨unsent, hmsgs⟩ := h.sentFirst
  have hlength := congrArg length hmsgs
  rw [length_append] at hlength
  have hu64 : maxDirectionBytes ≤ u64Max := by decide
  have hsen := sentBytes_le hvalid h.sentFirst
  have hrowL : r.audit.messages.length = policy.messages.length := by
    rw [h.rows, length_append, length_rowsOf, length_map, length_drop]
    omega
  have hsent : r.audit.messages.filter (fun row => row.status ≠ .notSent) = rowsOf s sent texts := by
    rw [h.rows, filter_append, filter_sent_rowsOf, filter_unsent, append_nil]
  have hansw : (r.audit.messages.filter fun row => row.inboundLength.isSome).length =
      texts.length := by
    rw [h.rows, filter_append, filter_unanswered, append_nil, length_filter_answered _ _ h.awaited]
  have hout : rowOutboundBytes r.audit.messages =
      (sent.map fun message => message.text.length).sum := by
    rw [rowOutboundBytes, hsent,
      foldl_saturatingAdd WebSocketReviewMessageAudit.outboundLength _ 0 (Nat.zero_le _)
        (by rw [outboundLength_rowsOf]; omega),
      outboundLength_rowsOf, Nat.zero_add]
  have hin : ((r.audit.messages.map fun row => row.inboundLength.getD 0)).sum =
      (texts.map (·.length)).sum := by
    rw [h.rows, map_append, sum_append, inboundLength_rowsOf _ _ h.awaited,
      inboundLength_unsent, Nat.add_zero]
  have hinb : rowInboundBytes r.audit.messages = (texts.map (·.length)).sum := by
    have htot := h.total
    rw [rowInboundBytes,
      foldl_saturatingAdd (fun row : WebSocketReviewMessageAudit => row.inboundLength.getD 0) _ 0
        (Nat.zero_le _) (by omega), hin, Nat.zero_add]
  have hawaited := h.awaited
  have hpos := hvalid.nonempty
  have hcnt := hvalid.count
  simp only [WebSocketReviewAudit.messagesAreConsistent, hsent, hansw, hout, hinb,
    h.configured, h.outbound, h.inbound, h.outboundBytes, h.inboundBytes, hrowL, h.limits,
    WebSocketReviewPolicy.executionLimits, length_rowsOf, Bool.and_eq_true, decide_eq_true_eq,
    gt_iff_lt]
  exact ⟨⟨⟨⟨⟨⟨⟨trivial, hpos⟩, hcnt⟩, trivial⟩, trivial⟩, hawaited⟩, trivial⟩, trivial⟩

theorem Kept.transportIsConsistent (hframed : s.Framed)
    (h : Kept s policy phase sent texts r) : r.audit.transportIsConsistent = true := by
  have hu64 : maxDirectionBytes ≤ u64Max := by decide
  have hread : r.audit.inboundApplicationBytes ≤ r.audit.transportReadBytes := by
    have htot := h.total
    have hdel := h.delivered
    have hrd := hframed.reads r.turn
    rw [h.inboundBytes, h.read]
    omega
  have hidle := h.idle
  have hunsent := h.unsent
  have hwr := h.written
  simp only [WebSocketReviewAudit.transportIsConsistent, h.body, h.accounted, h.connections,
    h.handshakes, h.outbound, Bool.and_eq_true, Bool.or_eq_true, decide_eq_true_eq, ge_iff_le]
  refine ⟨⟨⟨⟨⟨⟨trivial, trivial⟩, hread⟩, hwr⟩, ?_⟩, ?_⟩, ?_⟩
  · cases phase <;> simp_all [Phase.connections]
  · cases phase <;> simp_all [Phase.connections]
  · cases phase <;> simp_all [Phase.handshakes]

theorem Kept.limitsAreConsistent (hvalid : policy.Valid) (h : Kept s policy phase sent texts r) :
    r.audit.limitsAreConsistent = true := by
  have hcontrol : saturatingAdd u64Max r.audit.outboundControlFrameCount
      r.audit.inboundControlFrameCount ≤ policy.limits.maxControlFrames :=
    (Nat.min_le_left _ _).trans h.control
  have hsent : sent.length ≤ policy.limits.maxMessages := h.sentFirst.length_le.trans hvalid.count
  have hsen := sentBytes_le hvalid h.sentFirst
  simp only [WebSocketReviewAudit.limitsAreConsistent, h.limits, h.outbound, h.inbound,
    h.outboundBytes, h.inboundBytes, WebSocketReviewPolicy.executionLimits, Bool.and_eq_true,
    decide_eq_true_eq]
  exact ⟨⟨⟨⟨⟨⟨⟨⟨⟨⟨hsent, h.awaited.trans hsent⟩, hcontrol⟩, hsen⟩, h.total⟩, trivial⟩,
    le_refl _⟩, le_refl _⟩, hvalid.messages⟩, hvalid.control⟩, hvalid.wallTime⟩

theorem Kept.rowsAreValid (hvalid : policy.Valid) (h : Kept s policy phase sent texts r) :
    r.audit.messages.all (·.isValid r.audit.limits) = true := by
  rw [all_eq_true, h.rows, h.limits]
  intro row hmem
  obtain hsent | hunsent := mem_append.mp hmem
  · refine isValid_rowsOf sent texts (fun message hmsg => ?_) row hsent
    exact hvalid.texts message (h.sentFirst.subset hmsg)
  · obtain ⟨message, hmsg, rfl⟩ := mem_map.mp hunsent
    have := hvalid.texts message (mem_of_mem_drop hmsg)
    simp [WebSocketReviewMessageAudit.isValid, row, WebSocketReviewPolicy.executionLimits, this]

/-- The counters of a run, with a terminal state that agrees with them, are
consistent. -/
theorem Kept.isConsistent (hframed : s.Framed) (hvalid : policy.Valid)
    (h : Kept s policy phase sent texts r) (hterm : r.audit.terminalIsConsistent = true) :
    r.audit.isConsistent = true := by
  simp only [WebSocketReviewAudit.isConsistent, h.connectionIsConsistent,
    h.messagesAreConsistent hvalid, h.transportIsConsistent hframed,
    h.limitsAreConsistent hvalid, h.rowsAreValid hvalid, hterm, Bool.and_self]

theorem Kept.initial (s : Session) (policy : WebSocketReviewPolicy)
    (snapshot : RequestAccountingSnapshot) :
    Kept s policy .idle [] [] { audit := policy.initialAudit, snapshot } where
  limits := rfl
  configured := rfl
  attempts := rfl
  admitted := rfl
  connections := rfl
  handshakes := rfl
  negotiated := nofun
  requested := rfl
  body := rfl
  outbound := rfl
  inbound := rfl
  outboundBytes := rfl
  inboundBytes := rfl
  rows := rfl
  sentFirst := nil_prefix
  awaited := le_refl _
  total := Nat.zero_le _
  accounted := rfl
  read := rfl
  written := le_refl _
  delivered := Nat.zero_le _
  idle := fun _ => ⟨rfl, rfl⟩
  unsent := fun _ => rfl
  control := Nat.zero_le _

/-! ### What a use of the socket does -/

/-- The audit after a turn has moved its bytes. -/
def WebSocketReviewAudit.transported (audit : WebSocketReviewAudit) (read written : Nat) :
    WebSocketReviewAudit :=
  { audit with
    transportReadBytes := saturatingAdd u64Max audit.transportReadBytes read
    transportWriteBytes := saturatingAdd u64Max audit.transportWriteBytes written
    accountedResponseBytes := if read = 0 then audit.accountedResponseBytes
      else saturatingAdd u64Max audit.accountedResponseBytes read }

/-- The socket was used once. -/
structure Moved (s : Session) (text : Bytes) (r r' : Review) : Prop where
  audit : r'.audit = r.audit.transported (s.peer r.turn).read ((s.peer r.turn).written text)
  turn : r'.turn = r.turn + 1
  trace : r'.trace = r.trace

/-- The run failed with `kind`. -/
structure Failing (kind : WebSocketReviewFailureKind) (r r' : Review) : Prop where
  audit : r'.audit = r.audit.fail kind
  turn : r'.turn = r.turn
  trace : r'.trace = r.trace ++ [.failed kind]

theorem failing_failed (kind : WebSocketReviewFailureKind) (r : Review) :
    Failing kind r (r.failed kind) := ⟨rfl, rfl, rfl⟩

variable {α : Type}

variable {err : TransportDispatchOutcome → Review → Prop} {pan : Prop}

theorem wp_refuse {ok : α → Review → Prop} (kind : WebSocketReviewFailureKind) :
    wp (refuse kind : ReviewCommand α) ok err pan r ↔ err .transportFailure (r.failed kind) := Iff.rfl

theorem wp_refuseBudget {ok : α → Review → Prop} :
    wp (refuseBudget : ReviewCommand α) ok err pan r ↔
      err .responseBudgetReached (r.failed .parentResponseBudgetReached) := Iff.rfl

theorem wp_fail {ok : Unit → Review → Prop} (kind : WebSocketReviewFailureKind) :
    wp (fail kind) ok err pan r ↔ ok () (r.failed kind) := Iff.rfl

theorem wp_note {ok : Unit → Review → Prop} (event : Event) :
    wp (note event) ok err pan r ↔ ok () (r.noted event) := Iff.rfl

theorem halt_spec (stop : StepStop) :
    wp (halt stop : ReviewCommand α) (fun _ _ => False) (fun _ r' => ∃ kind, Failing kind r r')
      False r := by
  cases stop with
  | cancelled => exact ⟨.cancelled, rfl, rfl, rfl⟩
  | deadline => exact ⟨.deadlineReached, rfl, rfl, rfl⟩

theorem observeTransportDelta_spec (read written : Nat) :
    wp (observeTransportDelta s read written)
      (fun _ r' => r'.audit = r.audit.transported read written ∧ r'.turn = r.turn ∧
        r'.trace = r.trace)
      (fun _ r' => ∃ q kind, Failing kind q r' ∧ q.audit = r.audit.transported read written ∧
        q.turn = r.turn ∧ q.trace = r.trace) False r := by
  unfold observeTransportDelta observeResponseBytes
  simp only [↓wp_rules, wp_refuseBudget]
  refine ⟨fun hread => ⟨fun _ => ?_, fun _ => ?_⟩, fun hread => ?_⟩
  · refine ⟨_, _, failing_failed _ _, ?_, rfl, rfl⟩
    simp only [transported, if_neg hread]
  · refine ⟨?_, trivial, trivial⟩
    simp only [transported, if_neg hread]
  · refine ⟨?_, trivial, trivial⟩
    simp only [transported, if_pos (not_not.mp hread)]

/-- What one use of the socket can do: it is not reached, it moves its bytes
and then fails, or it moves its bytes and returns what the peer answers. -/
theorem exchange_spec (budgeted : Bool) (text : Bytes) :
    wp (exchange s budgeted text)
      (fun turn r' => turn = s.peer r.turn ∧ turn.stopped = none ∧ Moved s text r r')
      (fun _ r' => ∃ q kind, Failing kind q r' ∧
        (q.audit = r.audit ∧ q.turn = r.turn ∧ q.trace = r.trace ∨ Moved s text r q)) False r := by
  unfold exchange acquireResponseRead
  simp only [↓wp_bind, ↓wp_get, ↓wp_set]
  cases (s.peer r.turn).gate with
  | some stop =>
    refine wp_mono (halt_spec stop) (fun _ _ he => he.elim) (fun _ r' hfail => ?_) id
    obtain ⟨kind, hfail⟩ := hfail
    exact ⟨_, kind, hfail, .inl ⟨rfl, rfl, rfl⟩⟩
  | none =>
    simp only [↓wp_pure, ↓wp_ite]
    refine ⟨fun _ => ⟨_, _, failing_failed _ _, .inl ⟨rfl, rfl, rfl⟩⟩, fun _ => ?_⟩
    simp only [↓wp_bind, ↓wp_set]
    refine wp_mono (observeTransportDelta_spec _ _) (fun _ q hq => ?_) (fun _ r' hr' => ?_) id
    · have hmv : Moved s text r q := ⟨hq.1, hq.2.1, hq.2.2⟩
      cases hstop : (s.peer r.turn).stopped with
      | some stop =>
        simp only [Review.charged, hstop]
        refine wp_mono (halt_spec stop) (fun _ _ he => he.elim) (fun _ r' hfail => ?_) id
        obtain ⟨kind, hfail⟩ := hfail
        exact ⟨q, kind, hfail, .inr hmv⟩
      | none =>
        simp only [Review.charged, hstop, ↓wp_pure]
        exact ⟨trivial, trivial, hmv⟩
    · obtain ⟨q, kind, hfail, hq⟩ := hr'
      exact ⟨q, kind, hfail, .inr ⟨hq.1, hq.2.1, hq.2.2⟩⟩

/-- A use of the socket keeps the counters. -/
theorem Kept.moved (hvalid : policy.Valid) (h : Kept s policy phase sent texts r)
    (hph : phase.connections = 1) {text : Bytes} (hmv : Moved s text r r') :
    Kept s policy phase sent texts r' := by
  obtain ⟨audit, snapshot, bytes, reached, outcome, turn, trace⟩ := r'
  obtain rfl : audit = _ := hmv.audit
  obtain rfl : turn = _ := hmv.turn
  have hu64 : maxDirectionBytes ≤ u64Max := by decide
  have hsen := sentBytes_le hvalid h.sentFirst
  have hread := h.read
  have hacc := h.accounted
  refine { h with
    accounted := ?_
    read := ?_
    written := ?_
    delivered := ?_
    idle := fun hzero => by omega }
  · simp only [transported, hacc]
    split
    · rename_i hzero
      rw [hzero, saturatingAdd_eq (by omega), Nat.add_zero]
    · rfl
  · simp only [transported, saturatingAdd, readTotal_succ]
    omega
  · have hwr := h.written
    have hout := h.outboundBytes
    simp only [transported, saturatingAdd]
    omega
  · rw [textTotal_succ]
    exact h.delivered.trans (Nat.le_add_right _ _)

end Termivar.WebSocket
