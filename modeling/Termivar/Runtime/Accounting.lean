/-
# Every dispatch and every byte is accounted for

Over every order of the calls of concurrent leases the broker stays within
its budget, its counters never fall, and what its callers were told adds up:
the retained bytes are the delivered ones up to the limit, and every dropped
lease has left one receipt or was counted as omitted.
-/
import Termivar.Collections
import Termivar.Runtime.Budget

namespace Termivar.Runtime

open Command List

/-- What the callers saw since the broker was made. -/
structure Tally where
  admitted : Nat := 0
  delivered : Nat := 0
  retained : Nat := 0
  dropped : List Nat := []

/-- The tally with one more call. -/
def tally (_ : Accounting) (op : AccountingOp) (reply : Except RuntimeLimitExceeded AccountingReply)
    (g : Tally) : Tally :=
  match op, reply with
  | .tryBegin .., .ok (.began _) => { g with admitted := g.admitted + 1 }
  | .observeResponseBytes _ bytes, .ok (.retained retained) =>
    { g with delivered := g.delivered + bytes, retained := g.retained + retained }
  | .drop .., .ok (.dropped lease) => { g with dropped := g.dropped ++ [lease.sequence] }
  | _, _ => g

/-- No counter falls. -/
structure Grows (a b : RequestAccountingSnapshot) : Prop where
  totalRequests : a.totalRequests ≤ b.totalRequests
  passiveRequests : a.passiveRequests ≤ b.passiveRequests
  activeVerifications : a.activeVerifications ≤ b.activeVerifications
  bootstrapRequests : a.bootstrapRequests ≤ b.bootstrapRequests
  plannedRequests : a.plannedRequests ≤ b.plannedRequests
  adaptiveRequests : a.adaptiveRequests ≤ b.adaptiveRequests
  retryRequests : a.retryRequests ≤ b.retryRequests
  requestBodyBytes : a.requestBodyBytes ≤ b.requestBodyBytes
  responseBytes : a.responseBytes ≤ b.responseBytes

namespace Grows

theorem refl (a : RequestAccountingSnapshot) : Grows a a := by constructor <;> exact le_rfl

theorem trans {a b c : RequestAccountingSnapshot} (h : Grows a b) (h' : Grows b c) : Grows a c where
  totalRequests := h.totalRequests.trans h'.totalRequests
  passiveRequests := h.passiveRequests.trans h'.passiveRequests
  activeVerifications := h.activeVerifications.trans h'.activeVerifications
  bootstrapRequests := h.bootstrapRequests.trans h'.bootstrapRequests
  plannedRequests := h.plannedRequests.trans h'.plannedRequests
  adaptiveRequests := h.adaptiveRequests.trans h'.adaptiveRequests
  retryRequests := h.retryRequests.trans h'.retryRequests
  requestBodyBytes := h.requestBodyBytes.trans h'.requestBodyBytes
  responseBytes := h.responseBytes.trans h'.responseBytes

end Grows

/-! ### The invariant -/

/-- The counters of a snapshot within a budget. -/
structure WithinBudget (budget : RuntimeBudget) (a : RequestAccountingSnapshot) : Prop where
  split : a.totalRequests = a.passiveRequests + a.activeVerifications
  origins : a.bootstrapRequests + a.plannedRequests + a.adaptiveRequests + a.retryRequests ≤
    a.passiveRequests
  total : a.totalRequests ≤ budget.maxTotalRequests
  active : a.activeVerifications ≤ budget.maxActiveVerifications
  requestBody : a.requestBodyBytes ≤ budget.maxRequestBodyBytes

/-- The state of the broker agrees with what its callers saw. -/
structure Accounted (g : Tally) (s : Accounting) : Prop where
  within : WithinBudget s.budget s.state.snapshot
  admitted : s.state.snapshot.totalRequests = g.admitted
  delivered : s.state.snapshot.responseBytes = min g.delivered u64Max
  retained : g.retained = min g.delivered s.budget.maxResponseBytes
  sequence : s.state.nextDispatchSequence = g.admitted
  counted : g.dropped.length + s.leases.length = g.admitted
  below : ∀ n ∈ g.dropped ++ s.leases.map RequestAccountingLease.sequence, n < g.admitted
  distinct : (g.dropped ++ s.leases.map RequestAccountingLease.sequence).Nodup
  receipts : s.state.dispatchReceipts.map TransportDispatchReceipt.sequence =
    g.dropped.take hardMaxTransportDispatchReceipts
  omitted : s.state.omittedDispatchReceipts =
    g.dropped.length - hardMaxTransportDispatchReceipts

/-- What a call that succeeds leaves. -/
structure Advanced (g : Tally) (s t : Accounting) : Prop where
  accounted : Accounted g t
  budget : t.budget = s.budget
  grows : Grows s.state.snapshot t.state.snapshot

section Calls

variable {g : Tally} {s : Accounting}

/-- What is known of a dispatch that passes the limits. -/
theorem checkRequestLimits_spec (snapshot : RequestAccountingSnapshot) (budget : RuntimeBudget)
    (actionId : String) (stage : DecisionExecutionStage) (requestBodyBytes : Nat) :
    Checked.wp (checkRequestLimits snapshot budget actionId stage requestBodyBytes)
      (fun _ => snapshot.totalRequests < budget.maxTotalRequests ∧
        snapshot.responseBytes < budget.maxResponseBytes ∧
        snapshot.requestBodyBytes + requestBodyBytes ≤ budget.maxRequestBodyBytes ∧
        (stage = .active → snapshot.activeVerifications < budget.maxActiveVerifications))
      (fun _ => True) := by
  unfold checkRequestLimits
  simp only [↓Checked.wp_rules]
  refine ⟨fun _ => trivial, fun htot => ⟨fun _ => trivial, fun hbs => ⟨fun next hnext => ?_,
    fun _ => trivial⟩⟩⟩
  obtain ⟨-, rfl⟩ := checkedAdd_eq_some.mp hnext
  refine ⟨fun _ => trivial, fun hbody => ⟨fun _ => trivial, fun hact => ?_⟩⟩
  refine ⟨by omega, by omega, by omega, fun hstg => ?_⟩
  by_contra hfull
  exact hact ⟨hstg, by omega⟩

/-- An origin raises one counter by one, if any. -/
theorem recordOrigin_counts {a : RequestAccountingSnapshot} {most : Nat}
    (hone : ∀ n, n ≤ most → saturatingAdd u32Max n 1 = n + 1)
    (hboot : a.bootstrapRequests ≤ most) (hplan : a.plannedRequests ≤ most)
    (hadap : a.adaptiveRequests ≤ most) (hrty : a.retryRequests ≤ most) (origin : Option DecisionActionOrigin) : ∃ bootstrap planned adaptive retry,
    bootstrap + planned + adaptive + retry ≤ 1 ∧ recordOrigin a origin =
      { a with
        bootstrapRequests := a.bootstrapRequests + bootstrap
        plannedRequests := a.plannedRequests + planned
        adaptiveRequests := a.adaptiveRequests + adaptive
        retryRequests := a.retryRequests + retry } := by
  rcases origin with _ | _ | _ | _ | _
  · exact ⟨0, 0, 0, 0, by omega, rfl⟩
  · exact ⟨1, 0, 0, 0, by omega, by rw [recordOrigin, hone _ hboot]; rfl⟩
  · exact ⟨0, 1, 0, 0, by omega, by rw [recordOrigin, hone _ hplan]; rfl⟩
  · exact ⟨0, 0, 1, 0, by omega, by rw [recordOrigin, hone _ hadap]; rfl⟩
  · exact ⟨0, 0, 0, 1, by omega, by rw [recordOrigin, hone _ hrty]; rfl⟩

/-- One more dispatch within the limits. -/
theorem recordDispatch_within {budget : RuntimeBudget} {a : RequestAccountingSnapshot}
    (h : WithinBudget budget a) {stage : DecisionExecutionStage} {requestBodyBytes : Nat}
    (htot : a.totalRequests < budget.maxTotalRequests)
    (hbody : a.requestBodyBytes + requestBodyBytes ≤ budget.maxRequestBodyBytes)
    (hact : stage = .active → a.activeVerifications < budget.maxActiveVerifications)
    (origin : Option DecisionActionOrigin) :
    WithinBudget budget (recordDispatch a stage origin requestBodyBytes) ∧
      Grows a (recordDispatch a stage origin requestBodyBytes) ∧
      (recordDispatch a stage origin requestBodyBytes).totalRequests = a.totalRequests + 1 ∧
      (recordDispatch a stage origin requestBodyBytes).responseBytes = a.responseBytes := by
  obtain ⟨hspl, horig, -, hactives, -⟩ := h
  have hu32 := budget.totalU32
  have hu16 := budget.activeU16
  have hu64 := budget.requestBodyU64
  -- nothing saturates below the limits, which fit their types
  have hone : ∀ n, n ≤ a.totalRequests → saturatingAdd u32Max n 1 = n + 1 := by
    intro n hn
    exact saturatingAdd_eq (by omega)
  have hbs : saturatingAdd u64Max a.requestBodyBytes requestBodyBytes =
      a.requestBodyBytes + requestBodyBytes := saturatingAdd_eq (by omega)
  cases stage with
  | passive =>
    have hpass := hone a.passiveRequests (by omega)
    have hboot : a.bootstrapRequests ≤ a.totalRequests := by omega
    have hplan : a.plannedRequests ≤ a.totalRequests := by omega
    have hadap : a.adaptiveRequests ≤ a.totalRequests := by omega
    have hrty : a.retryRequests ≤ a.totalRequests := by omega
    obtain ⟨bootstrap, planned, adaptive, retry, hcounts, horigin⟩ := recordOrigin_counts
      (a := { a with
        totalRequests := a.totalRequests + 1
        requestBodyBytes := a.requestBodyBytes + requestBodyBytes
        passiveRequests := a.passiveRequests + 1 })
      hone hboot hplan hadap hrty origin
    simp only [recordDispatch, hbs, hone a.totalRequests le_rfl, hpass, horigin]
    refine ⟨⟨?_, ?_, ?_, ?_, ?_⟩, ⟨?_, ?_, ?_, ?_, ?_, ?_, ?_, ?_, ?_⟩, ?_, ?_⟩ <;> dsimp only <;>
      omega
  | active =>
    have hroom := hact rfl
    have hact' : saturatingAdd u16Max a.activeVerifications 1 = a.activeVerifications + 1 :=
      saturatingAdd_eq (by omega)
    refine ⟨⟨?_, ?_, ?_, ?_, ?_⟩, ⟨?_, ?_, ?_, ?_, ?_, ?_, ?_, ?_, ?_⟩, ?_, ?_⟩ <;>
      simp only [recordDispatch, hbs, hact', hone a.totalRequests le_rfl] <;>
      omega

theorem preflight_accounted (actionId : String) (stage : DecisionExecutionStage)
    (requestBodyBytes : Nat) :
    wp (preflightWithRequestBodyBytes actionId stage requestBodyBytes) (fun _ t => t = s)
      (fun _ t => t = s) False s := by
  unfold preflightWithRequestBodyBytes
  rw [wp_bind, wp_get, wp_lift]
  exact Checked.wp_of_forall (fun _ => rfl) (fun _ => rfl)

theorem tryBegin_accounted (h : Accounted g s) (actionId : String) (stage : DecisionExecutionStage)
    (origin : Option DecisionActionOrigin) (requestBodyBytes : Nat) :
    wp (tryBeginWithRequestBodyBytes actionId stage origin requestBodyBytes)
      (fun _ t => Advanced { g with admitted := g.admitted + 1 } s t ∧
        s.state.snapshot.responseBytes < s.budget.maxResponseBytes)
      (fun _ t => t = s) False s := by
  unfold tryBeginWithRequestBodyBytes
  simp only [↓wp_rules]
  refine Checked.wp_imp (checkRequestLimits_spec s.state.snapshot s.budget actionId stage
    requestBodyBytes) (fun _ hlims => ?_)
  obtain ⟨htot, hresp, hbody, hact⟩ := hlims
  obtain ⟨hwith, hgrows, hone, hsame⟩ :=
    recordDispatch_within h.within htot hbody hact origin
  have hadmitted : g.admitted < s.budget.maxTotalRequests := h.admitted ▸ htot
  have hbel := h.below
  have hsequence : saturatingAdd u64Max s.state.nextDispatchSequence 1 = g.admitted + 1 := by
    have hu32 := s.budget.totalU32
    rw [h.sequence]
    refine saturatingAdd_eq ?_
    unfold u32Max at hu32
    unfold u64Max
    omega
  refine ⟨⟨?_, rfl, hgrows⟩, hresp⟩
  constructor
  · exact hwith
  · exact hone.trans (congrArg (· + 1) h.admitted)
  · exact hsame.trans h.delivered
  · exact h.retained
  · exact hsequence
  · have hcntd := h.counted
    simp only [length_append, length_singleton]
    omega
  · intro n hn
    simp only [map_append, map_singleton, ← append_assoc] at hn
    rcases mem_append.mp hn with hold | hnew
    · exact Nat.lt_succ_of_lt (hbel n hold)
    · rw [mem_singleton.mp hnew, h.sequence]
      exact Nat.lt_succ_self _
  · simp only [map_append, map_singleton, ← append_assoc]
    refine nodup_append.mpr ⟨h.distinct, nodup_singleton _, fun n hn m hm heq => ?_⟩
    have hlt := hbel n hn
    rw [mem_singleton.mp hm, h.sequence] at heq
    omega
  · exact h.receipts
  · exact h.omitted

variable {lease : RequestAccountingLease}

theorem observe_accounted (h : Accounted g s) {index : Nat} (hls : s.leases[index]? = some lease)
    (bytes : Nat) :
    wp (Runtime.observeResponseBytes index lease bytes) (fun retained t => Advanced
        { g with delivered := g.delivered + bytes, retained := g.retained + retained } s t)
      (fun _ _ => False) False s := by
  unfold Runtime.observeResponseBytes
  simp only [↓wp_rules]
  have hdel := h.delivered
  have hret := h.retained
  have hu64 := s.budget.responseU64
  have hmap : ∀ updated : RequestAccountingLease, updated.sequence = lease.sequence →
      (s.leases.set index updated).map RequestAccountingLease.sequence =
        s.leases.map RequestAccountingLease.sequence := fun _ => map_set_same hls
  refine ⟨?_, rfl, ?_⟩
  · constructor
    · exact { h.within with }
    · exact h.admitted
    · show saturatingAdd u64Max s.state.snapshot.responseBytes bytes =
        min (g.delivered + bytes) u64Max
      unfold saturatingAdd
      rw [hdel]
      omega
    · show g.retained + min bytes (s.budget.maxResponseBytes - s.state.snapshot.responseBytes) =
        min (g.delivered + bytes) s.budget.maxResponseBytes
      rw [hret, hdel]
      omega
    · exact h.sequence
    · simpa using h.counted
    · simpa only [hmap] using h.below
    · simpa only [hmap] using h.distinct
    · exact h.receipts
    · exact h.omitted
  · exact { Grows.refl s.state.snapshot with
      responseBytes := le_saturatingAdd (by rw [hdel]; exact Nat.min_le_right _ _) }

theorem finish_accounted (h : Accounted g s) {index : Nat} (hls : s.leases[index]? = some lease)
    (outcome : TransportDispatchOutcome) :
    wp (Runtime.finish index lease outcome) (fun _ t => Advanced g s t) (fun _ _ => False) False s := by
  unfold Runtime.finish
  rw [wp_modify]
  have hmap : (s.leases.set index { lease with outcome := some outcome }).map
      RequestAccountingLease.sequence = s.leases.map RequestAccountingLease.sequence :=
    map_set_same hls rfl
  refine ⟨{ h with counted := ?_, below := ?_, distinct := ?_ }, rfl, Grows.refl _⟩
  · simpa using h.counted
  · simpa only [hmap] using h.below
  · simpa only [hmap] using h.distinct

/-- A receipt is retained below the ceiling and counted from there on. -/
theorem recordDispatchReceipt_spec (h : Accounted g s) (hroom : g.dropped.length < u64Max)
    (receipt : TransportDispatchReceipt) :
    (recordDispatchReceipt s.state receipt).dispatchReceipts.map TransportDispatchReceipt.sequence =
        (g.dropped ++ [receipt.sequence]).take hardMaxTransportDispatchReceipts ∧
      (recordDispatchReceipt s.state receipt).omittedDispatchReceipts =
        (g.dropped ++ [receipt.sequence]).length - hardMaxTransportDispatchReceipts := by
  have hlength : s.state.dispatchReceipts.length =
      min hardMaxTransportDispatchReceipts g.dropped.length := by
    have := congrArg length h.receipts
    simpa using this
  have homit := h.omitted
  unfold recordDispatchReceipt
  by_cases hlt : s.state.dispatchReceipts.length < hardMaxTransportDispatchReceipts
  · rw [if_pos hlt]
    have hsh : g.dropped.length < hardMaxTransportDispatchReceipts := by omega
    constructor
    · rw [map_append, h.receipts, map_singleton, take_of_length_le (by omega),
        take_of_length_le (by simp; omega)]
    · simp only [length_append, length_singleton]
      omega
  · rw [if_neg hlt]
    have hlong : hardMaxTransportDispatchReceipts ≤ g.dropped.length := by omega
    constructor
    · rw [h.receipts, take_append_of_le_length hlong]
    · simp only [length_append, length_singleton]
      rw [saturatingAdd_eq (by omega)]
      omega

theorem drop_accounted (h : Accounted g s) {index : Nat} (hls : s.leases[index]? = some lease)
    (elapsedMs : Nat) :
    wp (dropLease index lease elapsedMs)
      (fun _ t => Advanced { g with dropped := g.dropped ++ [lease.sequence] } s t)
      (fun _ _ => False) False s := by
  unfold dropLease
  rw [wp_modify]
  obtain ⟨hidx, hget⟩ := List.getElem?_eq_some_iff.mp hls
  have hcntd := h.counted
  have hroom : g.dropped.length < u64Max := by
    have htot := h.within.total
    have hadmitted := h.admitted
    have hu32 := s.budget.totalU32
    unfold u32Max at hu32
    unfold u64Max
    omega
  obtain ⟨hrcpts, homit⟩ := recordDispatchReceipt_spec h hroom (lease.receipt elapsedMs)
  have hsame : (recordDispatchReceipt s.state (lease.receipt elapsedMs)).snapshot =
      s.state.snapshot := by
    unfold recordDispatchReceipt
    split <;> rfl
  have hnext : (recordDispatchReceipt s.state (lease.receipt elapsedMs)).nextDispatchSequence =
      s.state.nextDispatchSequence := by
    unfold recordDispatchReceipt
    split <;> rfl
  -- the sequence moves from the leases to the dropped ones
  have hperm : ((g.dropped ++ [lease.sequence]) ++
      (s.leases.eraseIdx index).map RequestAccountingLease.sequence).Perm
      (g.dropped ++ s.leases.map RequestAccountingLease.sequence) := by
    rw [List.append_assoc, List.singleton_append, ← List.map_cons (f := RequestAccountingLease.sequence)]
    refine (List.Perm.map _ ?_).append_left _
    rw [← hget]
    exact List.getElem_cons_eraseIdx_perm hidx
  refine ⟨⟨?_, ?_, ?_, ?_, ?_, ?_, ?_, ?_, ?_, ?_⟩, rfl, ?_⟩
  · rw [hsame]
    exact h.within
  · rw [hsame]
    exact h.admitted
  · rw [hsame]
    exact h.delivered
  · exact h.retained
  · rw [hnext]
    exact h.sequence
  · simp only [List.length_append, List.length_singleton, List.length_eraseIdx, if_pos hidx]
    omega
  · intro n hn
    exact h.below n (hperm.mem_iff.mp hn)
  · exact hperm.nodup_iff.mpr h.distinct
  · exact hrcpts
  · exact homit
  · rw [hsame]
    exact Grows.refl _

/-- A call on a lease that is in flight, or no call. -/
theorem withLease_accounted {index : Nat}
    {call : RequestAccountingLease → AccountingCommand AccountingReply}
    {ok : AccountingReply → Accounting → Prop} {err : RuntimeLimitExceeded → Accounting → Prop}
    (hnone : ok .noLease s) (hcall : ∀ lease, s.leases[index]? = some lease →
      wp (call lease) ok err False s) : wp (withLease index call) ok err False s := by
  unfold withLease
  rw [wp_bind, wp_get]
  cases hls : s.leases[index]? with
  | none => exact hnone
  | some lease => exact hcall lease hls

/-- Every call that succeeds is accounted for, and one that fails changes nothing. -/
theorem exec_accounted (h : Accounted g s) (op : AccountingOp) :
    wp op.exec (fun reply t => Advanced (tally s op (.ok reply) g) s t) (fun _ t => t = s) False s := by
  have hstays : Advanced g s s := ⟨h, rfl, Grows.refl _⟩
  cases op with
  | preflight actionId stage requestBodyBytes =>
    rw [AccountingOp.exec, wp_map]
    refine wp_mono (preflight_accounted actionId stage requestBodyBytes) (fun _ t ht => ?_)
      (fun _ _ ht => ht) id
    rw [ht]
    exact hstays
  | tryBegin actionId stage origin requestBodyBytes =>
    rw [AccountingOp.exec, wp_map]
    exact wp_mono (tryBegin_accounted h actionId stage origin requestBodyBytes)
      (fun _ _ ht => ht.1) (fun _ _ ht => ht) id
  | observeResponseBytes index bytes =>
    refine withLease_accounted hstays fun lease hls => ?_
    rw [wp_map]
    exact wp_mono (observe_accounted h hls bytes) (fun _ _ ht => ht) (fun _ _ hno => hno.elim) id
  | finish index outcome =>
    refine withLease_accounted hstays fun lease hls => ?_
    rw [wp_map]
    exact wp_mono (finish_accounted h hls outcome) (fun _ _ ht => ht) (fun _ _ hno => hno.elim) id
  | drop index elapsedMs =>
    refine withLease_accounted hstays fun lease hls => ?_
    rw [wp_map]
    exact wp_mono (drop_accounted h hls elapsedMs) (fun _ _ ht => ht) (fun _ _ hno => hno.elim) id

end Calls

/-! ### Runs -/

theorem accounted_new (budget : RuntimeBudget) : Accounted {} (Accounting.new budget) := by
  refine ⟨⟨rfl, le_rfl, ?_, ?_, ?_⟩, rfl, ?_, ?_, rfl, rfl, ?_, ?_, rfl, rfl⟩ <;>
    simp [Accounting.new]

/-- From a state that is accounted for, every run keeps its budget and its
account, and no counter falls. -/
theorem run_accounted {g : Tally} {s : Accounting} (h : Accounted g s) (ops : List AccountingOp) :
    ∃ q, runNoting AccountingOp.exec tally g s ops = some q ∧ Advanced q.1 s q.2 := by
  refine runNoting_total (J := fun g' t => Advanced g' s t) (fun op g' t ht => ?_) ops
    ⟨h, rfl, Grows.refl _⟩
  refine wp_mono (exec_accounted ht.accounted op) (fun reply u hu => ?_) (fun e u hu => ?_) id
  · exact ⟨hu.accounted, hu.budget.trans ht.budget, ht.grows.trans hu.grows⟩
  · have hsame : tally t op (.error e) g' = g' := by cases op <;> rfl
    rw [hu, hsame]
    exact ht

/-- **Requests are accounted for.** After any calls of concurrent leases, and
any more: the totals agree and stay within the budget, no counter has fallen,
the retained bytes are the delivered ones up to the limit, nothing is admitted
once the limit is reached, every dropped lease left one receipt under its own
sequence or was counted, and a rejected dispatch changes nothing. -/
theorem requests_accounted (budget : RuntimeBudget) (before after : List AccountingOp) :
    ∃ q r, runNoting AccountingOp.exec tally {} (Accounting.new budget) before = some q ∧
      runNoting AccountingOp.exec tally q.1 q.2 after = some r ∧
      Grows q.2.state.snapshot r.2.state.snapshot ∧
      r.2.state.snapshot.totalRequests =
        r.2.state.snapshot.passiveRequests + r.2.state.snapshot.activeVerifications ∧
      r.2.state.snapshot.totalRequests ≤ budget.maxTotalRequests ∧
      r.2.state.snapshot.activeVerifications ≤ budget.maxActiveVerifications ∧
      r.2.state.snapshot.requestBodyBytes ≤ budget.maxRequestBodyBytes ∧
      r.1.retained = min r.1.delivered budget.maxResponseBytes ∧
      (dispatchAudit r.2.state).receipts.length + (dispatchAudit r.2.state).omittedReceiptCount =
        r.1.dropped.length ∧
      r.1.dropped.Nodup ∧
      ((dispatchAudit r.2.state).receipts.map TransportDispatchReceipt.sequence).Subperm
        r.1.dropped ∧
      ∀ (actionId : String) (stage : DecisionExecutionStage) (origin : Option DecisionActionOrigin)
        (requestBodyBytes : Nat) (result : Except RuntimeLimitExceeded AccountingReply)
        (t : Accounting), reply (AccountingOp.tryBegin actionId stage origin requestBodyBytes).exec
          r.2 = some (result, t) →
        (budget.maxResponseBytes ≤ r.1.delivered → result.isOk = false) ∧
          (result.isOk = false → t = r.2) := by
  obtain ⟨q, hbef, hq⟩ := run_accounted (accounted_new budget) before
  obtain ⟨r, haft, hr⟩ := run_accounted hq.accounted after
  have h := hr.accounted
  have hbud : r.2.budget = budget := hr.budget.trans hq.budget
  have hperm : (dispatchAudit r.2.state).receipts.Perm r.2.state.dispatchReceipts :=
    List.mergeSort_perm _ _
  have hwith := h.within
  rw [hbud] at hwith
  refine ⟨q, r, hbef, haft, hr.grows, hwith.split, hwith.total, hwith.active,
    hwith.requestBody, hbud ▸ h.retained, ?_, ?_, ?_, ?_⟩
  · have hlength := congrArg List.length h.receipts
    have homit := h.omitted
    simp only [List.length_map, List.length_take] at hlength
    rw [hperm.length_eq, hlength]
    show _ + r.2.state.omittedDispatchReceipts = _
    omega
  · exact h.distinct.of_append_left
  · refine (hperm.map _).subperm.trans ?_
    rw [h.receipts]
    exact (List.take_sublist _ _).subperm
  · intro actionId stage origin requestBodyBytes result t hrep
    have hspec : wp (AccountingOp.tryBegin actionId stage origin requestBodyBytes).exec
        (fun _ _ => r.2.state.snapshot.responseBytes < r.2.budget.maxResponseBytes)
        (fun _ u => u = r.2) False r.2 := by
      rw [AccountingOp.exec, wp_map]
      exact wp_mono (tryBegin_accounted h actionId stage origin requestBodyBytes)
        (fun _ _ ht => ht.2) (fun _ _ ht => ht) id
    obtain ⟨hok, herr, -⟩ := wp_iff_reply.mp hspec
    cases result with
    | error e => exact ⟨fun _ => rfl, fun _ => herr e t hrep⟩
    | ok lease =>
      have hroom := hok lease t hrep
      rw [hbud, h.delivered] at hroom
      have hu64 := budget.responseU64
      exact ⟨fun hreached => by omega, fun hno => by cases hno⟩

end Termivar.Runtime
