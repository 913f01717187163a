/-
# Safety of the coordinator

What holds over every run of commands from a fresh state, in any order and
with any arguments: the self-check passes in every state, a failure leaves
the state alone, and the tokens are safe to replay. `History` is the
invariant of the run and its replies; `exec_spec` is its step.
-/
import Termivar.Distributed.Steps

namespace Termivar.Distributed

open Command List Option

/-- A run from `s`: each request with what it returned, and the last state. -/
abbrev runFrom (s : CoordinatorState) (requests : List Request) :=
  run exec s requests

/-- The calls of a run with what each returned. -/
abbrev Trace : Type := List (Request × Except DistributedError Reply)

/-- What the successful calls of a run returned. -/
def replies (trace : Trace) : List Reply := trace.filterMap fun call => call.2.toOption

/-- The ids of the leases a run issued, in order. -/
def issuedLeases (trace : Trace) : List Nat := (replies trace).filterMap Reply.issued

/-- The receipts of the tasks a run completed, in order. -/
def completedReceipts (trace : Trace) : List CompletionReceipt :=
  (replies trace).filterMap Reply.completed

/-! ### The state is consistent -/

/-- The counters, the queue, the leases and the workers agree with the
records, and the limits hold. -/
structure Consistent (s : CoordinatorState) : Prop where
  active : s.activeTasks = countOf s.tasks fun _ e => e.task.status.isActive
  terminal : s.terminalTasks = countOf s.tasks fun _ e => !e.task.status.isActive
  queue : ∀ key, key ∈ s.queue ↔ ∃ (id : String) (e : TaskEntry),
    s.tasks[id]? = some e ∧ e.task.status = .queued ∧ e.queueKey = some key
  leased : ∀ (id : String) (e : TaskEntry), s.tasks[id]? = some e →
    (e.task.status = .leased ∨ e.task.status = .running) →
    ∃ lease, e.task.lease = some lease ∧ lease.taskId = id ∧
      e.task.assignedTo = some lease.workerId ∧ e.task.taskGeneration = lease.taskGeneration ∧
      e.task.attempt = lease.attempt
  workers : ∀ (id : String) (w : WorkerNode), s.workers[id]? = some w →
    w.currentTasks = (countOf s.tasks fun _ e => e.heldBy ⟨id, w.generation⟩) ∧
      w.currentTasks ≤ w.capacity
  records : s.tasks.size ≤ s.limits.maxTaskRecords
  activeBound : s.activeTasks ≤ s.limits.maxActiveTasks
  queued : s.queue.size ≤ s.limits.maxQueuedTasks
  terminalBound : s.terminalTasks ≤ s.limits.maxTerminalTasks
  workerBound : s.workers.size ≤ s.limits.maxWorkers

theorem Inv.consistent {s : CoordinatorState} (h : Inv s) : Consistent s where
  active := h.active
  terminal := by
    have hcnt := countOf_add_not s.tasks fun _ e => e.isActive
    have hterm := h.terminal
    have hact := h.active
    simp only [TaskEntry.isActive] at hcnt hact
    omega
  queue key := by
    rw [h.queue]
    constructor
    · rintro ⟨id, e, he, hk⟩
      exact ⟨id, e, he, (h.records he).status_of_key hk, hk⟩
    · rintro ⟨id, e, he, -, hk⟩
      exact ⟨id, e, he, hk⟩
  leased id e he hs := ((h.records he).leased hs).2
  workers id w hw := ⟨(h.workers hw).2.1.trans (h.leaseCount_eq_heldBy hw), (h.workers hw).2.2.1⟩
  records := h.recordBound
  activeBound := h.activeBound
  queued := h.queueBound
  terminalBound := le_trans (Nat.le_add_right _ _) h.terminalBound
  workerBound := h.workerBound

/-! ### Runs -/

section Runs

variable {limits : DistributedLimits} {s₀ s t : CoordinatorState} {trace : Trace}
  {requests : List Request}

theorem inv_of_withLimits (h : withLimits limits = .ok s₀) : Inv s₀ ∧ s₀ = .new limits := by
  unfold withLimits at h
  cases hv : validateLimits limits with
  | ok _ =>
    rw [hv] at h
    cases h
    exact ⟨Inv.new limits, rfl⟩
  | error _ =>
    rw [hv] at h
    cases h

theorem withLimits_default : withLimits {} = .ok (.new {}) := by
  rw [withLimits, validateLimits_default]
  rfl

/-- A call from a state with the invariant returned, or failed. -/
theorem exec_reply (h : Inv s) {request : Request} {r : Except DistributedError Reply}
    (hr : reply (exec request) s = some (r, t)) :
    (∃ reply, r = .ok reply ∧ Step s reply t) ∨ (∃ e, r = .error e ∧ Failed s e t) := by
  obtain ⟨hok, herr, -⟩ := wp_iff_reply.mp (exec_spec h request)
  cases r with
  | ok reply => exact Or.inl ⟨reply, rfl, hok reply t hr⟩
  | error e => exact Or.inr ⟨e, rfl, herr e t hr⟩

/-- What a run has returned so far, and the state it has reached. -/
structure History (limits : DistributedLimits) (past : Trace) (s : CoordinatorState) : Prop where
  inv : Inv s
  limits : s.limits = limits
  leases : (issuedLeases past).Pairwise (· < ·)
  leaseBound : ∀ n ∈ issuedLeases past, n < s.nextLeaseId
  receipts : ∀ (id : String) (receipt : CompletionReceipt),
    completionOf s id = some receipt ↔ receipt ∈ completedReceipts past ∧ receipt.taskId = id
  distinct : ((completedReceipts past).map (·.taskId)).Nodup
  counts : ∀ w, completedBy s w = (completedReceipts past).countP fun r => r.workerId = w
  repeated : ∀ {before after : Trace} {request : Request} {reply : Reply}
    {receipt : CompletionReceipt}, past = before ++ (request, .ok reply) :: after →
    reply.repeated = some receipt → receipt ∈ completedReceipts before

theorem History.new : History limits [] (.new limits) where
  inv := Inv.new limits
  limits := rfl
  leases := List.Pairwise.nil
  leaseBound := nofun
  receipts := by simp [completionOf, CoordinatorState.new, completedReceipts, replies]
  distinct := nodup_nil
  counts := by simp [completedBy, CoordinatorState.new, completedReceipts, replies]
  repeated h := by simp at h

theorem replies_snoc (past : Trace) (request : Request) (r : Except DistributedError Reply) :
    replies (past ++ [(request, r)]) = replies past ++ r.toOption.toList := by
  cases r <;> simp [replies, Except.toOption]

theorem issuedLeases_snoc (past : Trace) (request : Request) (r : Except DistributedError Reply) :
    issuedLeases (past ++ [(request, r)]) =
      issuedLeases past ++ (r.toOption.bind Reply.issued).toList := by
  rw [issuedLeases, replies_snoc, filterMap_append]
  cases r with
  | ok reply => cases hi : reply.issued <;> simp [issuedLeases, Except.toOption, hi]
  | error e => simp [issuedLeases, Except.toOption]

theorem completedReceipts_snoc (past : Trace) (request : Request)
    (r : Except DistributedError Reply) :
    completedReceipts (past ++ [(request, r)]) =
      completedReceipts past ++ (r.toOption.bind Reply.completed).toList := by
  rw [completedReceipts, replies_snoc, filterMap_append]
  cases r with
  | ok reply => cases hi : reply.completed <;> simp [completedReceipts, Except.toOption, hi]
  | error e => simp [completedReceipts, Except.toOption]

/-- A call of the longer run is the last one, or a call of the shorter run. -/
theorem snoc_split {past before after : Trace} {x y : Request × Except DistributedError Reply}
    (h : past ++ [x] = before ++ y :: after) :
    (before = past ∧ y = x) ∨ ∃ rest, past = before ++ y :: rest := by
  rcases eq_nil_or_concat after with rfl | ⟨rest, z, rfl⟩
  · obtain ⟨h1, h2⟩ := append_inj' h rfl
    exact Or.inl ⟨h1.symm, (cons.inj h2).1.symm⟩
  · refine Or.inr ⟨rest, ?_⟩
    rw [concat_eq_append, ← cons_append, ← append_assoc] at h
    exact (append_inj' h rfl).1

variable {past : Trace}

/-- A failure adds nothing to the history. -/
theorem History.failed (h : History limits past s) (request : Request)
    (e : DistributedError) : History limits (past ++ [(request, .error e)]) s := by
  have hi := issuedLeases_snoc past request (.error e)
  have hc := completedReceipts_snoc past request (.error e)
  simp only [Except.toOption, bind_none, toList_none, append_nil] at hi hc
  refine
    { inv := h.inv
      limits := h.limits
      leases := hi ▸ h.leases
      leaseBound := hi ▸ h.leaseBound
      receipts := hc ▸ h.receipts
      distinct := hc ▸ h.distinct
      counts := hc ▸ h.counts
      repeated := fun hspl hr => ?_ }
  rcases snoc_split hspl with ⟨-, hy⟩ | ⟨rest, hrest⟩
  · cases hy
  · exact h.repeated hrest hr

/-- A task whose completion a reply reports was not completed before. -/
theorem History.fresh (h : History limits past s) {receipt : CompletionReceipt}
    (hnone : completionOf s receipt.taskId = none) :
    receipt.taskId ∉ (completedReceipts past).map (·.taskId) := by
  intro hmem
  obtain ⟨r, hr, hid⟩ := mem_map.mp hmem
  rw [(h.receipts receipt.taskId r).mpr ⟨hr, hid⟩] at hnone
  cases hnone

/-- The books of a run after a reply. -/
theorem History.booked (h : History limits past s) {completed : Option CompletionReceipt}
    (hb : Booked s t completed) :
    (∀ (id : String) (receipt : CompletionReceipt), completionOf t id = some receipt ↔
      receipt ∈ completedReceipts past ++ completed.toList ∧ receipt.taskId = id) ∧
    ((completedReceipts past ++ completed.toList).map (·.taskId)).Nodup ∧
    ∀ w, completedBy t w =
      (completedReceipts past ++ completed.toList).countP fun r => r.workerId = w := by
  cases completed with
  | none =>
    simp only [toList_none, append_nil]
    exact ⟨fun id r => by rw [hb.1, h.receipts], h.distinct, fun w => by rw [hb.2, h.counts]⟩
  | some receipt =>
    obtain ⟨hnone, hrec, hcnt⟩ := hb
    have hfsh := h.fresh hnone
    refine ⟨fun id r => ?_, ?_, fun w => ?_⟩
    · rw [hrec, toList_some, mem_append, mem_singleton]
      split_ifs with hid
      · constructor
        · rintro ⟨⟩
          exact ⟨Or.inr rfl, hid⟩
        · rintro ⟨hr | hr, hid'⟩
          · refine absurd (mem_map.mpr ⟨r, hr, ?_⟩) hfsh
            exact hid'.trans hid.symm
          · rw [hr]
      · rw [h.receipts]
        refine ⟨fun hr => ⟨Or.inl hr.1, hr.2⟩, ?_⟩
        rintro ⟨hr | hr, hid'⟩
        · exact ⟨hr, hid'⟩
        · exact absurd (hr ▸ hid') hid
    · rw [toList_some, map_append, map_singleton]
      exact List.Nodup.append h.distinct (nodup_singleton _) (disjoint_singleton.mpr hfsh)
    · rw [hcnt, h.counts, toList_some, countP_append, countP_singleton]
      simp

/-- One more call. -/
theorem History.step {request : Request} {r : Except DistributedError Reply}
    (h : History limits past s) (hr : reply (exec request) s = some (r, t)) :
    History limits (past ++ [(request, r)]) t := by
  rcases exec_reply h.inv hr with ⟨reply, rfl, hstep⟩ | ⟨e, rfl, rfl, -⟩
  · have hi := issuedLeases_snoc past request (.ok reply)
    have hc := completedReceipts_snoc past request (.ok reply)
    simp only [Except.toOption, bind_some] at hi hc
    obtain ⟨hrcpts, hdist, hcounts⟩ := h.booked hstep.books
    refine
      { inv := hstep.inv
        limits := hstep.limits.trans h.limits
        leases := ?_
        leaseBound := ?_
        receipts := hc ▸ hrcpts
        distinct := hc ▸ hdist
        counts := hc ▸ hcounts
        repeated := fun hspl hrep => ?_ }
    · rw [hi]
      refine pairwise_append.mpr ⟨h.leases, ?_, fun n hn m hm => ?_⟩
      · cases reply.issued <;> simp
      · rw [(hstep.issued m (Option.mem_toList.mp hm)).1]
        exact h.leaseBound n hn
    · rw [hi]
      intro n hn
      rcases mem_append.mp hn with hn | hn
      · exact lt_of_lt_of_le (h.leaseBound n hn) hstep.leaseId
      · exact (hstep.issued n (Option.mem_toList.mp hn)).2
    · rcases snoc_split hspl with ⟨rfl, hy⟩ | ⟨rest, hrest⟩
      · cases hy
        exact ((h.receipts _ _).mp (hstep.repeated _ hrep)).1
      · exact h.repeated hrest hrep
  · exact h.failed request e

/-- Every run has its history. -/
theorem history_of_run (h₀ : withLimits limits = .ok s₀)
    (hrun : runFrom s₀ requests = some (trace, s)) : History limits trace s := by
  obtain ⟨-, rfl⟩ := inv_of_withLimits h₀
  have := run_history (J := History limits) (fun h hr => h.step hr) [] History.new hrun
  rwa [nil_append] at this

/-- Ended records stay through every run. -/
theorem ended_of_run (h : Inv s) {id : String} {e : TaskEntry} (he : s.tasks[id]? = some e)
    (ha : e.isActive = false) (hrun : runFrom s requests = some (trace, t)) :
    t.tasks[id]? = some e := by
  refine (run_preserves (I := fun u => Inv u ∧ u.tasks[id]? = some e)
    (fun {u c r v} hu hr => ?_) ⟨h, he⟩ hrun).2
  rcases exec_reply hu.1 hr with ⟨reply, -, hstep⟩ | ⟨-, -, rfl, -⟩
  · exact ⟨hstep.inv, hstep.ended hu.2 ha⟩
  · exact hu

/-- The receipt a reply carries, of a task it completes or found completed. -/
def Reply.receipt : Reply → Option CompletionReceipt
  | .completion transition => some transition.value.receipt
  | _ => none

theorem Reply.receipt_eq {reply : Reply} {receipt : CompletionReceipt}
    (h : reply.receipt = some receipt) :
    reply.completed = some receipt ∨ reply.repeated = some receipt := by
  cases reply with
  | completion transition =>
    obtain ⟨revision, outcome⟩ := transition
    cases outcome with
    | completed r => exact Or.inl h
    | alreadyCompleted r => exact Or.inr h
  | _ => cases h

/-- Every receipt returned was returned when its task completed. -/
theorem History.returned (h : History limits past s) {receipt : CompletionReceipt}
    (hr : receipt ∈ (replies past).filterMap Reply.receipt) : receipt ∈ completedReceipts past := by
  obtain ⟨reply, hreply, hrcpt⟩ := mem_filterMap.mp hr
  rcases Reply.receipt_eq hrcpt with hc | hrep
  · exact mem_filterMap.mpr ⟨reply, hreply, hc⟩
  · obtain ⟨⟨request, r⟩, hcall, hok⟩ := mem_filterMap.mp hreply
    obtain ⟨before, after, rfl⟩ := append_of_mem hcall
    cases r with
    | error e => cases hok
    | ok reply' =>
      cases hok
      have hmem := h.repeated rfl hrep
      rw [completedReceipts, replies, filterMap_append, filterMap_append]
      exact mem_append_left _ hmem

/-- A task has one receipt. -/
theorem History.receipt_unique (h : History limits past s)
    {r r' : CompletionReceipt} (hr : r ∈ completedReceipts past) (hr' : r' ∈ completedReceipts past)
    (hid : r.taskId = r'.taskId) : r = r' := by
  have h1 := (h.receipts r.taskId r).mpr ⟨hr, rfl⟩
  have h2 := (h.receipts r.taskId r').mpr ⟨hr', hid.symm⟩
  rw [h1] at h2
  exact some.inj h2

/-- A completed record is one with a receipt. -/
theorem Inv.completed_iff (h : Inv s) {id : String} :
    (∃ e : TaskEntry, s.tasks[id]? = some e ∧ e.task.status = .completed) ↔
      ∃ receipt, completionOf s id = some receipt := by
  simp only [completionOf, bind_eq_some_iff]
  constructor
  · rintro ⟨e, he, hs⟩
    obtain ⟨receipt, hr⟩ := isSome_iff_exists.mp ((h.records he).completion.mpr hs)
    exact ⟨receipt, e, he, hr⟩
  · rintro ⟨receipt, e, he, hr⟩
    exact ⟨e, he, (h.records he).completion.mp (by rw [hr]; rfl)⟩

/-! ### The main results -/

/-- **The self-check passes in every reachable state.** A run of any commands
from a fresh pool comes to its end, and in the state it reaches
`check_state_invariants` returns `Ok`. -/
theorem run_checks (h₀ : withLimits limits = .ok s₀) (requests : List Request) :
    ∃ trace s, runFrom s₀ requests = some (trace, s) ∧ s.limits = limits ∧
      checkStateInvariants s = .ok () ∧ Consistent s := by
  obtain ⟨hinv, -⟩ := inv_of_withLimits h₀
  have hstep : ∀ request s, Inv s →
      wp (exec request) (fun _ t => Inv t) (fun _ t => Inv t) False s := fun request s h =>
    wp_mono (exec_spec h request) (fun _ _ hs => hs.inv) (fun _ _ hf => hf.1 ▸ h) id
  obtain ⟨⟨trace, s⟩, hrun, hs⟩ := run_total hstep requests hinv
  exact ⟨trace, s, hrun, (history_of_run h₀ hrun).limits, hs.checks, hs.consistent⟩

/-- A lease of one task by one worker. -/
def oneLease : TaskLease where
  taskId := "task"
  workerId := "worker"
  workerGeneration := 1
  taskGeneration := 0
  attempt := 1
  leaseId := 1
  acquiredAt := 3
  expiresAt := 13

/-- The task is queued, leased, started and completed, and the lease is
presented again. -/
def oneTask : List Request :=
  [.enqueue 0 1 ⟨"task", "scan", "target", [], .normal⟩,
   .registerWorker 1 2 { workerId := "worker", capacity := 1 },
   .assignNext 2 3 "worker" 10,
   .startTask 3 4 oneLease,
   .completeTask 4 5 oneLease,
   .completeTask 5 6 oneLease]

theorem run_checks_oneTask : ∃ trace s, runFrom (.new {}) oneTask = some (trace, s) ∧
    s.limits = {} ∧ checkStateInvariants s = .ok () ∧ Consistent s :=
  run_checks withLimits_default oneTask

/-- **A failure leaves the state alone.** In every reachable state a command
does not panic, and if it fails then the state is as it was and the failure
is not `StateInvariant`. -/
theorem failure_leaves_state (h₀ : withLimits limits = .ok s₀)
    (hrun : runFrom s₀ requests = some (trace, s)) (request : Request) :
    reply (exec request) s ≠ none ∧
      ∀ e t, reply (exec request) s = some (.error e, t) →
        t = s ∧ ∀ reason, e ≠ .stateInvariant reason := by
  have h := history_of_run h₀ hrun
  obtain ⟨-, herr, hpan⟩ := wp_iff_reply.mp (exec_spec h.inv request)
  refine ⟨hpan, fun e t hr => ?_⟩
  obtain ⟨ht, he⟩ := herr e t hr
  refine ⟨ht, fun reason hreason => he ?_⟩
  rw [hreason]
  trivial

/-- A lease presented again after its task has completed fails. -/
theorem failure_leaves_state_replay : ∃ trace s, runFrom (.new {}) oneTask = some (trace, s) ∧
    ∀ e t, reply (exec (.startTask 5 6 oneLease)) s = some (.error e, t) →
      t = s ∧ ∀ reason, e ≠ .stateInvariant reason := by
  obtain ⟨⟨trace, s⟩, hrun⟩ : ∃ q, runFrom (.new {}) oneTask = some q :=
    Option.isSome_iff_exists.mp (by decide +kernel)
  exact ⟨trace, s, hrun, (failure_leaves_state withLimits_default hrun _).2⟩

/-- **Tokens replay safely.** Over every run: (a) the leases are issued under
increasing ids; (b) the record of an ended task stays through every further
run; (c) a task has at most one receipt, a receipt is repeated only after the
completion that returned it, completed tasks are those completions, one each,
and a worker's count is the number of its completions; (d) a token that owns
no record changes nothing. -/
theorem tokens_replay_safely (h₀ : withLimits limits = .ok s₀)
    (hrun : runFrom s₀ requests = some (trace, s)) :
    (issuedLeases trace).Pairwise (· < ·) ∧
    (∀ (id : String) (e : TaskEntry), s.tasks[id]? = some e → e.task.status.isActive = false →
      ∀ (more : List Request) (trace' : Trace) (t : CoordinatorState),
        runFrom s more = some (trace', t) → t.tasks[id]? = some e) ∧
    ((∀ r ∈ (replies trace).filterMap Reply.receipt, ∀ r' ∈ (replies trace).filterMap Reply.receipt,
        r.taskId = r'.taskId → r = r') ∧
      (∀ (before after : Trace) (request : Request) (revision : Nat) (r : CompletionReceipt),
        trace = before ++ (request, .ok (.completion ⟨revision, .alreadyCompleted r⟩)) :: after →
        r ∈ completedReceipts before) ∧
      ((completedReceipts trace).map (·.taskId)).Nodup ∧
      (∀ id : String, (∃ e : TaskEntry, s.tasks[id]? = some e ∧ e.task.status = .completed) ↔
        ∃ r ∈ completedReceipts trace, r.taskId = id) ∧
      ∀ (id : String) (w : WorkerNode), s.workers[id]? = some w →
        w.completedTasks = (completedReceipts trace).countP fun r => r.workerId = id) ∧
    ∀ (request : Request) (token : TaskOwnership), request.token = some token → Stale s token →
      ∀ r t, reply (exec request) s = some (r, t) → t = s := by
  have h := history_of_run h₀ hrun
  refine ⟨h.leases, fun id e he ha more trace' t hmore => ended_of_run h.inv he ha hmore,
    ⟨fun r hr r' hr' hid => h.receipt_unique (h.returned hr) (h.returned hr') hid,
      fun before after request revision r hspl => h.repeated hspl rfl, h.distinct,
      fun id => ?_, fun id w hw => ?_⟩, fun request token htoken hstl r t hr => ?_⟩
  · rw [h.inv.completed_iff]
    simp only [h.receipts]
  · rw [← h.counts, completedBy, hw]
    rfl
  · obtain ⟨hok, herr, -⟩ := wp_iff_reply.mp (exec_stale h.inv htoken hstl)
    cases r with
    | ok reply => exact hok reply t hr
    | error e => exact (herr e t hr).1

theorem tokens_replay_safely_oneTask : ∃ trace s, runFrom (.new {}) oneTask = some (trace, s) ∧
    issuedLeases trace = [1] ∧ completedReceipts trace = [oneLease.receipt 4] ∧
    (∀ r ∈ (replies trace).filterMap Reply.receipt, ∀ r' ∈ (replies trace).filterMap Reply.receipt,
      r.taskId = r'.taskId → r = r') ∧
    ∀ (id : String) (w : WorkerNode), s.workers[id]? = some w →
      w.completedTasks = (completedReceipts trace).countP fun r => r.workerId = id := by
  have hvalue : ((runFrom (.new {}) oneTask).map fun q => (issuedLeases q.1, completedReceipts q.1)) =
      some ([1], [oneLease.receipt 4]) := by decide +kernel
  obtain ⟨⟨trace, s⟩, hrun, hpair⟩ := Option.map_eq_some_iff.mp hvalue
  obtain ⟨hissued, hcomp⟩ := Prod.mk.inj hpair
  obtain ⟨-, -, ⟨hunique, -, -, -, hcnt⟩, -⟩ := tokens_replay_safely withLimits_default hrun
  exact ⟨trace, s, hrun, hissued, hcomp, hunique, hcnt⟩

end Runs

end Termivar.Distributed
