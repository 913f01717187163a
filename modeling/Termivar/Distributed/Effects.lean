/-
# What the coordinator's helpers do

Under the invariant the helpers that write cannot fail, and each changes one
record, its queue key and its worker: the changes as functions on the state
(`endQueued`, `endLeased`, `requeue`, `leaseOut`), and for each the equation
that the helper makes it, and that it keeps the invariant.

What a command never touches is `Keeps`: the records of the ended tasks, the
receipts, the workers' counts of completed tasks.
-/
import Termivar.Distributed.SelfCheck

namespace Termivar.Distributed

open DistributedError Option CoordinatorState

/-! ### Counters and checks -/

@[simp] theorem wp_nextCounter {ok : Nat → Prop} {err : DistributedError → Prop} (v : Nat)
    (c : String) : Checked.wp (nextCounter v c) ok err ↔
      (v < u64Max → ok (v + 1)) ∧ (u64Max ≤ v → err (.counterExhausted c)) := by
  simp [nextCounter, checkedAdd_eq_some, checkedAdd_eq_none]

@[simp] theorem wp_nextU32 {ok : Nat → Prop} {err : DistributedError → Prop} (v : Nat)
    (c : String) : Checked.wp (nextU32 v c) ok err ↔
      (v < u32Max → ok (v + 1)) ∧ (u32Max ≤ v → err (.counterExhausted c)) := by
  simp [nextU32, checkedAdd_eq_some, checkedAdd_eq_none]

/-! ### What a command keeps -/

/-- The receipt of a completed task. -/
def completionOf (s : CoordinatorState) (id : String) : Option CompletionReceipt :=
  s.tasks[id]?.bind (·.completion)

/-- How many tasks a worker has completed. -/
def completedBy (s : CoordinatorState) (workerId : String) : Nat :=
  (s.workers[workerId]?.map (·.completedTasks)).getD 0

/-- Ended records stay, receipts and the workers' counts are the same, and
no lease id is taken back. -/
structure Keeps (s t : CoordinatorState) : Prop where
  limits : t.limits = s.limits
  ended : ∀ {id : String} {e : TaskEntry}, s.tasks[id]? = some e → e.isActive = false →
    t.tasks[id]? = some e
  completion : ∀ id, completionOf t id = completionOf s id
  completed : ∀ workerId, completedBy t workerId = completedBy s workerId
  leaseId : s.nextLeaseId ≤ t.nextLeaseId

theorem Keeps.refl (s : CoordinatorState) : Keeps s s :=
  ⟨rfl, fun h _ => h, fun _ => rfl, fun _ => rfl, le_rfl⟩

theorem Keeps.trans {s t u : CoordinatorState} (h : Keeps s t) (h' : Keeps t u) : Keeps s u where
  limits := h'.limits.trans h.limits
  ended he ha := h'.ended (h.ended he ha) ha
  completion id := (h'.completion id).trans (h.completion id)
  completed w := (h'.completed w).trans (h.completed w)
  leaseId := h.leaseId.trans h'.leaseId

theorem Keeps.committed (s : CoordinatorState) (revision nowSecs : Nat) :
    Keeps s (s.committed revision nowSecs) :=
  ⟨rfl, fun h _ => h, fun _ => rfl, fun _ => rfl, le_rfl⟩

section Books

variable {s t : CoordinatorState} {id : String}

theorem completionOf_insert {e e' : TaskEntry} (he : s.tasks[id]? = some e)
    (hc : e'.completion = e.completion) (ht : t.tasks = s.tasks.insert id e') (x : String) :
    completionOf t x = completionOf s x := by
  unfold completionOf
  rw [ht, get_insert]
  split_ifs with hx
  · rw [← hx, he, bind_some, bind_some, hc]
  · rfl

theorem completedBy_insert {w : WorkerNode} (w' : WorkerNode) (hw : s.workers[id]? = some w)
    (hc : w'.completedTasks = w.completedTasks) (ht : t.workers = s.workers.insert id w')
    (x : String) : completedBy t x = completedBy s x := by
  unfold completedBy
  rw [ht, get_insert]
  split_ifs with hx
  · rw [← hx, hw, map_some, map_some, hc]
  · rfl

/-- The record of an active task changes, and no ended one. -/
theorem ended_insert {e e' : TaskEntry} (he : s.tasks[id]? = some e) (ha : e.isActive = true)
    (ht : t.tasks = s.tasks.insert id e') {x : String} {v : TaskEntry} (hv : s.tasks[x]? = some v)
    (hend : v.isActive = false) : t.tasks[x]? = some v := by
  rw [ht, get_insert_ne]
  · exact hv
  · rintro rfl
    rw [he] at hv
    cases hv
    rw [ha] at hend
    cases hend

/-- The record of an active task changes, the receipt apart. -/
theorem Keeps.replace {e e' : TaskEntry} (he : s.tasks[id]? = some e) (ha : e.isActive = true)
    (ht : t.tasks = s.tasks.insert id e') (hc : e'.completion = e.completion)
    (hlim : t.limits = s.limits) (hw : ∀ w, completedBy t w = completedBy s w)
    (hl : s.nextLeaseId ≤ t.nextLeaseId) : Keeps s t where
  limits := hlim
  ended := ended_insert he ha ht
  completion := completionOf_insert he hc ht
  completed := hw
  leaseId := hl

/-- A worker's record changes, its count of completed tasks apart. -/
theorem Keeps.setWorker {w' : WorkerNode} (ht : t = { s with workers := s.workers.insert id w' })
    (hc : completedBy s id = w'.completedTasks) : Keeps s t := by
  subst ht
  refine ⟨rfl, fun h _ => h, fun _ => rfl, fun x => ?_, le_rfl⟩
  by_cases hx : id = x
  · subst hx
    simp [completedBy] at hc ⊢
    exact hc.symm
  · simp [completedBy, get_insert_ne _ hx]

end Books

/-! ### A worker gives back a lease -/

/-- The record of a worker with one lease less. -/
def WorkerNode.released (w : WorkerNode) : WorkerNode :=
  { w with currentTasks := w.currentTasks - 1 }

section Leased

variable {s : CoordinatorState} {id : String} {e : TaskEntry} {lease : TaskLease} {w : WorkerNode}

/-- The record of `id` is leased out, to the worker `w`. -/
structure LeasedTo (s : CoordinatorState) (id : String) (e : TaskEntry) (lease : TaskLease)
    (w : WorkerNode) : Prop where
  record : s.tasks[id]? = some e
  leased : e.task.lease = some lease
  worker : s.workers[lease.workerId]? = some w

theorem Inv.leasedTo (h : Inv s) (he : s.tasks[id]? = some e) (hl : e.task.lease = some lease) :
    ∃ w, LeasedTo s id e lease w := by
  obtain ⟨w, hw, -⟩ := h.holder he hl
  exact ⟨w, he, hl, hw⟩

/-- What the release of a lease asks of its worker. -/
theorem LeasedTo.held (hto : LeasedTo s id e lease w) (h : Inv s) :
    w.generation = lease.workerGeneration ∧ 0 < w.currentTasks := by
  obtain ⟨w', hw', hg, hpos⟩ := h.worker_of_lease hto.record hto.leased
  rw [hto.worker] at hw'
  cases hw'
  exact ⟨hg, hpos⟩

theorem LeasedTo.taskId (hto : LeasedTo s id e lease w) (h : Inv s) : lease.taskId = id :=
  (h.records hto.record).lease_taskId hto.leased

theorem LeasedTo.isActive (hto : LeasedTo s id e lease w) (h : Inv s) : e.isActive = true :=
  isActive_of_lease (h.records hto.record) hto.leased

theorem LeasedTo.preflight (hto : LeasedTo s id e lease w) (h : Inv s) :
    preflightWorkerRelease s lease = .ok () := by
  obtain ⟨hg, hpos⟩ := hto.held h
  refine Checked.eq_ok_of_wp ?_
  simp only [preflightWorkerRelease, Checked.wp_rules, hto.worker]
  simp [hg, hpos.ne']

theorem releaseWorker_eq (h : Inv s) (hto : LeasedTo s id e lease w) :
    releaseWorker lease s =
      .ok () { s with workers := s.workers.insert lease.workerId w.released } := by
  obtain ⟨hg, hpos⟩ := hto.held h
  refine Command.eq_ok_iff_wp.mpr ?_
  simp [releaseWorker, -getElem?_eq_none_iff, hto.worker, hg, hpos.ne', WorkerNode.released]

variable {e' : TaskEntry}

/-- The workers after the record of `id` gives up its lease. -/
theorem LeasedTo.workersMove (hto : LeasedTo s id e lease w) (h : Inv s)
    (hl' : e'.task.lease = none) :
    WorkersMove s.workers (s.workers.insert lease.workerId w.released) e e' := by
  obtain ⟨-, hpos⟩ := hto.held h
  have hcap := (h.workers hto.worker).2.2.1
  refine WorkersMove.insert h hto.worker rfl rfl rfl ?_ ?_ fun x hx => ?_
  · simp only [holds_of_lease hto.leased, holds_of_none hl', WorkerNode.released, decide_true,
      Bool.toNat_true, Bool.toNat_false]
    omega
  · show w.currentTasks - 1 ≤ w.capacity
    omega
  · rw [holds_of_lease hto.leased, holds_of_none hl']
    exact decide_eq_false (Ne.symm hx)

/-! ### A leased task ends -/

/-- The leased task ends with the record `e'`. -/
def CoordinatorState.endLeased (s : CoordinatorState) (lease : TaskLease) (w : WorkerNode)
    (e' : TaskEntry) : CoordinatorState :=
  { s with
    workers := s.workers.insert lease.workerId w.released
    tasks := s.tasks.insert lease.taskId e'
    activeTasks := s.activeTasks - 1
    terminalTasks := s.terminalTasks + 1 }

theorem terminalizeLeasedTask_eq (h : Inv s) (hto : LeasedTo s id e lease w) (status : TaskStatus)
    (hst : status.isActive = false) (nowSecs recordVersion : Nat) :
    terminalizeLeasedTask lease status nowSecs recordVersion s =
      .ok () (s.endLeased lease w (e.leasedEnded status nowSecs recordVersion)) := by
  have hpos := h.active_pos hto.record (hto.isActive h)
  have hrel := releaseWorker_eq h hto
  refine Command.eq_ok_iff_wp.mpr ?_
  simp [terminalizeLeasedTask, -getElem?_eq_none_iff, hst, hto.preflight h,
    Command.wp_of_eq_ok hrel, updateTask, countTerminal, hto.taskId h, hto.record, hpos.ne',
    endLeased]

/-- Everything the invariant asks of the record of a leased task that ended. -/
theorem RecordOK.leasedEnded (h : RecordOK id e) (hl : e.task.lease = some lease)
    (status : TaskStatus) (hst : status.isActive = false) (nowSecs recordVersion : Nat)
    (ht : e'.task = (e.leasedEnded status nowSecs (recordVersion + 1)).task)
    (hk : e'.queueKey = e.queueKey) (hc : e'.completion.isSome ↔ status = .completed)
    (hr : ∀ r, e'.completion = some r → r.taskId = id) : RecordOK id e' where
  taskId := by rw [ht]; exact h.taskId
  version := by rw [ht]; exact Nat.succ_ne_zero _
  queued hq := by
    have : status = .queued := by rw [← hq, ht]; rfl
    rw [this] at hst
    cases hst
  leased hq := by
    have : status = .leased ∨ status = .running := by rwa [ht] at hq
    rcases this with this | this <;> rw [this] at hst <;> cases hst
  ended _ := by
    rw [ht]
    exact ⟨hk.trans (h.leased (h.status_of_lease hl)).1, rfl, rfl⟩
  completion := by
    rw [ht]
    exact hc
  receipt := hr

/-- The same where the task did not complete. -/
theorem RecordOK.leasedStopped (h : RecordOK id e) (hl : e.task.lease = some lease)
    (status : TaskStatus) (hst : status.isActive = false) (hne : status ≠ .completed)
    (nowSecs recordVersion : Nat)
    (ht : e'.task = (e.leasedEnded status nowSecs (recordVersion + 1)).task)
    (hk : e'.queueKey = e.queueKey) (hc : e'.completion = e.completion) : RecordOK id e' := by
  refine h.leasedEnded hl status hst nowSecs recordVersion ht hk ?_ fun r hr => ?_
  · rw [hc]
    exact h.no_receipt (isActive_of_lease h hl) hne
  · exact h.receipt r (hc ▸ hr)

theorem Inv.endLeased (h : Inv s) (hto : LeasedTo s id e lease w) (hrec : RecordOK id e')
    (hend : e'.isActive = false) : Inv (s.endLeased lease w e') := by
  obtain ⟨hk, hl, -⟩ := hrec.ended hend
  have hpos := h.active_pos hto.record (hto.isActive h)
  have hek := ((h.records hto.record).leased ((h.records hto.record).status_of_lease hto.leased)).1
  refine h.replace hto.record rfl ?_ hrec (fun key => ?_) h.queueBound
    (hto.workersMove h hl) (fun lease hl' => ?_) ?_ (fun ha => ?_) ?_
  · simp [CoordinatorState.endLeased, hto.taskId h]
  · simp [CoordinatorState.endLeased, hk, hek]
  · rw [hl] at hl'
    cases hl'
  · simp only [CoordinatorState.endLeased, hend, hto.isActive h, Bool.toNat_true, Bool.toNat_false]
    omega
  · rw [hend] at ha
    cases ha
  · simp only [CoordinatorState.endLeased]
    omega

theorem Keeps.endLeased (h : Inv s) (hto : LeasedTo s id e lease w)
    (hc : e'.completion = e.completion) : Keeps s (s.endLeased lease w e') :=
  Keeps.replace hto.record (hto.isActive h) (by simp [CoordinatorState.endLeased, hto.taskId h]) hc
    rfl (completedBy_insert w.released hto.worker rfl rfl) le_rfl

/-! ### A leased task goes back to the queue -/

/-- The leased task is queued again, with the record `e'` under the key. -/
def CoordinatorState.requeue (s : CoordinatorState) (lease : TaskLease) (w : WorkerNode)
    (e' : TaskEntry) (key : QueueKey) (nextOrdinal : Nat) : CoordinatorState :=
  { s with
    workers := s.workers.insert lease.workerId w.released
    tasks := s.tasks.insert lease.taskId e'
    queue := s.queue.insert key
    nextEnqueueOrdinal := nextOrdinal }

theorem requeueTask_eq (h : Inv s) (hto : LeasedTo s id e lease w) (reason : String)
    (retryCount taskGeneration recordVersion nextOrdinal : Nat) :
    requeueTask lease id reason retryCount taskGeneration recordVersion nextOrdinal s =
      .ok () (s.requeue lease w
        (e.requeued (QueueKey.new e.task.priority s.nextEnqueueOrdinal id) retryCount taskGeneration
          recordVersion)
        (QueueKey.new e.task.priority s.nextEnqueueOrdinal id) nextOrdinal) := by
  have hrel := releaseWorker_eq h hto
  refine Command.eq_ok_iff_wp.mpr ?_
  simp [requeueTask, -getElem?_eq_none_iff, Command.wp_of_eq_ok hrel, hto.record, hto.taskId h, requeue]

theorem RecordOK.requeued (h : RecordOK id e) (hl : e.task.lease = some lease) {key : QueueKey}
    (hkey : key.taskId = id) (retryCount taskGeneration recordVersion : Nat) :
    RecordOK id (e.requeued key retryCount taskGeneration (recordVersion + 1)) where
  taskId := h.taskId
  version := Nat.succ_ne_zero _
  queued _ := ⟨rfl, rfl, key, rfl, hkey⟩
  leased hq := by rcases hq with hq | hq <;> cases hq
  ended hq := by cases hq
  completion := h.no_receipt (isActive_of_lease h hl) nofun
  receipt := h.receipt

theorem Inv.requeue (h : Inv s) (hto : LeasedTo s id e lease w) {key : QueueKey}
    (hrec : RecordOK id e') (hkey : e'.queueKey = some key)
    (hroom : s.queue.size < s.limits.maxQueuedTasks) (nextOrdinal : Nat) :
    Inv (s.requeue lease w e' key nextOrdinal) := by
  have hq := hrec.status_of_key hkey
  have hl := (hrec.queued hq).1
  have hek := ((h.records hto.record).leased ((h.records hto.record).status_of_lease hto.leased)).1
  have ha' : e'.isActive = true := isActive_of_queued hq
  refine h.replace hto.record rfl ?_ hrec (fun k => ?_) ?_
    (hto.workersMove h hl) (fun lease hl' => ?_) ?_ (fun _ => hto.isActive h) rfl
  · simp [CoordinatorState.requeue, hto.taskId h]
  · show k ∈ s.queue.insert key ↔ _
    rw [mem_insert_iff, hkey, hek, some.injEq, or_comm, eq_comm (a := k)]
    simp
  · refine le_trans (Std.ExtTreeSet.size_insert_le) ?_
    omega
  · rw [hl] at hl'
    cases hl'
  · simp [CoordinatorState.requeue, ha', hto.isActive h]

theorem Keeps.requeue (h : Inv s) (hto : LeasedTo s id e lease w)
    (hc : e'.completion = e.completion) (key : QueueKey) (nextOrdinal : Nat) :
    Keeps s (s.requeue lease w e' key nextOrdinal) :=
  Keeps.replace hto.record (hto.isActive h) (by simp [CoordinatorState.requeue, hto.taskId h]) hc
    rfl (completedBy_insert w.released hto.worker rfl rfl) le_rfl

/-! ### A leased task starts -/

/-- A leased record changes and stays leased as it is. -/
theorem Inv.restart (h : Inv s) (hto : LeasedTo s id e lease w) (hrec : RecordOK id e')
    (hl' : e'.task.lease = some lease) :
    Inv { s with tasks := s.tasks.insert id e' } := by
  have hek := ((h.records hto.record).leased ((h.records hto.record).status_of_lease hto.leased)).1
  have hek' := (hrec.leased (hrec.status_of_lease hl')).1
  refine h.replace hto.record rfl rfl hrec (fun k => ?_) h.queueBound
    (WorkersMove.refl h fun x => ?_) (fun l hl => ?_) ?_ (fun _ => hto.isActive h) rfl
  · simp [hek, hek']
  · rw [holds_of_lease hto.leased, holds_of_lease hl']
  · rw [hl'] at hl
    cases hl
    exact h.holder hto.record hto.leased
  · simp [isActive_of_lease hrec hl', hto.isActive h]

theorem RecordOK.started (h : RecordOK id e) (hl : e.task.lease = some lease)
    (nowSecs recordVersion : Nat) : RecordOK id (e.started nowSecs (recordVersion + 1)) where
  taskId := h.taskId
  version := Nat.succ_ne_zero _
  queued hq := by cases hq
  leased _ := h.leased (h.status_of_lease hl)
  ended hq := by cases hq
  completion := h.no_receipt (isActive_of_lease h hl) nofun
  receipt := h.receipt

end Leased

/-! ### A queued task ends, or is leased out -/

section Queued

variable {s : CoordinatorState} {id : String} {e : TaskEntry} {key : QueueKey}

theorem Inv.key_of_queued (h : Inv s) (he : s.tasks[id]? = some e) (hq : e.task.status = .queued) :
    ∃ key, e.queueKey = some key ∧ key ∈ s.queue ∧ key.taskId = id := by
  obtain ⟨-, -, key, hkey, hid⟩ := (h.records he).queued hq
  exact ⟨key, hkey, (h.queue key).mpr ⟨id, e, he, hkey⟩, hid⟩

theorem Inv.ensureQueueEntry_eq (h : Inv s) (he : s.tasks[id]? = some e)
    (hq : e.task.status = .queued) : ensureQueueEntry s e = .ok () := by
  obtain ⟨key, hkey, hmem, hid⟩ := h.key_of_queued he hq
  have hc : s.queue.contains key = true := hmem
  simp [ensureQueueEntry, hkey, hc, hid, (h.records he).taskId]
  rfl

/-- The queued task ends with the record `e'`. -/
def CoordinatorState.endQueued (s : CoordinatorState) (id : String) (key : QueueKey)
    (e' : TaskEntry) : CoordinatorState :=
  { s with
    queue := s.queue.erase key
    tasks := s.tasks.insert id e'
    activeTasks := s.activeTasks - 1
    terminalTasks := s.terminalTasks + 1 }

theorem terminalizeQueuedTask_eq (h : Inv s) (he : s.tasks[id]? = some e)
    (hkey : e.queueKey = some key) (status : TaskStatus) (hst : status.isActive = false)
    (nowSecs recordVersion : Nat) :
    terminalizeQueuedTask id status nowSecs recordVersion s =
      .ok () (s.endQueued id key (e.queuedEnded status nowSecs recordVersion)) := by
  have hq := (h.records he).status_of_key hkey
  have hmem := (h.queue key).mpr ⟨id, e, he, hkey⟩
  have hpos := h.active_pos he (isActive_of_queued hq)
  refine Command.eq_ok_iff_wp.mpr ?_
  simp [terminalizeQueuedTask, -getElem?_eq_none_iff, hst, he, hq, hkey, hmem, updateTask, countTerminal, hpos.ne',
    endQueued]

variable {e' : TaskEntry}

theorem RecordOK.queuedEnded (h : RecordOK id e) (hq : e.task.status = .queued)
    (status : TaskStatus) (hst : status.isActive = false) (hne : status ≠ .completed)
    (nowSecs recordVersion : Nat)
    (ht : e'.task = (e.queuedEnded status nowSecs (recordVersion + 1)).task)
    (hk : e'.queueKey = none) (hc : e'.completion = e.completion) : RecordOK id e' where
  taskId := by rw [ht]; exact h.taskId
  version := by rw [ht]; exact Nat.succ_ne_zero _
  queued hs := by
    have : status = .queued := by rw [← hs, ht]; rfl
    rw [this] at hst
    cases hst
  leased hs := by
    have : status = .leased ∨ status = .running := by rwa [ht] at hs
    rcases this with this | this <;> rw [this] at hst <;> cases hst
  ended _ := by
    rw [ht]
    exact ⟨hk, (h.queued hq).1, (h.queued hq).2.1⟩
  completion := by
    rw [hc, ht]
    exact h.no_receipt (isActive_of_queued hq) hne
  receipt r hr := h.receipt r (hc ▸ hr)

/-- The queue and the record of a task that leaves the queue. -/
theorem mem_erase_key (hkey : e.queueKey = some key) (hk : e'.queueKey = none) (k : QueueKey) :
    k ∈ s.queue.erase key ↔ (k ∈ s.queue ∧ e.queueKey ≠ some k) ∨ e'.queueKey = some k := by
  rw [mem_erase_iff, hkey, hk]
  simp [and_comm, eq_comm]

theorem Inv.endQueued (h : Inv s) (he : s.tasks[id]? = some e) (hkey : e.queueKey = some key)
    (hrec : RecordOK id e') (hend : e'.isActive = false) :
    Inv (s.endQueued id key e') := by
  obtain ⟨hk, hl, -⟩ := hrec.ended hend
  have hq := (h.records he).status_of_key hkey
  have ha : e.isActive = true := isActive_of_queued hq
  have hpos := h.active_pos he ha
  refine h.replace he rfl rfl hrec (mem_erase_key hkey hk) ?_
    (WorkersMove.refl h fun x => ?_) (fun lease hl' => ?_) ?_ (fun _ => ha) ?_
  · exact le_trans Std.ExtTreeSet.size_erase_le h.queueBound
  · rw [holds_of_none hl, holds_of_none ((h.records he).queued hq).1]
  · rw [hl] at hl'
    cases hl'
  · simp only [CoordinatorState.endQueued, hend, ha, Bool.toNat_true, Bool.toNat_false]
    omega
  · simp only [CoordinatorState.endQueued]
    omega

theorem Keeps.endQueued (h : Inv s) (he : s.tasks[id]? = some e) (hkey : e.queueKey = some key)
    (hc : e'.completion = e.completion) : Keeps s (s.endQueued id key e') := by
  have hq := (h.records he).status_of_key hkey
  exact Keeps.replace he (isActive_of_queued hq) rfl hc rfl (fun _ => rfl) le_rfl

/-- The record of a worker with one lease more. -/
def WorkerNode.taken (w : WorkerNode) : WorkerNode := { w with currentTasks := w.currentTasks + 1 }

/-- The queued task is leased out to the worker `w`. -/
def CoordinatorState.leaseOut (s : CoordinatorState) (key : QueueKey) (lease : TaskLease)
    (w : WorkerNode) (e' : TaskEntry) : CoordinatorState :=
  { s with
    queue := s.queue.erase key
    tasks := s.tasks.insert lease.taskId e'
    workers := s.workers.insert lease.workerId w.taken
    nextLeaseId := s.nextLeaseId + 1 }

variable {lease : TaskLease} {w : WorkerNode}

theorem applyAssignment_eq (h : Inv s) (he : s.tasks[lease.taskId]? = some e)
    (hkey : e.queueKey = some key) (hw : s.workers[lease.workerId]? = some w)
    (hv : e.task.recordVersion < u64Max) (hn : w.currentTasks < u32Max)
    (hid : s.nextLeaseId < u64Max) :
    applyAssignment lease s =
      .ok () (s.leaseOut key lease w (e.assigned lease (e.task.recordVersion + 1))) := by
  have hmem := (h.queue key).mpr ⟨_, e, he, hkey⟩
  refine Command.eq_ok_iff_wp.mpr ?_
  simp [applyAssignment, -getElem?_eq_none_iff, he, hkey, hmem, hw, updateTask, hv, hn,
    hid, leaseOut, WorkerNode.taken]

theorem RecordOK.assigned (h : RecordOK id e) (hq : e.task.status = .queued)
    (hid : lease.taskId = id) (hg : e.task.taskGeneration = lease.taskGeneration)
    (recordVersion : Nat) : RecordOK id (e.assigned lease (recordVersion + 1)) where
  taskId := h.taskId
  version := Nat.succ_ne_zero _
  queued hs := by cases hs
  leased _ := ⟨rfl, lease, rfl, hid, rfl, hg, rfl⟩
  ended hs := by cases hs
  completion := h.no_receipt (isActive_of_queued hq) nofun
  receipt := h.receipt

theorem Inv.leaseOut (h : Inv s) (he : s.tasks[lease.taskId]? = some e)
    (hkey : e.queueKey = some key) (hw : s.workers[lease.workerId]? = some w)
    (hgen : w.generation = lease.workerGeneration) (hroom : w.currentTasks < w.capacity)
    (hrec : RecordOK lease.taskId e') (hl : e'.task.lease = some lease) :
    Inv (s.leaseOut key lease w e') := by
  have hq := (h.records he).status_of_key hkey
  have ha : e.isActive = true := isActive_of_queued hq
  have hel := ((h.records he).queued hq).1
  have hk := (hrec.leased (hrec.status_of_lease hl)).1
  refine h.replace he rfl rfl hrec (mem_erase_key hkey hk) ?_
    (WorkersMove.insert h hw rfl rfl rfl ?_ ?_ fun x hx => ?_) (fun l hl' => ?_) ?_ (fun _ => ha) rfl
  · exact le_trans Std.ExtTreeSet.size_erase_le h.queueBound
  · rw [holds_of_none hel, holds_of_lease hl]
    simp [WorkerNode.taken]
  · exact hroom
  · rw [holds_of_none hel, holds_of_lease hl]
    exact (decide_eq_false (Ne.symm hx)).symm
  · rw [hl] at hl'
    cases hl'
    exact ⟨w.taken, get_insert_self _ _ _, hgen⟩
  · simp [CoordinatorState.leaseOut, ha, isActive_of_lease hrec hl]

theorem Keeps.leaseOut (h : Inv s) (he : s.tasks[lease.taskId]? = some e)
    (hkey : e.queueKey = some key) (hw : s.workers[lease.workerId]? = some w)
    (hc : e'.completion = e.completion) : Keeps s (s.leaseOut key lease w e') := by
  have hq := (h.records he).status_of_key hkey
  exact Keeps.replace he (isActive_of_queued hq) rfl hc rfl
    (completedBy_insert w.taken hw rfl rfl) (Nat.le_succ _)

end Queued

/-! ### A task is admitted -/

section Admitted

variable {s : CoordinatorState} {id : String} {e : TaskEntry} {key : QueueKey}

/-- The task is queued, with the record `e` under the key. -/
def CoordinatorState.admitted (s : CoordinatorState) (id : String) (e : TaskEntry) (key : QueueKey)
    (nextOrdinal : Nat) : CoordinatorState :=
  { s with
    nextEnqueueOrdinal := nextOrdinal
    queue := s.queue.insert key
    tasks := s.tasks.insert id e
    activeTasks := s.activeTasks + 1 }

theorem Inv.admitted (h : Inv s) (hnew : s.tasks[id]? = none) (hrec : RecordOK id e)
    (hkey : e.queueKey = some key) (hrecs : s.tasks.size < s.limits.maxTaskRecords)
    (hact : s.activeTasks < s.limits.maxActiveTasks)
    (hroom : s.queue.size < s.limits.maxQueuedTasks)
    (hres : s.terminalTasks + s.activeTasks + 1 ≤ s.limits.maxTerminalTasks)
    (nextOrdinal : Nat) : Inv (s.admitted id e key nextOrdinal) := by
  have hq := hrec.status_of_key hkey
  have hl := (hrec.queued hq).1
  have hne : ∀ {x : String} {v : TaskEntry}, s.tasks[x]? = some v → id ≠ x := fun hv hx => by
    rw [← hx, hnew] at hv
    cases hv
  have hget : ∀ {x : String} {v : TaskEntry}, (s.tasks.insert id e)[x]? = some v →
      (x = id ∧ v = e) ∨ s.tasks[x]? = some v := fun hv => by
    rw [get_insert] at hv
    split_ifs at hv with hx
    · cases hv
      exact Or.inl ⟨hx.symm, rfl⟩
    · exact Or.inr hv
  refine
    { records := fun {x v} hv => ?_
      queue := fun k => ?_
      holder := fun {x v lease} hv hl' => ?_
      workers := fun {x w} hw => ?_
      active := ?_
      terminal := ?_
      recordBound := ?_
      activeBound := hact
      queueBound := le_trans Std.ExtTreeSet.size_insert_le hroom
      terminalBound := ?_
      workerBound := h.workerBound }
  · rcases hget hv with ⟨rfl, rfl⟩ | hv
    · exact hrec
    · exact h.records hv
  · show k ∈ s.queue.insert key ↔ ∃ (x : String) (v : TaskEntry), (s.tasks.insert id e)[x]? = some v ∧ _
    rw [mem_insert_iff, h.queue]
    constructor
    · rintro (rfl | ⟨x, v, hv, hk⟩)
      · exact ⟨id, e, get_insert_self _ _ _, hkey⟩
      · exact ⟨x, v, (get_insert_ne _ (hne hv)).trans hv, hk⟩
    · rintro ⟨x, v, hv, hk⟩
      rcases hget hv with ⟨rfl, rfl⟩ | hv
      · rw [hkey] at hk
        cases hk
        exact Or.inl rfl
      · exact Or.inr ⟨x, v, hv, hk⟩
  · rcases hget hv with ⟨rfl, rfl⟩ | hv
    · rw [hl] at hl'
      cases hl'
    · exact h.holder hv hl'
  · obtain ⟨h1, h2, h3⟩ := h.workers hw
    refine ⟨h1, h2.trans ?_, h3⟩
    show _ = countOf (s.tasks.insert id e) _
    rw [countOf_insert_new _ e hnew, holds_of_none hl]
    rfl
  · show s.activeTasks + 1 = countOf (s.tasks.insert id e) _
    rw [countOf_insert_new _ e hnew, isActive_of_queued hq, h.active]
    rfl
  · show s.terminalTasks + (s.activeTasks + 1) = (s.tasks.insert id e).size
    rw [size_insert_new e hnew, ← h.terminal]
    rfl
  · show (s.tasks.insert id e).size ≤ s.limits.maxTaskRecords
    rw [size_insert_new e hnew]
    exact hrecs
  · show s.terminalTasks + (s.activeTasks + 1) ≤ s.limits.maxTerminalTasks
    omega

theorem Keeps.admitted (hnew : s.tasks[id]? = none) (hc : e.completion = none) (nextOrdinal : Nat) :
    Keeps s (s.admitted id e key nextOrdinal) where
  limits := rfl
  ended {x v} hv _ := by
    refine (get_insert_ne _ fun hx => ?_).trans hv
    rw [← hx, hnew] at hv
    cases hv
  completion x := by
    show ((s.tasks.insert id e)[x]?).bind _ = _
    rw [completionOf, get_insert]
    split_ifs with hx
    · rw [← hx, hnew]
      exact hc
    · rfl
  completed _ := rfl
  leaseId := le_rfl

end Admitted

end Termivar.Distributed
