/-
# The coordinator's invariant

What `check_state_invariants` asks of a state, strengthened until every
command keeps it (`Inv`): the records one by one (`RecordOK`), the queue set
as the queue keys of the records, each lease's worker present under the
generation the lease names, each worker's `current_tasks` as the number of
records leased to it, and the bounds. The bound on the ended tasks holds
through a reservation: the ended and the active tasks together never exceed
it, so a task that ends only moves between the two.

A command changes one record at a time, and with it one worker and one queue
key: `Inv.replace` is the one place where the invariant is proved again after
such a change, and `Inv.setWorker` the one for a change of a worker's record
alone.
-/
import Termivar.Distributed.Coordinator

namespace Termivar.Distributed

/-- The record is leased to the worker. -/
def TaskEntry.holds (e : TaskEntry) (workerId : String) : Bool :=
  e.task.lease.any fun lease => lease.workerId = workerId

/-- The record is of a task that has not ended. -/
def TaskEntry.isActive (e : TaskEntry) : Bool := e.task.status.isActive

/-- A record is queued, leased out, or ended, and carries what goes with it. -/
structure RecordOK (id : String) (e : TaskEntry) : Prop where
  taskId : e.task.taskId = id
  version : e.task.recordVersion ≠ 0
  queued : e.task.status = .queued →
    e.task.lease = none ∧ e.task.assignedTo = none ∧ ∃ key, e.queueKey = some key ∧ key.taskId = id
  leased : e.task.status = .leased ∨ e.task.status = .running →
    e.queueKey = none ∧ ∃ lease, e.task.lease = some lease ∧ lease.taskId = id ∧
      e.task.assignedTo = some lease.workerId ∧ e.task.taskGeneration = lease.taskGeneration ∧
      e.task.attempt = lease.attempt
  ended : e.task.status.isActive = false →
    e.queueKey = none ∧ e.task.lease = none ∧ e.task.assignedTo = none
  completion : e.completion.isSome ↔ e.task.status = .completed
  receipt : ∀ r, e.completion = some r → r.taskId = id

/-- The number of records leased to a worker. -/
def leaseCount (s : CoordinatorState) (workerId : String) : Nat :=
  countOf s.tasks fun _ e => e.holds workerId

/-- The invariant of the coordinator's state. -/
structure Inv (s : CoordinatorState) : Prop where
  records : ∀ {id : String} {e : TaskEntry}, s.tasks[id]? = some e → RecordOK id e
  queue : ∀ key, key ∈ s.queue ↔
    ∃ (id : String) (e : TaskEntry), s.tasks[id]? = some e ∧ e.queueKey = some key
  holder : ∀ {id : String} {e : TaskEntry} {lease : TaskLease}, s.tasks[id]? = some e →
    e.task.lease = some lease → ∃ w : WorkerNode, s.workers[lease.workerId]? = some w ∧
      w.generation = lease.workerGeneration
  workers : ∀ {id : String} {w : WorkerNode}, s.workers[id]? = some w →
    w.workerId = id ∧ w.currentTasks = leaseCount s id ∧ w.currentTasks ≤ w.capacity ∧
      w.capacity ≤ maxWorkerCapacity
  active : s.activeTasks = countOf s.tasks fun _ e => e.isActive
  terminal : s.terminalTasks + s.activeTasks = s.tasks.size
  recordBound : s.tasks.size ≤ s.limits.maxTaskRecords
  activeBound : s.activeTasks ≤ s.limits.maxActiveTasks
  queueBound : s.queue.size ≤ s.limits.maxQueuedTasks
  terminalBound : s.terminalTasks + s.activeTasks ≤ s.limits.maxTerminalTasks
  workerBound : s.workers.size ≤ s.limits.maxWorkers

theorem Inv.new (limits : DistributedLimits) : Inv (CoordinatorState.new limits) where
  records h := by simp [CoordinatorState.new] at h
  queue key := by simp [CoordinatorState.new]
  holder h := by simp [CoordinatorState.new] at h
  workers h := by simp [CoordinatorState.new] at h
  active := rfl
  terminal := rfl
  recordBound := Nat.zero_le _
  activeBound := Nat.zero_le _
  queueBound := Nat.zero_le _
  terminalBound := Nat.zero_le _
  workerBound := Nat.zero_le _

/-- The revision, the clock, the ordinals and the lease ids are not part of it. -/
theorem Inv.frame {s t : CoordinatorState} (h : Inv s) (hlim : t.limits = s.limits)
    (htk : t.tasks = s.tasks) (hqueue : t.queue = s.queue) (hwork : t.workers = s.workers)
    (hact : t.activeTasks = s.activeTasks) (hterm : t.terminalTasks = s.terminalTasks) :
    Inv t := by
  obtain ⟨lim, rev, time, tasks, queue, workers, active, term, ord, lid⟩ := t
  subst hlim htk hqueue hwork hact hterm
  exact { h with }

theorem Inv.committed {s : CoordinatorState} (h : Inv s) (revision nowSecs : Nat) :
    Inv (s.committed revision nowSecs) := h.frame rfl rfl rfl rfl rfl rfl

/-! ### What the invariant says of one record -/

section Records

variable {s : CoordinatorState} {id : String} {e : TaskEntry}

variable {lease : TaskLease}

/-- A record that has a lease is leased or running. -/
theorem RecordOK.status_of_lease (h : RecordOK id e)
    (hl : e.task.lease = some lease) : e.task.status = .leased ∨ e.task.status = .running := by
  cases hs : e.task.status with
  | queued => rw [(h.queued hs).1] at hl; cases hl
  | leased => exact Or.inl rfl
  | running => exact Or.inr rfl
  | _ => rw [(h.ended (by rw [hs]; rfl)).2.1] at hl; cases hl

/-- A record that has a queue key is queued. -/
theorem RecordOK.status_of_key {key : QueueKey} (h : RecordOK id e)
    (hk : e.queueKey = some key) : e.task.status = .queued := by
  cases hs : e.task.status with
  | queued => rfl
  | leased => rw [(h.leased (Or.inl hs)).1] at hk; cases hk
  | running => rw [(h.leased (Or.inr hs)).1] at hk; cases hk
  | _ => rw [(h.ended (by rw [hs]; rfl)).1] at hk; cases hk

theorem RecordOK.lease_taskId (h : RecordOK id e)
    (hl : e.task.lease = some lease) : lease.taskId = id := by
  obtain ⟨-, l, hl', hid, -⟩ := h.leased (h.status_of_lease hl)
  rw [hl] at hl'
  cases hl'
  exact hid

theorem holds_of_lease (hl : e.task.lease = some lease) (w : String) :
    e.holds w = decide (lease.workerId = w) := by
  simp [TaskEntry.holds, hl]

theorem holds_of_none (hl : e.task.lease = none) (w : String) : e.holds w = false := by
  simp [TaskEntry.holds, hl]

theorem isActive_of_lease (h : RecordOK id e)
    (hl : e.task.lease = some lease) : e.isActive = true := by
  rcases h.status_of_lease hl with hs | hs <;> simp [TaskEntry.isActive, hs, TaskStatus.isActive]

theorem isActive_of_queued (hq : e.task.status = .queued) : e.isActive = true := by
  simp [TaskEntry.isActive, hq, TaskStatus.isActive]

/-- A task that has not ended has no receipt. -/
theorem RecordOK.no_receipt (h : RecordOK id e) (ha : e.isActive = true) {status : TaskStatus}
    (hst : status ≠ .completed) : e.completion.isSome ↔ status = .completed := by
  refine iff_of_false (fun hc => ?_) hst
  rw [TaskEntry.isActive, h.completion.mp hc] at ha
  cases ha

/-- A leased record's worker is there, under its generation, and holds it. -/
theorem Inv.worker_of_lease (h : Inv s) (he : s.tasks[id]? = some e)
    (hl : e.task.lease = some lease) : ∃ w : WorkerNode, s.workers[lease.workerId]? = some w ∧
      w.generation = lease.workerGeneration ∧ 0 < w.currentTasks := by
  obtain ⟨w, hw, hg⟩ := h.holder he hl
  refine ⟨w, hw, hg, ?_⟩
  rw [(h.workers hw).2.1]
  exact countOf_pos he (by simp [holds_of_lease hl])

theorem Inv.active_pos (h : Inv s) (he : s.tasks[id]? = some e) (ha : e.isActive = true) :
    0 < s.activeTasks := by
  rw [h.active]
  exact countOf_pos he ha

/-- Queue keys of different records are different. -/
theorem Inv.key_unique (h : Inv s) {id' : String} {e' : TaskEntry} {key : QueueKey}
    (he : s.tasks[id]? = some e) (he' : s.tasks[id']? = some e') (hk : e.queueKey = some key)
    (hk' : e'.queueKey = some key) : id = id' := by
  obtain ⟨-, -, k, hk1, hid⟩ := (h.records he).queued ((h.records he).status_of_key hk)
  obtain ⟨-, -, k', hk1', hid'⟩ := (h.records he').queued ((h.records he').status_of_key hk')
  rw [hk] at hk1
  rw [hk'] at hk1'
  cases hk1
  cases hk1'
  exact hid.symm.trans hid'

end Records

/-! ### One record changes -/

/-- The workers after a record changes from `e` to `e'`: each keeps its
identity, its generation and its capacity, and counts the record it gained
or lost. -/
structure WorkersMove (ws ws' : BTreeMap String WorkerNode) (e e' : TaskEntry) : Prop where
  size : ws'.size = ws.size
  back : ∀ {id : String} {w' : WorkerNode}, ws'[id]? = some w' →
    ∃ w : WorkerNode, ws[id]? = some w ∧ w'.workerId = w.workerId ∧
      w'.generation = w.generation ∧ w'.capacity = w.capacity ∧
      w'.currentTasks + (e.holds id).toNat = w.currentTasks + (e'.holds id).toNat ∧
      w'.currentTasks ≤ w'.capacity
  forth : ∀ {id : String} {w : WorkerNode}, ws[id]? = some w →
    ∃ w' : WorkerNode, ws'[id]? = some w' ∧ w'.generation = w.generation

theorem WorkersMove.refl {s : CoordinatorState} (h : Inv s) {e e' : TaskEntry}
    (hh : ∀ id, e.holds id = e'.holds id) : WorkersMove s.workers s.workers e e' where
  size := rfl
  back {id w'} hw := ⟨w', hw, rfl, rfl, rfl, by rw [hh], (h.workers hw).2.2.1⟩
  forth {id w} hw := ⟨w, hw, rfl⟩

/-- One worker gains or loses the record. -/
theorem WorkersMove.insert {s : CoordinatorState} (h : Inv s) {e e' : TaskEntry} {id : String}
    {w w' : WorkerNode} (hw : s.workers[id]? = some w) (hid : w'.workerId = w.workerId)
    (hg : w'.generation = w.generation) (hc : w'.capacity = w.capacity)
    (hn : w'.currentTasks + (e.holds id).toNat = w.currentTasks + (e'.holds id).toNat)
    (hle : w'.currentTasks ≤ w'.capacity) (hh : ∀ x, x ≠ id → e.holds x = e'.holds x) :
    WorkersMove s.workers (s.workers.insert id w') e e' where
  size := size_insert_old w' hw
  back {x v} hv := by
    rw [get_insert] at hv
    split_ifs at hv with hx
    · cases hv
      subst hx
      exact ⟨w, hw, hid, hg, hc, hn, hle⟩
    · exact ⟨v, hv, rfl, rfl, rfl, by rw [hh x (Ne.symm hx)], (h.workers hv).2.2.1⟩
  forth {x v} hv := by
    rw [get_insert]
    split_ifs with hx
    · subst hx
      rw [hw] at hv
      cases hv
      exact ⟨w', rfl, hg⟩
    · exact ⟨v, hv, rfl⟩

/-- **A record changes.** The record of `id` becomes `e'`, its queue key and
its worker follow, and the invariant holds again. -/
theorem Inv.replace {s t : CoordinatorState} (h : Inv s) {id : String} {e e' : TaskEntry}
    (he : s.tasks[id]? = some e) (hlim : t.limits = s.limits)
    (htk : t.tasks = s.tasks.insert id e') (hrec : RecordOK id e')
    (hqueue : ∀ key, key ∈ t.queue ↔
      (key ∈ s.queue ∧ e.queueKey ≠ some key) ∨ e'.queueKey = some key)
    (hqsize : t.queue.size ≤ s.limits.maxQueuedTasks)
    (hwork : WorkersMove s.workers t.workers e e')
    (hholder : ∀ lease, e'.task.lease = some lease →
      ∃ w : WorkerNode, t.workers[lease.workerId]? = some w ∧ w.generation = lease.workerGeneration)
    (hact : t.activeTasks + e.isActive.toNat = s.activeTasks + e'.isActive.toNat)
    (hmono : e'.isActive = true → e.isActive = true)
    (hterm : t.terminalTasks + t.activeTasks = s.terminalTasks + s.activeTasks) : Inv t where
  records {x v} hv := by
    rw [htk, get_insert] at hv
    split_ifs at hv with hx
    · cases hv
      exact hx ▸ hrec
    · exact h.records hv
  queue key := by
    rw [hqueue, h.queue, htk]
    constructor
    · rintro (⟨⟨x, v, hv, hk⟩, hne⟩ | hk)
      · refine ⟨x, v, ?_, hk⟩
        rw [get_insert_ne _ fun hx => ?_]
        · exact hv
        · subst hx
          rw [he] at hv
          cases hv
          exact hne hk
      · exact ⟨id, e', get_insert_self _ _ _, hk⟩
    · rintro ⟨x, v, hv, hk⟩
      rw [get_insert] at hv
      split_ifs at hv with hx
      · cases hv
        exact Or.inr hk
      · exact Or.inl ⟨⟨x, v, hv, hk⟩, fun hk' => hx (h.key_unique he hv hk' hk)⟩
  holder {x v lease} hv hl := by
    rw [htk, get_insert] at hv
    split_ifs at hv with hx
    · cases hv
      exact hholder lease hl
    · obtain ⟨w, hw, hg⟩ := h.holder hv hl
      obtain ⟨w', hw', hg'⟩ := hwork.forth hw
      exact ⟨w', hw', hg'.trans hg⟩
  workers {x v} hv := by
    obtain ⟨w, hw, h1, -, h3, h4, h5⟩ := hwork.back hv
    obtain ⟨k1, k2, k3, k4⟩ := h.workers hw
    have hcnt := countOf_insert_old (fun _ e => e.holds x) e' he
    refine ⟨h1.trans k1, ?_, h5, h3 ▸ k4⟩
    unfold leaseCount at k2 ⊢
    rw [htk]
    omega
  active := by
    have hcnt := countOf_insert_old (fun _ e => e.isActive) e' he
    have := h.active
    rw [htk]
    omega
  terminal := by rw [hterm, h.terminal, htk, size_insert_old e' he]
  recordBound := by rw [htk, size_insert_old e' he, hlim]; exact h.recordBound
  activeBound := by
    have hb := h.activeBound
    rw [hlim]
    cases ha' : e'.isActive with
    | true =>
      rw [ha', hmono ha'] at hact
      simp only [Bool.toNat_true] at hact
      omega
    | false =>
      rw [ha'] at hact
      simp only [Bool.toNat_false] at hact
      omega
  queueBound := by rw [hlim]; exact hqsize
  terminalBound := by rw [hterm, hlim]; exact h.terminalBound
  workerBound := by rw [hwork.size, hlim]; exact h.workerBound

/-! ### One worker's record changes -/

/-- **A worker's record changes** in what the tasks do not depend on; a new
generation needs a worker that holds nothing. -/
theorem Inv.setWorker {s t : CoordinatorState} (h : Inv s) {id : String} (w' : WorkerNode)
    (ht : t = { s with workers := s.workers.insert id w' }) (hid : w'.workerId = id)
    (hcap : w'.currentTasks ≤ w'.capacity ∧ w'.capacity ≤ maxWorkerCapacity)
    (hold : ∀ w : WorkerNode, s.workers[id]? = some w → w'.currentTasks = w.currentTasks ∧
      (w'.generation = w.generation ∨ w.currentTasks = 0))
    (hnew : s.workers[id]? = none → w'.currentTasks = 0 ∧ s.workers.size < s.limits.maxWorkers) :
    Inv t := by
  subst ht
  refine
    { h with
      holder := fun {x e lease} he hl => ?_
      workers := fun {x v} hv => ?_
      workerBound := ?_ }
  · obtain ⟨w, hw, hg, hpos⟩ := h.worker_of_lease he hl
    show ∃ v : WorkerNode, (s.workers.insert id w')[lease.workerId]? = some v ∧ _
    rw [get_insert]
    split_ifs with hx
    · subst hx
      obtain ⟨-, hgen | h0⟩ := hold w hw
      · exact ⟨w', rfl, hgen.trans hg⟩
      · omega
    · exact ⟨w, hw, hg⟩
  · have hv' : (s.workers.insert id w')[x]? = some v := hv
    rw [get_insert] at hv'
    split_ifs at hv' with hx
    · cases hv'
      subst hx
      refine ⟨hid, ?_, hcap⟩
      show w'.currentTasks = leaseCount s id
      rcases hw : s.workers[id]? with _ | w
      · rw [(hnew hw).1]
        refine (countOf_eq_zero.mpr fun x e he => ?_).symm
        cases hl : e.task.lease with
        | none => exact holds_of_none hl id
        | some lease =>
          obtain ⟨w, hw', -⟩ := h.holder he hl
          rw [holds_of_lease hl]
          refine decide_eq_false fun hx => ?_
          rw [hx, hw] at hw'
          cases hw'
      · rw [(hold w hw).1, (h.workers hw).2.1]
    · exact h.workers hv'
  · show (s.workers.insert id w').size ≤ s.limits.maxWorkers
    rcases hw : s.workers[id]? with _ | w
    · rw [size_insert_new w' hw]
      exact (hnew hw).2
    · rw [size_insert_old w' hw]
      exact h.workerBound

end Termivar.Distributed
