/-
# The ledger of a run: the queue and the leases

A run is noted down in a ledger: the tasks in the order they were put on the
queue, by admission or after a failed attempt, and the tasks in the order they
were leased. `Noted` reads the ledger off the state: an attempt of a record is
a lease of its task, a retry is a return to the queue, and the ordinal of a
queue key is the place of the task's last entry in the ledger.
-/
import Termivar.Distributed.Safety

namespace Termivar.Distributed

open DistributedError Command List Option CoordinatorState

/-- The tasks put on the queue and the tasks leased, in order. -/
structure Ledger where
  put : List String := []
  leased : List String := []

namespace Ledger

def putting (g : Ledger) (ids : List String) : Ledger := { g with put := g.put ++ ids }

def leasing (g : Ledger) (id : String) : Ledger := { g with leased := g.leased ++ [id] }

/-- The place of the last entry of the task. -/
def LastPut (g : Ledger) (id : String) (i : Nat) : Prop :=
  g.put[i]? = some id ∧ ∀ j, i < j → g.put[j]? ≠ some id

end Ledger

/-- What the ledger says of one record. -/
structure Tracked (g : Ledger) (maxRetries : Nat) (id : String) (e : TaskEntry) : Prop where
  retries : e.task.retryCount ≤ maxRetries
  generation : e.task.taskGeneration = e.task.retryCount
  attempts : g.leased.count id = e.task.attempt
  queued : e.task.status = .queued → e.task.attempt = e.task.retryCount
  held : e.task.status = .leased ∨ e.task.status = .running →
    e.task.attempt = e.task.retryCount + 1
  ended : e.task.attempt ≤ e.task.retryCount + 1
  place : ∀ key, e.queueKey = some key → ∃ i, g.LastPut id i ∧
    key = QueueKey.new e.task.priority (i + 1) id
  exhausted : ∀ proof, e.failure = some proof → ∃ retryCount recordVersion,
    proof.outcome = .retryExhausted retryCount recordVersion

/-- The ledger of the run that reached the state. -/
structure Noted (g : Ledger) (s : CoordinatorState) : Prop where
  ordinals : s.nextEnqueueOrdinal = g.put.length + 1
  records : ∀ {id : String} {e : TaskEntry}, s.tasks[id]? = some e →
    Tracked g s.limits.maxRetries id e
  absent : ∀ {id : String}, s.tasks[id]? = none → g.leased.count id = 0

theorem noted_new (limits : DistributedLimits) : Noted {} (.new limits) where
  ordinals := rfl
  records h := by simp [new] at h
  absent _ := rfl

variable {g : Ledger} {s t : CoordinatorState} {id : String} {e e' : TaskEntry} {lease : TaskLease}
  {w : WorkerNode} {maxRetries : Nat}

/-! ### Writes -/

theorem Noted.frame (h : Noted g s) (hlims : t.limits = s.limits) (htk : t.tasks = s.tasks)
    (hordinal : t.nextEnqueueOrdinal = s.nextEnqueueOrdinal) : Noted g t where
  ordinals := hordinal.trans h.ordinals
  records he := by
    rw [htk] at he
    rw [hlims]
    exact h.records he
  absent he := by
    rw [htk] at he
    exact h.absent he

theorem Noted.committed (h : Noted g s) (revision nowSecs : Nat) :
    Noted g (s.committed revision nowSecs) := h.frame rfl rfl rfl

/-- The record of a task becomes another that the ledger agrees with. -/
theorem Noted.replace (h : Noted g s) (hlims : t.limits = s.limits)
    (htk : t.tasks = s.tasks.insert id e')
    (hordinal : t.nextEnqueueOrdinal = s.nextEnqueueOrdinal)
    (htrac : Tracked g s.limits.maxRetries id e') : Noted g t where
  ordinals := hordinal.trans h.ordinals
  records {x v} hv := by
    rw [htk, get_insert] at hv
    rw [hlims]
    split_ifs at hv with hx
    · cases hv
      exact hx ▸ htrac
    · exact h.records hv
  absent {x} hv := by
    rw [htk, get_insert] at hv
    split_ifs at hv with hx
    exact h.absent hv

/-- An entry for another task leaves what the ledger says of this one. -/
theorem Tracked.putting (h : Tracked g maxRetries id e) {other : String} (hne : other ≠ id) :
    Tracked (g.putting [other]) maxRetries id e := by
  refine { h with place := fun key hkey => ?_ }
  obtain ⟨i, ⟨hat, hlat⟩, hform⟩ := h.place key hkey
  refine ⟨i, ⟨?_, fun j hj hin => ?_⟩, hform⟩
  · have hi := (List.getElem?_eq_some_iff.mp hat).1
    rw [Ledger.putting, getElem?_append_left hi]
    exact hat
  · by_cases hlt : j < g.put.length
    · rw [Ledger.putting, getElem?_append_left hlt] at hin
      exact hlat j hj hin
    · rw [Ledger.putting, getElem?_append_right (by omega), getElem?_singleton] at hin
      split_ifs at hin
      exact hne (some.inj hin)

theorem Ledger.lastPut_putting (g : Ledger) (id : String) :
    (g.putting [id]).LastPut id g.put.length := by
  refine ⟨by simp [Ledger.putting], fun j hj => ?_⟩
  rw [Ledger.putting, getElem?_eq_none (by simp; omega)]
  nofun

/-- A task is put on the queue under the next ordinal. -/
theorem Noted.put (h : Noted g s) (hlims : t.limits = s.limits)
    (htk : t.tasks = s.tasks.insert id e')
    (hordinal : t.nextEnqueueOrdinal = s.nextEnqueueOrdinal + 1)
    (htrac : Tracked (g.putting [id]) s.limits.maxRetries id e') : Noted (g.putting [id]) t where
  ordinals := by
    rw [hordinal, h.ordinals]
    simp [Ledger.putting]
  records {x v} hv := by
    rw [htk, get_insert] at hv
    rw [hlims]
    split_ifs at hv with hx
    · cases hv
      exact hx ▸ htrac
    · exact (h.records hv).putting hx
  absent {x} hv := by
    rw [htk, get_insert] at hv
    split_ifs at hv with hx
    exact h.absent hv

theorem Tracked.leasing (h : Tracked g maxRetries id e) {other : String} (hne : other ≠ id) :
    Tracked (g.leasing other) maxRetries id e := by
  refine { h with attempts := ?_ }
  rw [Ledger.leasing, count_append, count_singleton, h.attempts]
  simp [hne]

/-- A task is leased. -/
theorem Noted.leasedOut (h : Noted g s) (hlims : t.limits = s.limits)
    (htk : t.tasks = s.tasks.insert id e')
    (hordinal : t.nextEnqueueOrdinal = s.nextEnqueueOrdinal)
    (htrac : Tracked (g.leasing id) s.limits.maxRetries id e') : Noted (g.leasing id) t where
  ordinals := hordinal.trans h.ordinals
  records {x v} hv := by
    rw [htk, get_insert] at hv
    rw [hlims]
    split_ifs at hv with hx
    · cases hv
      exact hx ▸ htrac
    · exact (h.records hv).leasing hx
  absent {x} hv := by
    rw [htk, get_insert] at hv
    split_ifs at hv with hx
    rw [Ledger.leasing, count_append, count_singleton, h.absent hv]
    simp [hx]

/-! ### Records -/

theorem Tracked.ended_as (h : Tracked g maxRetries id e) (hkey : e'.queueKey = none)
    (hrty : e'.task.retryCount = e.task.retryCount)
    (hgen : e'.task.taskGeneration = e.task.taskGeneration)
    (hatt : e'.task.attempt = e.task.attempt) (hstat : e'.task.status.isActive = false)
    (hfail : ∀ proof, e'.failure = some proof → e.failure = some proof ∨
      ∃ retryCount recordVersion, proof.outcome = .retryExhausted retryCount recordVersion) :
    Tracked g maxRetries id e' where
  retries := hrty ▸ h.retries
  generation := by rw [hgen, hrty, h.generation]
  attempts := hatt ▸ h.attempts
  queued hs := by rw [hs] at hstat; cases hstat
  held hs := by rcases hs with hs | hs <;> rw [hs] at hstat <;> cases hstat
  ended := by rw [hatt, hrty]; exact h.ended
  place key hk := by rw [hkey] at hk; cases hk
  exhausted proof hprf := by
    rcases hfail proof hprf with hold | hnew
    · exact h.exhausted proof hold
    · exact hnew

/-- A leased record goes back to the queue with one more retry. -/
theorem Tracked.requeued (h : Tracked g maxRetries id e) (hrec : RecordOK id e)
    (hl : e.task.lease = some lease) (hlt : e.task.retryCount < maxRetries) (recordVersion : Nat) :
    Tracked (g.putting [id]) maxRetries id
      (e.requeued (QueueKey.new e.task.priority (g.put.length + 1) id) (e.task.retryCount + 1)
        (e.task.taskGeneration + 1) recordVersion) where
  retries := hlt
  generation := congrArg (· + 1) h.generation
  attempts := h.attempts
  queued _ := h.held (hrec.status_of_lease hl)
  held hs := by rcases hs with hs | hs <;> cases hs
  ended := (h.held (hrec.status_of_lease hl)).le.trans (Nat.le_succ _)
  place key hk := by
    cases hk
    exact ⟨g.put.length, g.lastPut_putting id, rfl⟩
  exhausted := h.exhausted

/-! ### Commands -/

theorem wp_skip {α β : Type} {x : Except DistributedError α} {f : α → Coordinator β}
    {ok : β → CoordinatorState → Prop} (hf : ∀ a, wp (f a) ok (fun _ _ => True) True s) :
    wp (liftM x >>= f) ok (fun _ _ => True) True s := by
  rw [wp_bind, wp_lift]
  exact Checked.wp_of_forall hf fun _ => trivial

theorem enqueue_notes (h : Noted g s) (expectedRevision nowSecs : Nat) (spec : TaskSpec) :
    wp (enqueue expectedRevision nowSecs spec) (fun _ t => Noted (g.putting [spec.taskId]) t)
      (fun _ _ => True) True s := by
  refine wp_skip fun _ => ?_
  rw [wp_bind, wp_get]
  refine wp_skip fun revision => ?_
  simp only [wp_rules, wp_nextCounter, wp_commit, implies_true, true_and, and_true]
  intro hnew _ _ _ _ _
  refine Noted.committed ?_ _ _
  refine h.put rfl rfl rfl ?_
  exact
    { retries := Nat.zero_le _
      generation := rfl
      attempts := h.absent (get_of_not_contains hnew)
      queued := fun _ => rfl
      held := by rintro (hs | hs) <;> cases hs
      ended := Nat.zero_le _
      place := fun key hkey => by
        cases hkey
        exact ⟨g.put.length, g.lastPut_putting spec.taskId, by rw [h.ordinals]⟩
      exhausted := by simp }

theorem registerWorker_notes (h : Noted g s) (expectedRevision nowSecs : Nat) (spec : WorkerSpec) :
    wp (registerWorker expectedRevision nowSecs spec) (fun _ t => Noted g t) (fun _ _ => True) True
      s := by
  refine wp_skip fun _ => ?_
  rw [wp_bind, wp_get]
  refine wp_skip fun revision => ?_
  simp only [wp_rules, wp_commit, implies_true, true_and]
  intro _ _
  exact h.frame rfl rfl rfl

theorem reactivateWorker_notes (h : Noted g s) (expectedRevision nowSecs expectedGeneration : Nat)
    (spec : WorkerSpec) :
    wp (reactivateWorker expectedRevision nowSecs expectedGeneration spec) (fun _ t => Noted g t)
      (fun _ _ => True) True s := by
  refine wp_skip fun _ => ?_
  rw [wp_bind, wp_get]
  refine wp_skip fun revision => ?_
  refine wp_skip fun current => ?_
  simp only [wp_rules, wp_nextCounter, wp_commit, implies_true, true_and, and_true]
  intro _ _ _
  exact h.frame rfl rfl rfl

theorem updateWorkerObservation_notes (h : Noted g s) (expectedRevision nowSecs : Nat)
    (workerId : String) (workerGeneration : Nat) (observation : WorkerObservation) :
    wp (updateWorkerObservation expectedRevision nowSecs workerId workerGeneration observation)
      (fun _ t => Noted g t) (fun _ _ => True) True s := by
  refine wp_skip fun _ => ?_
  simp only [wp_bind, wp_ite, wp_throw, wp_get, implies_true, true_and]
  intro _ _
  rw [wp_lift]
  refine Checked.wp_of_forall (fun revision => ?_) fun _ => trivial
  simp only [wp_lift, Checked.wp_okOr, updateWorker, wp_bind, wp_get, wp_set, wp_pure, wp_commit,
    implies_true, and_true]
  intro _ _ _ _ _ _ _ _
  exact h.frame rfl rfl rfl

/-- What a lease says of the task and the worker it is for. -/
theorem prepareAssignment_leases (h : Inv s) (taskId workerId : String) (nowSecs leaseTtlSecs : Nat) :
    Checked.wp (prepareAssignment s taskId workerId nowSecs leaseTtlSecs)
      (fun lease => lease.taskId = taskId ∧ lease.workerId = workerId ∧
        ∃ e w, Assignable s lease e w ∧ lease.attempt = e.task.attempt + 1) (fun _ => True) := by
  have hspec := prepareAssignment_spec h taskId workerId nowSecs leaseTtlSecs
  have hls : Checked.wp (prepareAssignment s taskId workerId nowSecs leaseTtlSecs)
      (fun lease => lease.taskId = taskId ∧ lease.workerId = workerId ∧
        ∀ e, s.tasks[taskId]? = some e → lease.attempt = e.task.attempt + 1) (fun _ => True) := by
    simp only [prepareAssignment, Checked.wp_rules, wp_nextCounter, wp_nextU32, implies_true,
      true_and, and_true]
    intro _ _ e he _
    refine Checked.wp_of_forall (fun _ => ?_) fun _ => trivial
    intro w _ _ _ _ _ _ expiresAt _ _ e' he'
    rw [he] at he'
    cases he'
    rfl
  cases hres : prepareAssignment s taskId workerId nowSecs leaseTtlSecs with
  | error error => trivial
  | ok lease =>
    rw [hres] at hspec hls
    obtain ⟨htask, hworker, hatt⟩ := hls
    obtain ⟨e, w, ha⟩ := hspec
    exact ⟨htask, hworker, e, w, ha, hatt e (htask ▸ ha.record)⟩

theorem assign_notes (h : Inv s) (hg : Noted g s) (revision nowSecs : Nat) (taskId workerId : String)
    (leaseTtlSecs : Nat) :
    wp (assign s revision nowSecs taskId workerId leaseTtlSecs)
      (fun r t => Noted (g.leasing r.value.taskId) t ∧ r.value.taskId = taskId ∧
        r.value.workerId = workerId) (fun _ _ => True) True s := by
  unfold assign
  rw [wp_bind, wp_lift]
  refine Checked.wp_imp (prepareAssignment_leases h taskId workerId nowSecs leaseTtlSecs) ?_
  rintro lease ⟨htask, hworker, e, w, ha, hatt⟩
  obtain ⟨key, hkey, -⟩ := h.key_of_queued ha.record ha.queued
  have he := hg.records ha.record
  rw [wp_bind, wp_of_eq_ok (applyAssignment_eq h ha.record hkey ha.worker ha.version ha.tasks
    ha.leaseId.2)]
  simp only [wp_rules, wp_commit]
  refine ⟨Noted.committed ?_ _ _, htask, hworker⟩
  refine hg.leasedOut rfl rfl rfl ?_
  exact
    { he with
      attempts := by
        show (g.leased ++ [lease.taskId]).count lease.taskId = lease.attempt
        rw [count_append, he.attempts, hatt]
        simp
      queued := nofun
      held := fun _ => by
        show lease.attempt = e.task.retryCount + 1
        rw [hatt, he.queued ha.queued]
      ended := by
        show lease.attempt ≤ e.task.retryCount + 1
        rw [hatt, he.queued ha.queued]
      place := nofun }

theorem assignTask_notes (h : Inv s) (hg : Noted g s) (expectedRevision nowSecs : Nat)
    (taskId workerId : String) (leaseTtlSecs : Nat) :
    wp (assignTask expectedRevision nowSecs taskId workerId leaseTtlSecs)
      (fun r t => Noted (g.leasing r.value.taskId) t) (fun _ _ => True) True s := by
  refine wp_skip fun _ => wp_skip fun _ => ?_
  rw [wp_bind, wp_get]
  refine wp_skip fun revision => ?_
  exact wp_mono (assign_notes h hg _ _ _ _ _) (fun _ _ hr => hr.1) (fun _ _ _ => trivial) id

/-- The next task of the queue is leased to the worker. -/
theorem assignNext_notes (h : Inv s) (hg : Noted g s) (expectedRevision nowSecs : Nat)
    (workerId : String) (leaseTtlSecs : Nat) :
    wp (assignNext expectedRevision nowSecs workerId leaseTtlSecs)
      (fun r t => Noted (g.leasing r.value.taskId) t ∧ s.nextTaskId = some r.value.taskId)
      (fun _ _ => True) True s := by
  refine wp_skip fun _ => ?_
  rw [wp_bind, wp_get]
  refine wp_skip fun revision => ?_
  simp only [wp_rules, Checked.wp_okOr, implies_true, and_true]
  intro taskId hnext
  refine wp_mono (assign_notes h hg _ _ _ _ _) (fun r t hr => ?_) (fun _ _ _ => trivial) id
  exact ⟨hr.1, by rw [hr.2.1]; exact hnext⟩

/-- The next task of the queue is leased to the best worker. -/
theorem assignNextAvailable_notes (h : Inv s) (hg : Noted g s)
    (expectedRevision nowSecs leaseTtlSecs : Nat) :
    wp (assignNextAvailable expectedRevision nowSecs leaseTtlSecs)
      (fun r t => Noted (g.leasing r.value.taskId) t ∧ s.nextTaskId = some r.value.taskId ∧
        bestWorkerId s nowSecs = some r.value.workerId) (fun _ _ => True) True s := by
  unfold assignNextAvailable
  rw [wp_bind, wp_get]
  refine wp_skip fun revision => ?_
  simp only [wp_rules, Checked.wp_okOr, implies_true, and_true]
  intro taskId hnext workerId hbest
  refine wp_mono (assign_notes h hg _ _ _ _ _) (fun r t hr => ?_) (fun _ _ _ => trivial) id
  exact ⟨hr.1, by rw [hr.2.1]; exact hnext, by rw [hr.2.2]; exact hbest⟩

theorem startTask_notes (h : Inv s) (hg : Noted g s) (expectedRevision nowSecs : Nat)
    (lease : TaskLease) :
    wp (startTask expectedRevision nowSecs lease) (fun _ t => Noted g t) (fun _ _ => True) True s := by
  rw [startTask, wp_bind, wp_get]
  refine wp_skip fun revision => ?_
  simp only [wp_rules, Checked.wp_okOr, implies_true, and_true]
  intro e he
  refine Checked.wp_mono (ensureCurrentLease_spec e lease nowSecs) (fun _ hl => ?_) fun _ _ => trivial
  have hrec := h.records he
  have htrac := hg.records he
  simp only [wp_rules, Checked.wp_okOr, wp_nextCounter, updateTask, wp_commit, implies_true,
    true_and, and_true]
  refine ⟨fun _ => hg, fun _ _ _ e' he' => ?_⟩
  rw [he] at he'
  cases he'
  refine Noted.committed ?_ _ _
  refine hg.replace rfl rfl rfl ?_
  exact
    { htrac with
      queued := nofun
      held := fun _ => htrac.held (hrec.status_of_lease hl) }

theorem completeTask_notes (h : Inv s) (hg : Noted g s) (expectedRevision nowSecs : Nat)
    (lease : TaskLease) :
    wp (completeTask expectedRevision nowSecs lease) (fun _ t => Noted g t) (fun _ _ => True) True
      s := by
  rw [completeTask, wp_bind, wp_get]
  refine wp_skip fun revision => ?_
  simp only [wp_bind, wp_lift, Checked.wp_okOr, implies_true, and_true]
  intro e he
  rw [wp_ite]
  refine ⟨fun _ => wp_skip fun _ => hg, fun _ => ?_⟩
  rw [wp_bind, wp_lift]
  refine Checked.wp_mono (ensureCurrentLease_spec e lease nowSecs) (fun _ hl => ?_) fun _ _ => trivial
  obtain ⟨w, hto⟩ := h.leasedTo he hl
  simp only [wp_bind, wp_ite, wp_throw, wp_lift, wp_nextCounter, hto.preflight h, hto.worker,
    Checked.wp_okOr, Checked.wp_ok, some.injEq, implies_true, true_and, and_true]
  rintro - - _ rfl _ -
  rw [wp_of_eq_ok (terminalizeLeasedTask_eq h hto .completed rfl _ _)]
  simp only [updateTask, updateWorker, wp_bind, wp_get, wp_lift, Checked.wp_okOr, wp_set, wp_pure,
    wp_commit, endLeased, get_insert_self, some.injEq, reduceCtorEq,
    false_implies, and_true, forall_eq', insert_insert]
  refine Noted.committed ?_ _ _
  refine hg.replace rfl rfl rfl ?_
  have hkey := ((h.records he).leased ((h.records he).status_of_lease hl)).1
  exact (hg.records he).ended_as hkey rfl rfl rfl rfl fun _ hprf => .inl hprf

theorem cancelTask_notes (h : Inv s) (hg : Noted g s) (expectedRevision nowSecs : Nat)
    (ownership : TaskOwnership) :
    wp (cancelTask expectedRevision nowSecs ownership) (fun _ t => Noted g t) (fun _ _ => True) True
      s := by
  rw [cancelTask, wp_bind, wp_get]
  refine wp_skip fun revision => ?_
  simp only [wp_bind, wp_lift, Checked.wp_okOr, implies_true, and_true]
  intro e he
  rw [wp_ite]
  refine ⟨fun _ => wp_skip fun _ => hg, fun _ => ?_⟩
  have hrec := h.records he
  rw [wp_bind, wp_lift]
  refine Checked.wp_mono (validateCancellationOwnership_spec hrec ownership nowSecs) (fun _ hown => ?_)
    fun _ _ => trivial
  cases ownership with
  | queued fence =>
    replace hown := (ownership_eq_queued.mp hown).1
    obtain ⟨key, hkey, -⟩ := h.key_of_queued he hown
    simp only [wp_bind, wp_lift, wp_nextCounter, wp_pure,
      wp_of_eq_ok (terminalizeQueuedTask_eq h he hkey .cancelled rfl _ _), updateTask, wp_get,
      Checked.wp_okOr, wp_set, wp_commit, endQueued, get_insert_self,
      some.injEq, forall_eq', insert_insert, implies_true,
      and_true]
    intro _
    refine Noted.committed ?_ _ _
    refine hg.replace rfl rfl rfl ?_
    exact (hg.records he).ended_as rfl rfl rfl rfl rfl fun _ hprf => .inl hprf
  | leased lease =>
    replace hown := (ownership_eq_leased hrec).mp hown
    obtain ⟨w, hto⟩ := h.leasedTo he hown
    simp only [wp_bind, wp_lift, wp_nextCounter, wp_pure, hto.preflight h, Checked.wp_ok,
      wp_of_eq_ok (terminalizeLeasedTask_eq h hto .cancelled rfl _ _), updateTask, wp_get,
      Checked.wp_okOr, wp_set, wp_commit, TaskOwnership.taskId, endLeased,
      get_insert_self, some.injEq, forall_eq', insert_insert,
      implies_true, and_true]
    intro _
    refine Noted.committed ?_ _ _
    refine hg.replace rfl rfl rfl ?_
    have hkey := (hrec.leased (hrec.status_of_lease hown)).1
    exact (hg.records he).ended_as hkey rfl rfl rfl rfl fun _ hprf => .inl hprf

/-- The task goes back to the queue exactly when the outcome says so. -/
def FailureOutcome.puts (outcome : FailureOutcome) (id : String) : List String :=
  match outcome with
  | .requeued _ _ _ => [id]
  | .retryExhausted _ _ => []

@[simp] theorem Ledger.putting_nil (g : Ledger) : g.putting [] = g := by simp [Ledger.putting]

theorem failTask_notes (h : Inv s) (hg : Noted g s) (expectedRevision nowSecs : Nat)
    (lease : TaskLease) :
    wp (failTask expectedRevision nowSecs lease)
      (fun r t => Noted (g.putting (r.value.puts lease.taskId)) t) (fun _ _ => True) True s := by
  rw [failTask, wp_bind, wp_get]
  refine wp_skip fun revision => ?_
  simp only [wp_bind, wp_lift, Checked.wp_okOr, implies_true, and_true]
  intro e he
  have htrac := hg.records he
  rw [wp_ite]
  refine ⟨fun _ => ?_, fun _ => ?_⟩
  · simp only [wp_bind, wp_lift, Checked.wp_okOr, wp_pure, implies_true, and_true]
    intro proof hprf
    obtain ⟨retryCount, recordVersion, hout⟩ :=
      htrac.exhausted proof (filter_eq_some_iff.mp hprf).1
    rw [hout]
    simpa [FailureOutcome.puts] using hg
  · rw [wp_bind, wp_lift]
    refine Checked.wp_mono (ensureCurrentLease_spec e lease nowSecs) (fun _ hl => ?_)
      fun _ _ => trivial
    obtain ⟨w, hto⟩ := h.leasedTo he hl
    have hrec := h.records he
    simp only [wp_bind, wp_ite, wp_throw, wp_lift, wp_nextCounter, wp_nextU32, hto.preflight h,
      Checked.wp_ok, wp_pure, wp_of_eq_ok (requeueTask_eq h hto _ _ _ _ _),
      wp_of_eq_ok (terminalizeLeasedTask_eq h hto .failed rfl _ _), updateTask, wp_get,
      Checked.wp_okOr, wp_set, wp_commit, endLeased, get_insert_self,
      some.injEq, forall_eq', insert_insert, implies_true,
      true_and, and_true]
    refine fun _ _ => ⟨fun hlt _ _ _ _ => ?_, fun _ => ?_⟩
    · refine Noted.committed ?_ _ _
      refine hg.put rfl rfl rfl ?_
      rw [hg.ordinals]
      exact htrac.requeued hrec hl hlt _
    · rw [FailureOutcome.puts, Ledger.putting_nil]
      refine Noted.committed ?_ _ _
      refine hg.replace rfl rfl rfl ?_
      have hkey := (hrec.leased (hrec.status_of_lease hl)).1
      refine htrac.ended_as hkey rfl rfl rfl rfl fun proof hprf => .inr ?_
      cases hprf
      exact ⟨_, _, rfl⟩

/-! ### Recovery and expiry -/

theorem applyRecovery_notes (h : Inv s) (hg : Noted g s) (id : String) (nowSecs : Nat) :
    wp (applyRecovery id nowSecs) (fun _ t => Noted (g.putting ([id].filter (hasRetry s))) t)
      (fun _ _ => True) True s := by
  simp only [applyRecovery, wp_rules, Checked.wp_okOr, wp_nextCounter, wp_nextU32, implies_true,
    and_true]
  intro e he lease hl _
  obtain ⟨w, hto⟩ := h.leasedTo he hl
  have hrec := h.records he
  have hrty : hasRetry s id = decide (e.task.retryCount < s.limits.maxRetries) := by
    simp [hasRetry, he]
  obtain rfl := hto.taskId h
  refine ⟨fun hlt _ _ _ => ?_, fun hge => ?_⟩
  · rw [wp_of_eq_ok (requeueTask_eq h hto _ _ _ _ _), filter_cons_of_pos (by simp [hrty, hlt])]
    refine hg.put rfl rfl rfl ?_
    rw [hg.ordinals]
    exact (hg.records he).requeued hrec hl hlt _
  · rw [wp_of_eq_ok (terminalizeLeasedTask_eq h hto .failed rfl _ _),
      filter_cons_of_neg (by simpa [hrty] using hge), filter_nil, Ledger.putting_nil]
    refine hg.replace rfl rfl rfl ?_
    have hkey := (hrec.leased (hrec.status_of_lease hl)).1
    exact (hg.records he).ended_as hkey rfl rfl rfl rfl fun _ hprf => .inl hprf

theorem Ledger.putting_putting (g : Ledger) (ids ids' : List String) :
    (g.putting ids).putting ids' = g.putting (ids ++ ids') := by
  simp [Ledger.putting]

/-- The tasks with a retry left go back to the queue in the order of the list. -/
theorem recoverTasks_notes (nowSecs : Nat) : ∀ {ids : List String} {s : CoordinatorState} {g : Ledger}
    (r f : Nat), Inv s → RecoveryReady s ids → Noted g s →
    wp (recoverTasks nowSecs ids r f) (fun _ t => Noted (g.putting (ids.filter (hasRetry s))) t)
      (fun _ _ => True) True s
  | [], s, g, _, _, _, _, hg => by
    rw [filter_nil, Ledger.putting_nil]
    exact hg
  | id :: ids, s, g, r, f, h, hrdy, hg => by
    obtain ⟨e, lease, hrec⟩ := hrdy.tasks id mem_cons_self
    have hid := (nodup_cons.mp hrdy.nodup).1
    have hroom := hrdy.room
    have hord := hrdy.ordinals
    rw [countP_cons] at hroom hord
    have hbit : (if hasRetry s id = true then 1 else 0) = (hasRetry s id).toNat := by
      cases hasRetry s id <;> rfl
    rw [hbit] at hroom hord
    have hboth := wp_and (applyRecovery_spec h hrec (by omega) (by omega) nowSecs)
      (applyRecovery_notes h hg id nowSecs)
    simp only [recoverTasks, wp_bind]
    refine wp_mono hboth ?_ (fun _ _ he => he.1.elim) fun hp => hp.1.elim
    rintro disposition t ⟨hstep, hnoted⟩
    have hsame : ids.filter (hasRetry t) = ids.filter (hasRetry s) := by
      refine filter_congr fun x hx => ?_
      obtain ⟨e', ht, -⟩ := hstep.record
      rw [hasRetry, hasRetry, hstep.keeps.limits, ht, get_insert_ne]
      rintro rfl
      exact hid hx
    have hspl : (id :: ids).filter (hasRetry s) = [id].filter (hasRetry s) ++
        ids.filter (hasRetry s) := by
      rw [← filter_append, singleton_append]
    have hrest : ∀ r f, wp (recoverTasks nowSecs ids r f)
        (fun _ u => Noted (g.putting ((id :: ids).filter (hasRetry s))) u) (fun _ _ => True) True t := by
      intro r f
      have := recoverTasks_notes nowSecs r f hstep.inv (hrdy.next hstep) hnoted
      rwa [hsame, Ledger.putting_putting, ← hspl] at this
    cases disposition with
    | requeued => exact hrest (r + 1) f
    | failed => exact hrest r (f + 1)

/-- The checks before a recovery pass and the recovery is noted. -/
theorem recovery_notes (h : Inv s) (hg : Noted g s) (predicate : TaskLease → Bool) (nowSecs : Nat)
    {α : Type} {f : Nat × Nat → Coordinator α} {ok : α → CoordinatorState → Prop}
    (hf : ∀ counts t, Noted (g.putting ((leasedTaskIds s predicate).filter (hasRetry s))) t →
      wp (f counts) ok (fun _ _ => True) True t) :
    wp (do
      liftM (preflightRecovery s (leasedTaskIds s predicate))
      let counts ← recoverTasks nowSecs (leasedTaskIds s predicate) 0 0
      f counts) ok (fun _ _ => True) True s := by
  rw [wp_bind, wp_lift]
  refine Checked.wp_mono (recoveryReady_of_preflight h predicate) (fun _ hrdy => ?_)
    fun _ _ => trivial
  rw [wp_bind]
  exact wp_imp (recoverTasks_notes nowSecs 0 0 h hrdy hg) hf

theorem deregisterWorker_notes (h : Inv s) (hg : Noted g s) (expectedRevision nowSecs : Nat)
    (workerId : String) (workerGeneration : Nat) :
    wp (deregisterWorker expectedRevision nowSecs workerId workerGeneration)
      (fun _ t => Noted (g.putting ((leasedTaskIds s fun lease => lease.workerId = workerId).filter
        (hasRetry s))) t) (fun _ _ => True) True s := by
  refine wp_skip fun _ => ?_
  rw [wp_bind, wp_get]
  refine wp_skip fun revision => wp_skip fun w => ?_
  rw [wp_ite]
  refine ⟨fun _ => trivial, fun _ => ?_⟩
  rw [wp_ite]
  refine ⟨fun _ => trivial, fun _ => wp_skip fun generation => ?_⟩
  refine recovery_notes h hg _ nowSecs fun counts t ht => ?_
  simp only [wp_rules, Checked.wp_okOr, wp_commit, implies_true, true_and, and_true]
  intro _ _ _
  exact ht.frame rfl rfl rfl

theorem recoverExpiredLeases_notes (h : Inv s) (hg : Noted g s) (expectedRevision nowSecs : Nat) :
    wp (recoverExpiredLeases expectedRevision nowSecs)
      (fun _ t => Noted (g.putting ((leasedTaskIds s fun lease => lease.expiresAt ≤ nowSecs).filter
        (hasRetry s))) t) (fun _ _ => True) True s := by
  rw [recoverExpiredLeases, wp_bind, wp_get]
  refine wp_skip fun revision => ?_
  exact recovery_notes h hg _ nowSecs fun counts t ht => ht.committed _ _

theorem pruneWorkers_notes : ∀ {ids : List String} {s : CoordinatorState}, Noted g s →
    wp (pruneWorkers ids) (fun _ t => Noted g t) (fun _ _ => True) True s
  | [], s, hg => hg
  | id :: ids, s, hg => by
    simp only [pruneWorkers, pruneWorker, wp_rules, Checked.wp_okOr, wp_nextCounter, implies_true,
      true_and, and_true]
    intro _ _ _ _
    exact pruneWorkers_notes (hg.frame rfl rfl rfl)

theorem pruneDeadWorkers_notes (h : Inv s) (hg : Noted g s) (expectedRevision nowSecs : Nat) :
    wp (pruneDeadWorkers expectedRevision nowSecs)
      (fun _ t => Noted (g.putting ((leasedTaskIds s fun lease =>
        (deadWorkers s nowSecs).contains lease.workerId).filter (hasRetry s))) t)
      (fun _ _ => True) True s := by
  rw [pruneDeadWorkers, wp_bind, wp_get]
  refine wp_skip fun revision => wp_skip fun _ => ?_
  refine recovery_notes h hg _ nowSecs fun counts t ht => ?_
  rw [wp_bind]
  exact wp_imp (pruneWorkers_notes ht) (fun _ u hu => hu.committed _ _)

theorem expireTask_notes (h : Inv s) (hg : Noted g s) (nowSecs : Nat) (id : String) :
    wp (expireTask nowSecs id) (fun _ t => Noted g t) (fun _ _ => True) True s := by
  simp only [expireTask, wp_rules, Checked.wp_okOr, wp_nextCounter, implies_true, and_true]
  intro e he _
  have hrec := h.records he
  have hleased : ∀ {lease : TaskLease}, e.task.lease = some lease →
      wp (terminalizeLeasedTask lease .expired nowSecs (e.task.recordVersion + 1))
        (fun _ t => Noted g t) (fun _ _ => True) True s := by
    intro lease hl
    obtain ⟨w, hto⟩ := h.leasedTo he hl
    obtain rfl := hto.taskId h
    rw [wp_of_eq_ok (terminalizeLeasedTask_eq h hto .expired rfl _ _)]
    refine hg.replace rfl rfl rfl ?_
    have hkey := (hrec.leased (hrec.status_of_lease hl)).1
    exact (hg.records he).ended_as hkey rfl rfl rfl rfl fun _ hprf => .inl hprf
  cases hs : e.task.status with
  | queued =>
    obtain ⟨key, hkey, -⟩ := h.key_of_queued he hs
    show wp (terminalizeQueuedTask _ _ _ _) _ _ _ _
    rw [wp_of_eq_ok (terminalizeQueuedTask_eq h he hkey .expired rfl _ _)]
    refine hg.replace rfl rfl rfl ?_
    exact (hg.records he).ended_as rfl rfl rfl rfl rfl fun _ hprf => .inl hprf
  | leased =>
    obtain ⟨-, lease, hl, -⟩ := hrec.leased (Or.inl hs)
    simpa [hl] using hleased hl
  | running =>
    obtain ⟨-, lease, hl, -⟩ := hrec.leased (Or.inr hs)
    simpa [hl] using hleased hl
  | _ => exact hg

theorem expireTasks_notes (nowSecs : Nat) : ∀ {ids : List String} {s : CoordinatorState}, Inv s →
    ExpiryReady s ids → Noted g s →
    wp (expireTasks nowSecs ids) (fun _ t => Noted g t) (fun _ _ => True) True s
  | [], s, _, _, hg => hg
  | id :: ids, s, h, ⟨hnd, hrdy⟩, hg => by
    obtain ⟨e, hexp⟩ := hrdy id mem_cons_self
    obtain ⟨hid, hnd⟩ := nodup_cons.mp hnd
    simp only [expireTasks, wp_bind]
    refine wp_mono (wp_and (expireTask_spec h hexp nowSecs) (expireTask_notes h hg nowSecs id)) ?_
      (fun _ _ he => he.1.elim) fun hp => hp.1.elim
    rintro - t ⟨⟨ht, -, e', htk⟩, hnoted⟩
    refine expireTasks_notes nowSecs ht ⟨hnd, fun x hx => ?_⟩ hnoted
    obtain ⟨v, hv, hrest⟩ := hrdy x (mem_cons_of_mem _ hx)
    refine ⟨v, ?_, hrest⟩
    rw [htk, get_insert_ne]
    · exact hv
    · rintro rfl
      exact hid hx

theorem expireOldTasks_notes (h : Inv s) (hg : Noted g s) (expectedRevision nowSecs taskTtlSecs : Nat) :
    wp (expireOldTasks expectedRevision nowSecs taskTtlSecs) (fun _ t => Noted g t) (fun _ _ => True)
      True s := by
  unfold expireOldTasks
  rw [wp_ite]
  refine ⟨fun _ => trivial, fun _ => ?_⟩
  rw [wp_bind, wp_get]
  refine wp_skip fun revision => ?_
  rw [wp_ite]
  refine ⟨fun _ => trivial, fun _ => ?_⟩
  rw [wp_bind, wp_lift]
  refine Checked.wp_mono (preflightExpiry_each h nowSecs taskTtlSecs) (fun _ hrdy => ?_)
    fun _ _ => trivial
  rw [wp_bind]
  exact wp_imp (expireTasks_notes nowSecs h hrdy hg) (fun _ u hu => hu.committed _ _)

/-! ### Runs -/

/-- What a successful call puts on the queue, in order. -/
def putBy (s : CoordinatorState) : Request → Reply → List String
  | .enqueue _ _ spec, _ => [spec.taskId]
  | .failTask _ _ lease, .failure transition => transition.value.puts lease.taskId
  | .deregisterWorker _ _ workerId _, _ =>
    (leasedTaskIds s fun lease => lease.workerId = workerId).filter (hasRetry s)
  | .recoverExpiredLeases _ nowSecs, _ =>
    (leasedTaskIds s fun lease => lease.expiresAt ≤ nowSecs).filter (hasRetry s)
  | .pruneDeadWorkers _ nowSecs, _ =>
    (leasedTaskIds s fun lease => (deadWorkers s nowSecs).contains lease.workerId).filter (hasRetry s)
  | _, _ => []

/-- The task a reply leases. -/
def Reply.leasedTask : Reply → Option String
  | .lease transition => some transition.value.taskId
  | _ => none

/-- The ledger after a call. A call that fails is not noted. -/
def note (s : CoordinatorState) (request : Request) : Except DistributedError Reply → Ledger → Ledger
  | .ok reply, g => ⟨g.put ++ putBy s request reply, g.leased ++ reply.leasedTask.toList⟩
  | .error _, g => g

/-- **One command.** A successful call is noted as the request and the reply
say. -/
theorem exec_notes (h : Inv s) (hg : Noted g s) (request : Request) :
    wp (exec request) (fun reply t => Noted (note s request (.ok reply) g) t) (fun _ _ => True) True
      s := by
  have hqt : ∀ {t : CoordinatorState}, Noted g t → Noted ⟨g.put ++ [], g.leased ++ []⟩ t := by
    intro t ht
    simpa using ht
  have hput : ∀ {t : CoordinatorState} {ids : List String}, Noted (g.putting ids) t →
      Noted ⟨g.put ++ ids, g.leased ++ []⟩ t := by
    intro t ids ht
    simpa [Ledger.putting] using ht
  have hls : ∀ {t : CoordinatorState} {id : String}, Noted (g.leasing id) t →
      Noted ⟨g.put ++ [], g.leased ++ [id]⟩ t := by
    intro t id ht
    simpa [Ledger.leasing] using ht
  cases request with
  | enqueue =>
    exact (wp_map _ _).mpr (wp_imp (enqueue_notes hg _ _ _) (fun _ _ ht => hput ht))
  | registerWorker =>
    exact (wp_map _ _).mpr (wp_imp (registerWorker_notes hg _ _ _) (fun _ _ ht => hqt ht))
  | reactivateWorker =>
    exact (wp_map _ _).mpr (wp_imp (reactivateWorker_notes hg _ _ _ _) (fun _ _ ht => hqt ht))
  | updateWorker =>
    exact (wp_map _ _).mpr (wp_imp (updateWorkerObservation_notes hg _ _ _ _ _)
      (fun _ _ ht => hqt ht))
  | assignTask =>
    exact (wp_map _ _).mpr (wp_imp (assignTask_notes h hg _ _ _ _ _) (fun _ _ ht => hls ht))
  | assignNext =>
    exact (wp_map _ _).mpr (wp_imp (assignNext_notes h hg _ _ _ _) (fun _ _ ht => hls ht.1))
  | assignNextAvailable =>
    exact (wp_map _ _).mpr (wp_imp (assignNextAvailable_notes h hg _ _ _) (fun _ _ ht => hls ht.1))
  | startTask =>
    exact (wp_map _ _).mpr (wp_imp (startTask_notes h hg _ _ _) (fun _ _ ht => hqt ht))
  | completeTask =>
    exact (wp_map _ _).mpr (wp_imp (completeTask_notes h hg _ _ _) (fun _ _ ht => hqt ht))
  | cancelTask =>
    exact (wp_map _ _).mpr (wp_imp (cancelTask_notes h hg _ _ _) (fun _ _ ht => hqt ht))
  | failTask =>
    exact (wp_map _ _).mpr (wp_imp (failTask_notes h hg _ _ _) (fun _ _ ht => hput ht))
  | deregisterWorker =>
    exact (wp_map _ _).mpr (wp_imp (deregisterWorker_notes h hg _ _ _ _) (fun _ _ ht => hput ht))
  | recoverExpiredLeases =>
    exact (wp_map _ _).mpr (wp_imp (recoverExpiredLeases_notes h hg _ _) (fun _ _ ht => hput ht))
  | pruneDeadWorkers =>
    exact (wp_map _ _).mpr (wp_imp (pruneDeadWorkers_notes h hg _ _) (fun _ _ ht => hput ht))
  | expireOldTasks =>
    exact (wp_map _ _).mpr (wp_imp (expireOldTasks_notes h hg _ _ _) (fun _ _ ht => hqt ht))

/-- A command keeps the invariant, the limits and the ledger. -/
theorem exec_keeps (h : Inv s) (hg : Noted g s) (request : Request) :
    wp (exec request)
      (fun reply t => Inv t ∧ t.limits = s.limits ∧ Noted (note s request (.ok reply) g) t)
      (fun e t => Inv t ∧ t.limits = s.limits ∧ Noted (note s request (.error e) g) t) False s := by
  refine wp_mono (wp_and (exec_spec h request) (exec_notes h hg request)) ?_ ?_ fun hp => hp.1
  · rintro reply t ⟨hstep, hnoted⟩
    exact ⟨hstep.inv, hstep.limits, hnoted⟩
  · rintro e t ⟨⟨rfl, -⟩, -⟩
    exact ⟨h, rfl, hg⟩

variable {limits : DistributedLimits} {s₀ : CoordinatorState}

/-- The tasks a run leased, in order. -/
def leasedTasks (trace : Trace) : List String := (replies trace).filterMap Reply.leasedTask

/-- **Attempts are bounded.** In every reachable state a record has at most
`max_retries` retries, its generation is its retries, and its attempts are its
retries, or one more while it is held; so no run leases a task more than
`max_retries + 1` times. -/
theorem attempts_bounded (h₀ : withLimits limits = .ok s₀) {requests : List Request} {trace : Trace}
    (hrun : runFrom s₀ requests = some (trace, s)) :
    (∀ (id : String) (e : TaskEntry), s.tasks[id]? = some e →
      e.task.retryCount ≤ limits.maxRetries ∧ e.task.taskGeneration = e.task.retryCount ∧
      (e.task.status = .queued → e.task.attempt = e.task.retryCount) ∧
      (e.task.status = .leased ∨ e.task.status = .running →
        e.task.attempt = e.task.retryCount + 1) ∧
      (e.task.status.isActive = false → e.task.attempt ≤ e.task.retryCount + 1)) ∧
    ∀ id, (leasedTasks trace).count id ≤ limits.maxRetries + 1 := by
  obtain ⟨hinv, rfl⟩ := inv_of_withLimits h₀
  have hend : Inv s ∧ s.limits = limits ∧ ∃ put, Noted ⟨put, leasedTasks trace⟩ s := by
    refine run_history (J := fun past s => Inv s ∧ s.limits = limits ∧
      ∃ put, Noted ⟨put, leasedTasks past⟩ s) ?_ [] ⟨hinv, rfl, [], noted_new limits⟩ hrun
    rintro past s request r t ⟨hs, hlims, put, hg⟩ hrep
    obtain ⟨hok, herr, -⟩ := wp_iff_reply.mp (exec_keeps hs hg request)
    cases r with
    | ok reply =>
      obtain ⟨ht, hsame, hnoted⟩ := hok reply t hrep
      refine ⟨ht, hsame.trans hlims, put ++ putBy s request reply, ?_⟩
      have hleased : leasedTasks (past ++ [(request, .ok reply)]) =
          leasedTasks past ++ reply.leasedTask.toList := by
        rw [leasedTasks, replies_snoc, List.filterMap_append]
        cases htask : reply.leasedTask <;> simp [leasedTasks, Except.toOption, htask]
      rw [hleased]
      exact hnoted
    | error e =>
      obtain ⟨ht, hsame, hnoted⟩ := herr e t hrep
      refine ⟨ht, hsame.trans hlims, put, ?_⟩
      have hleased : leasedTasks (past ++ [(request, .error e)]) = leasedTasks past := by
        rw [leasedTasks, replies_snoc]
        simp [leasedTasks, Except.toOption]
      rw [hleased]
      exact hnoted
  obtain ⟨-, rfl, put, hg⟩ := hend
  refine ⟨fun id e he => ?_, fun id => ?_⟩
  · have h := hg.records he
    exact ⟨h.retries, h.generation, h.queued, h.held, fun _ => h.ended⟩
  · rcases he : s.tasks[id]? with _ | e
    · have hnone : (leasedTasks trace).count id = 0 := hg.absent he
      omega
    · have h := hg.records he
      have hattem : (leasedTasks trace).count id = e.task.attempt := h.attempts
      have hretr := h.retries
      have hended := h.ended
      omega

/-- The one task of the run was leased once. -/
theorem attempts_bounded_oneTask : ∃ trace s, runFrom (.new {}) oneTask = some (trace, s) ∧
    (leasedTasks trace).count "task" = 1 ∧ (leasedTasks trace).count "task" ≤ 4 := by
  obtain ⟨⟨trace, s⟩, hrun⟩ : ∃ q, runFrom (.new {}) oneTask = some q :=
    Option.isSome_iff_exists.mp (by decide +kernel)
  refine ⟨trace, s, hrun, ?_, (attempts_bounded withLimits_default hrun).2 "task"⟩
  have heval : (runFrom (.new {}) oneTask).map (fun q => (leasedTasks q.1).count "task") = some 1 := by
    decide +kernel
  rw [hrun] at heval
  simpa using heval

end Termivar.Distributed
