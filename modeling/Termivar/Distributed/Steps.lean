/-
# What each command does

One specification per command of the coordinator: from a state with the
invariant it does not panic; when it fails, the state is as it was and the
failure is not a contradiction in the state (`Failed`); when it returns, the
invariant holds, ended records are as they were, a lease issued has a new id,
and the receipts and the workers' counts of completed tasks change by exactly
what the reply says (`Step`).
-/
import Termivar.Distributed.Recovery

namespace Termivar.Distributed

open DistributedError Command Option CoordinatorState

/-! ### Replies -/

/-- The id of the lease a reply issues. -/
def Reply.issued : Reply → Option Nat
  | .lease transition => some transition.value.leaseId
  | _ => none

/-- The receipt of the task a reply completes. -/
def Reply.completed : Reply → Option CompletionReceipt
  | .completion ⟨_, .completed receipt⟩ => some receipt
  | _ => none

/-- The receipt a reply repeats. -/
def Reply.repeated : Reply → Option CompletionReceipt
  | .completion ⟨_, .alreadyCompleted receipt⟩ => some receipt
  | _ => none

/-- The receipts and the counts after a reply that completes `completed`. -/
def Booked (s t : CoordinatorState) : Option CompletionReceipt → Prop
  | none => (∀ id, completionOf t id = completionOf s id) ∧
      ∀ w, completedBy t w = completedBy s w
  | some receipt => completionOf s receipt.taskId = none ∧
      (∀ id, completionOf t id =
        if receipt.taskId = id then some receipt else completionOf s id) ∧
      ∀ w, completedBy t w = completedBy s w + if receipt.workerId = w then 1 else 0

/-- A command from `s` that returns `r` and leaves `t`. -/
structure Step (s : CoordinatorState) (r : Reply) (t : CoordinatorState) : Prop where
  inv : Inv t
  limits : t.limits = s.limits
  ended : ∀ {id : String} {e : TaskEntry}, s.tasks[id]? = some e → e.isActive = false →
    t.tasks[id]? = some e
  leaseId : s.nextLeaseId ≤ t.nextLeaseId
  issued : ∀ n, r.issued = some n → n = s.nextLeaseId ∧ n < t.nextLeaseId
  books : Booked s t r.completed
  repeated : ∀ receipt, r.repeated = some receipt → completionOf s receipt.taskId = some receipt

/-- A command from `s` that fails with `e` and leaves `t`. -/
def Failed (s : CoordinatorState) (e : DistributedError) (t : CoordinatorState) : Prop :=
  t = s ∧ ¬ e.IsStateInvariant

variable {s t : CoordinatorState}

theorem failed_self {e : DistributedError} : Failed s e s ↔ ¬ e.IsStateInvariant := by
  simp [Failed]

/-- A command that issues no lease and completes no task. -/
theorem Step.quiet {r : Reply} (ht : Inv t) (hk : Keeps s t) (hi : r.issued = none)
    (hc : r.completed = none) (hr : r.repeated = none) : Step s r t where
  inv := ht
  limits := hk.limits
  ended := hk.ended
  leaseId := hk.leaseId
  issued n hn := by rw [hi] at hn; cases hn
  books := by rw [hc]; exact ⟨hk.completion, hk.completed⟩
  repeated receipt hr' := by rw [hr] at hr'; cases hr'

theorem wp_commit {ok : Unit → CoordinatorState → Prop} {err : DistributedError → CoordinatorState → Prop}
    {pan : Prop} (revision nowSecs : Nat) :
    wp (commit revision nowSecs) ok err pan s ↔ ok () (s.committed revision nowSecs) :=
  Iff.rfl

theorem Step.quiet_committed {r : Reply} (ht : Inv t) (hk : Keeps s t) (hi : r.issued = none)
    (hc : r.completed = none) (hr : r.repeated = none) {revision nowSecs : Nat} :
    Step s r (t.committed revision nowSecs) :=
  Step.quiet (ht.committed _ _) (hk.trans (Keeps.committed _ _ _)) hi hc hr

variable {lease : TaskLease} {e : TaskEntry} {id : String} {α β : Type}
  {ok : β → CoordinatorState → Prop} {w : WorkerNode}

/-- A check before the first write. -/
theorem wp_lift_check {x : Except DistributedError α} {P : α → Prop}
    {ok : α → CoordinatorState → Prop} (hx : Checked.wp x P fun e => ¬ e.IsStateInvariant)
    (hf : ∀ a, P a → ok a s) : wp (liftM x) ok (Failed s) False s := by
  rw [wp_lift]
  exact Checked.wp_mono hx hf fun e he => ⟨rfl, he⟩

theorem wp_check {x : Except DistributedError α} {f : α → Coordinator β}
    {P : α → Prop} (hx : Checked.wp x P fun e => ¬ e.IsStateInvariant)
    (hf : ∀ a, P a → wp (f a) ok (Failed s) False s) :
    wp (liftM x >>= f) ok (Failed s) False s := by
  rw [wp_bind]
  exact wp_lift_check hx hf

theorem wp_guard {c : Prop} [Decidable c] {e : DistributedError}
    {f : PUnit → Coordinator β} {g : Coordinator β} (he : ¬ e.IsStateInvariant)
    (hg : ¬ c → wp g ok (Failed s) False s) :
    wp (if c then throw e >>= f else g) ok (Failed s) False s := by
  rw [wp_ite]
  exact ⟨fun _ => ⟨rfl, he⟩, hg⟩

/-- What cannot fail, after the checks. -/
theorem wp_write {x : Coordinator α} {f : α → Coordinator β}
    {Q : α → CoordinatorState → Prop} (hx : wp x Q (fun _ _ => False) False t)
    (hf : ∀ a u, Q a u → wp (f a) ok (Failed s) False u) :
    wp (x >>= f) ok (Failed s) False t := by
  rw [wp_bind]
  exact wp_mono hx hf (fun _ _ he => he.elim) fun hp => hp

theorem preflightCommand_spec (expectedRevision nowSecs : Nat) :
    Checked.wp (s.preflightCommand expectedRevision nowSecs)
      (fun revision => revision = s.revision + 1) (fun e => ¬ e.IsStateInvariant) := by
  simp only [preflightCommand, Checked.wp_rules, checkedAdd_eq_some, IsStateInvariant]
  simp

/-! ### Tasks and workers -/

theorem validateIdentifier_spec (value field : String) :
    Checked.wp (validateIdentifier value field) (fun _ => True) (fun e => ¬ e.IsStateInvariant) := by
  simp [validateIdentifier, IsStateInvariant]

theorem validateTaskSpec_spec (spec : TaskSpec) :
    Checked.wp (validateTaskSpec spec) (fun _ => True) (fun e => ¬ e.IsStateInvariant) := by
  simp only [validateTaskSpec, Checked.wp_bind]
  refine Checked.wp_imp (validateIdentifier_spec _ _) fun _ _ => ?_
  refine Checked.wp_imp (validateIdentifier_spec _ _) fun _ _ => ?_
  simp [IsStateInvariant]

theorem validateWorkerSpec_spec (spec : WorkerSpec) :
    Checked.wp (validateWorkerSpec spec) (fun _ => spec.capacity ≤ maxWorkerCapacity)
      (fun e => ¬ e.IsStateInvariant) := by
  simp only [validateWorkerSpec, Checked.wp_bind]
  cases validateIdentifier spec.workerId "worker_id" with
  | ok _ =>
    simp only [Except.mapError, Checked.wp_rules, IsStateInvariant, not_false_eq_true, implies_true,
      true_and, Nat.not_lt]
    exact fun _ hcap _ _ => hcap
  | error _ => simp [Except.mapError, IsStateInvariant]

theorem validateTaskCommandId_spec (value : String) :
    Checked.wp (validateTaskCommandId value) (fun _ => True) (fun e => ¬ e.IsStateInvariant) := by
  simp [validateTaskCommandId, IsStateInvariant]

theorem validateWorkerCommandId_spec (value : String) :
    Checked.wp (validateWorkerCommandId value) (fun _ => True) (fun e => ¬ e.IsStateInvariant) := by
  simp [validateWorkerCommandId, IsStateInvariant]

theorem enqueue_spec (h : Inv s) (expectedRevision nowSecs : Nat) (spec : TaskSpec) :
    wp (enqueue expectedRevision nowSecs spec) (fun r t => Step s (.task r) t) (Failed s)
      False s := by
  refine wp_check (validateTaskSpec_spec spec) fun _ _ => ?_
  rw [wp_bind, wp_get]
  refine wp_check (preflightCommand_spec _ _) fun revision _ => ?_
  simp only [wp_rules, wp_nextCounter, wp_commit, failed_self, IsStateInvariant,
    not_false_eq_true, implies_true, true_and, and_true, Nat.not_le, Nat.not_lt]
  intro hnew hrecs hact hroom hres _
  have hnone := get_of_not_contains hnew
  refine Step.quiet_committed (h.admitted hnone ?_ rfl hrecs hact hroom hres _)
    (Keeps.admitted hnone rfl _) rfl rfl rfl
  exact
    { taskId := rfl
      version := Nat.one_ne_zero
      queued := fun _ => ⟨rfl, rfl, _, rfl, rfl⟩
      leased := by rintro (hs | hs) <;> cases hs
      ended := by intros; contradiction
      completion := by simp
      receipt := by simp }

theorem registerWorker_spec (h : Inv s) (expectedRevision nowSecs : Nat) (spec : WorkerSpec) :
    wp (registerWorker expectedRevision nowSecs spec) (fun r t => Step s (.worker r) t)
      (Failed s) False s := by
  refine wp_check (validateWorkerSpec_spec spec) fun _ hcap => ?_
  rw [wp_bind, wp_get]
  refine wp_check (preflightCommand_spec _ _) fun revision _ => ?_
  simp only [wp_rules, wp_commit, failed_self, IsStateInvariant, not_false_eq_true,
    implies_true, true_and, Nat.not_le]
  intro hnew hroom
  have hnone := get_of_not_contains hnew
  refine Step.quiet_committed (h.setWorker _ rfl rfl ⟨Nat.zero_le _, hcap⟩ (fun w hw => ?_)
    fun _ => ⟨rfl, hroom⟩) (Keeps.setWorker rfl ?_) rfl rfl rfl
  · have hw' : s.workers[spec.workerId]? = some w := hw
    rw [hnone] at hw'
    cases hw'
  · show completedBy s spec.workerId = 0
    rw [completedBy, hnone]
    rfl

theorem reactivateWorker_spec (h : Inv s) (expectedRevision nowSecs expectedGeneration : Nat)
    (spec : WorkerSpec) :
    wp (reactivateWorker expectedRevision nowSecs expectedGeneration spec)
      (fun r t => Step s (.worker r) t) (Failed s) False s := by
  refine wp_check (validateWorkerSpec_spec spec) fun _ hcap => ?_
  rw [wp_bind, wp_get]
  refine wp_check (preflightCommand_spec _ _) fun revision _ => ?_
  simp only [wp_rules, Checked.wp_okOr, wp_nextCounter, wp_commit, failed_self,
    IsStateInvariant, not_false_eq_true, implies_true, true_and, and_true, not_or, not_not]
  rintro current hcurr - ⟨-, hidle⟩ -
  refine Step.quiet_committed (h.setWorker _ rfl rfl ⟨Nat.zero_le _, hcap⟩ (fun w hw => ?_)
    fun hnone => ?_) (Keeps.setWorker rfl ?_) rfl rfl rfl
  · have hw' : s.workers[spec.workerId]? = some w := hw
    rw [hcurr] at hw'
    cases hw'
    exact ⟨hidle.symm, Or.inr hidle⟩
  · have hnone' : s.workers[spec.workerId]? = none := hnone
    rw [hcurr] at hnone'
    cases hnone'
  · show completedBy s spec.workerId = current.completedTasks
    rw [completedBy, hcurr]
    rfl

theorem updateWorkerObservation_spec (h : Inv s) (expectedRevision nowSecs : Nat) (workerId : String)
    (workerGeneration : Nat) (observation : WorkerObservation) :
    wp (updateWorkerObservation expectedRevision nowSecs workerId workerGeneration observation)
      (fun r t => Step s (.worker r) t) (Failed s) False s := by
  refine wp_check (validateWorkerCommandId_spec workerId) fun _ _ => ?_
  simp only [wp_bind, wp_ite, wp_throw, wp_get, failed_self,
    IsStateInvariant, not_false_eq_true, implies_true, true_and]
  intro _ _
  refine wp_lift_check (preflightCommand_spec _ _) fun revision _ => ?_
  simp only [wp_bind, wp_get, wp_lift, Checked.wp_okOr, updateWorker,
    wp_set, wp_pure, wp_commit, failed_self, IsStateInvariant, not_false_eq_true,
    implies_true, true_and, and_true]
  intro current hcurr _ _
  refine ⟨fun w hw => ⟨fun w' hw' => ?_, fun hnone => ?_⟩, fun hnone => ?_⟩
  · obtain ⟨hid, -, hw3⟩ := h.workers hw
    refine Step.quiet_committed (h.setWorker (w.observed observation nowSecs) rfl hid hw3
      (fun v hv => ?_) fun hnone => ?_) (Keeps.setWorker rfl ?_) rfl rfl rfl
    · rw [hw] at hv
      cases hv
      exact ⟨rfl, Or.inl rfl⟩
    · rw [hw] at hnone
      cases hnone
    · rw [completedBy, hw]
      rfl
  · rw [get_insert_self] at hnone
    cases hnone
  · rw [hcurr] at hnone
    cases hnone

/-! ### Assignment -/

theorem WorkerNode.effectiveCapacity_le (w : WorkerNode) : w.effectiveCapacity ≤ w.capacity := by
  unfold effectiveCapacity
  split_ifs
  · exact Nat.zero_le _
  · refine (ceilDiv_le_iff_le_mul (by decide)).mpr ?_
    rw [Nat.mul_comm]
    exact Nat.mul_le_mul_right _ (Nat.sub_le _ _)

/-- What a lease that may be applied says of the task and the worker. -/
structure Assignable (s : CoordinatorState) (lease : TaskLease) (e : TaskEntry) (w : WorkerNode) :
    Prop where
  record : s.tasks[lease.taskId]? = some e
  queued : e.task.status = .queued
  generation : e.task.taskGeneration = lease.taskGeneration
  worker : s.workers[lease.workerId]? = some w
  workerGeneration : w.generation = lease.workerGeneration
  room : w.currentTasks < w.capacity
  version : e.task.recordVersion < u64Max
  tasks : w.currentTasks < u32Max
  leaseId : lease.leaseId = s.nextLeaseId ∧ s.nextLeaseId < u64Max

theorem prepareAssignment_spec (h : Inv s) (taskId workerId : String) (nowSecs leaseTtlSecs : Nat) :
    Checked.wp (prepareAssignment s taskId workerId nowSecs leaseTtlSecs)
      (fun lease => ∃ e w, Assignable s lease e w) (fun e => ¬ e.IsStateInvariant) := by
  simp only [prepareAssignment, Checked.wp_rules, wp_nextCounter, wp_nextU32, checkedAdd_eq_some,
    IsStateInvariant, not_false_eq_true, implies_true, true_and, and_true, not_not]
  intro _ _ e he hq
  rw [h.ensureQueueEntry_eq he hq, Checked.wp_ok]
  rintro w hw - hslots hn - hv expiresAt - hid
  have hroom : w.currentTasks < w.capacity := by
    have := w.effectiveCapacity_le
    unfold WorkerNode.availableSlots at hslots
    omega
  exact ⟨e, w, he, hq, rfl, hw, rfl, hroom, hv, hn, rfl, hid⟩

theorem assign_spec (h : Inv s) (revision nowSecs : Nat) (taskId workerId : String)
    (leaseTtlSecs : Nat) :
    wp (assign s revision nowSecs taskId workerId leaseTtlSecs)
      (fun r t => Step s (.lease r) t) (Failed s) False s := by
  refine wp_check (prepareAssignment_spec h taskId workerId nowSecs leaseTtlSecs) ?_
  rintro lease ⟨e, w, ha⟩
  obtain ⟨key, hkey, -⟩ := h.key_of_queued ha.record ha.queued
  have hrec := (h.records ha.record).assigned ha.queued rfl ha.generation e.task.recordVersion
  have hinv := h.leaseOut ha.record hkey ha.worker ha.workerGeneration ha.room hrec rfl
  have hkeep : Keeps s (s.leaseOut key lease w (e.assigned lease (e.task.recordVersion + 1))) :=
    Keeps.leaseOut h ha.record hkey ha.worker (by rfl)
  rw [wp_bind, wp_of_eq_ok (applyAssignment_eq h ha.record hkey ha.worker
    ha.version ha.tasks ha.leaseId.2)]
  simp only [wp_rules, wp_commit]
  refine
    { inv := hinv.committed _ _
      limits := rfl
      ended := hkeep.ended
      leaseId := hkeep.leaseId
      issued := fun n hn => ?_
      books := ⟨hkeep.completion, hkeep.completed⟩
      repeated := nofun }
  cases hn
  exact ⟨ha.leaseId.1, by rw [ha.leaseId.1]; exact Nat.lt_succ_self _⟩

theorem assignTask_spec (h : Inv s) (expectedRevision nowSecs : Nat) (taskId workerId : String)
    (leaseTtlSecs : Nat) :
    wp (assignTask expectedRevision nowSecs taskId workerId leaseTtlSecs)
      (fun r t => Step s (.lease r) t) (Failed s) False s := by
  refine wp_check (validateTaskCommandId_spec taskId) fun _ _ => ?_
  refine wp_check (validateWorkerCommandId_spec workerId) fun _ _ => ?_
  rw [wp_bind, wp_get]
  exact wp_check (preflightCommand_spec _ _) fun revision _ => assign_spec h _ _ _ _ _

theorem nextCounter_spec (v : Nat) (c : String) :
    Checked.wp (nextCounter v c) (fun _ => True) (fun e => ¬ e.IsStateInvariant) := by
  simp [IsStateInvariant]

theorem okOr_spec (o : Option α) {e : DistributedError} (he : ¬ e.IsStateInvariant) :
    Checked.wp (okOr o e) (fun a => o = some a) (fun e => ¬ e.IsStateInvariant) := by
  rw [Checked.wp_okOr]
  exact ⟨fun _ ha => ha, fun _ => he⟩

theorem assignNext_spec (h : Inv s) (expectedRevision nowSecs : Nat) (workerId : String)
    (leaseTtlSecs : Nat) :
    wp (assignNext expectedRevision nowSecs workerId leaseTtlSecs)
      (fun r t => Step s (.lease r) t) (Failed s) False s := by
  refine wp_check (validateWorkerCommandId_spec workerId) fun _ _ => ?_
  rw [wp_bind, wp_get]
  refine wp_check (preflightCommand_spec _ _) fun revision _ => ?_
  exact wp_check (okOr_spec _ not_false) fun taskId _ => assign_spec h _ _ _ _ _

theorem assignNextAvailable_spec (h : Inv s) (expectedRevision nowSecs leaseTtlSecs : Nat) :
    wp (assignNextAvailable expectedRevision nowSecs leaseTtlSecs)
      (fun r t => Step s (.lease r) t) (Failed s) False s := by
  rw [assignNextAvailable, wp_bind, wp_get]
  refine wp_check (preflightCommand_spec _ _) fun revision _ => ?_
  refine wp_check (okOr_spec _ not_false) fun taskId _ => ?_
  exact wp_check (okOr_spec _ not_false) fun workerId _ => assign_spec h _ _ _ _ _

/-! ### Owned tasks -/

/-- The token is the lease of the record. -/
theorem ensureCurrentLease_spec (e : TaskEntry) (lease : TaskLease) (nowSecs : Nat) :
    Checked.wp (ensureCurrentLease e lease nowSecs) (fun _ => e.task.lease = some lease)
      (fun e => ¬ e.IsStateInvariant) := by
  simp only [ensureCurrentLease, Checked.wp_rules, IsStateInvariant, not_false_eq_true,
    implies_true, true_and, not_or, not_not]
  rintro ⟨hl, -⟩ -
  exact hl

theorem startTask_spec (h : Inv s) (expectedRevision nowSecs : Nat) (lease : TaskLease) :
    wp (startTask expectedRevision nowSecs lease) (fun r t => Step s (.start r) t) (Failed s)
      False s := by
  rw [startTask, wp_bind, wp_get]
  refine wp_check (preflightCommand_spec _ _) fun revision _ => ?_
  refine wp_check (okOr_spec _ not_false) fun e he => ?_
  refine wp_check (ensureCurrentLease_spec e lease nowSecs) fun _ hl => ?_
  obtain ⟨w, hto⟩ := h.leasedTo he hl
  have hrec := (h.records he).started hl nowSecs e.task.recordVersion
  simp only [wp_rules, Checked.wp_okOr, wp_nextCounter, updateTask, wp_commit, failed_self,
    IsStateInvariant, not_false_eq_true, implies_true, true_and, and_true]
  refine ⟨fun _ => Step.quiet h (Keeps.refl s) rfl rfl rfl, fun _ _ _ => ⟨fun e' he' => ?_, ?_⟩⟩
  · rw [he] at he'
    cases he'
    exact Step.quiet_committed (h.restart hto hrec hl)
      (Keeps.replace he (hto.isActive h) rfl rfl rfl (fun _ => rfl) le_rfl) rfl rfl rfl
  · rw [he]
    simp

/-- The books after the leased task of `receipt` ends as completed. -/
theorem Booked.completed {e e' : TaskEntry} {receipt : CompletionReceipt}
    {w w' : WorkerNode} (he : s.tasks[id]? = some e) (hnone : e.completion = none)
    (ht : t.tasks = s.tasks.insert id e') (hc : e'.completion = some receipt)
    (hid : receipt.taskId = id) (hw : s.workers[receipt.workerId]? = some w)
    (hws : t.workers = s.workers.insert receipt.workerId w')
    (hn : w'.completedTasks = w.completedTasks + 1) : Booked s t (some receipt) := by
  subst hid
  refine ⟨?_, fun x => ?_, fun x => ?_⟩
  · rw [completionOf, he]
    exact hnone
  · rw [completionOf, ht, get_insert]
    split_ifs with hx
    · exact hc
    · rfl
  · rw [completedBy, completedBy, hws, get_insert]
    split_ifs with hx
    · rw [← hx, hw]
      exact hn
    · rfl

/-- The leased task of `id` ends as completed. -/
theorem step_completed (h : Inv s) (hto : LeasedTo s lease.taskId e lease w)
    (revision nowSecs recordVersion : Nat) :
    Step s (.completion ⟨revision, .completed (lease.receipt (recordVersion + 1))⟩) (committed
        { s.endLeased lease w { e.leasedEnded .completed nowSecs (recordVersion + 1) with
            completion := some (lease.receipt (recordVersion + 1)) } with
          workers := s.workers.insert lease.workerId
            { w.released with completedTasks := w.completedTasks + 1 } } revision nowSecs) := by
  have hrec := h.records hto.record
  have hact := hto.isActive h
  have hinv : Inv (s.endLeased lease w { e.leasedEnded .completed nowSecs (recordVersion + 1) with
      completion := some (lease.receipt (recordVersion + 1)) }) :=
    h.endLeased hto (hrec.leasedEnded hto.leased .completed rfl nowSecs recordVersion rfl rfl
      (by simp) (by rintro r ⟨⟩; rfl)) rfl
  have hw := h.workers hto.worker
  have hnone : e.completion = none := by
    have hiff := hrec.no_receipt hact (show TaskStatus.failed ≠ .completed by decide)
    rw [← not_isSome_iff_eq_none, hiff]
    decide
  refine
    { inv := Inv.committed (hinv.setWorker
        { w.released with completedTasks := w.completedTasks + 1 } ?_ hw.1 ?_ ?_ ?_) _ _
      limits := rfl
      ended := ended_insert hto.record hact rfl
      leaseId := le_rfl
      issued := nofun
      books := Booked.completed hto.record hnone rfl rfl rfl hto.worker rfl rfl
      repeated := nofun }
  · simp only [endLeased, insert_insert]
  · exact ⟨le_trans (Nat.sub_le _ _) hw.2.2.1, hw.2.2.2⟩
  · intro v hv
    have hv' : (s.workers.insert lease.workerId w.released)[lease.workerId]? = some v := hv
    rw [get_insert_self] at hv'
    cases hv'
    exact ⟨rfl, Or.inl rfl⟩
  · intro hnone
    have hnone' : (s.workers.insert lease.workerId w.released)[lease.workerId]? = none := hnone
    rw [get_insert_self] at hnone'
    cases hnone'

theorem completeTask_spec (h : Inv s) (expectedRevision nowSecs : Nat) (lease : TaskLease) :
    wp (completeTask expectedRevision nowSecs lease) (fun r t => Step s (.completion r) t)
      (Failed s) False s := by
  rw [completeTask, wp_bind, wp_get]
  refine wp_check (preflightCommand_spec _ _) fun revision _ => ?_
  refine wp_check (okOr_spec _ not_false) fun e he => ?_
  rw [wp_ite]
  refine ⟨fun _ => ?_, fun _ => ?_⟩
  · refine wp_check (okOr_spec _ not_false) fun receipt hrcpt => ?_
    have hc := (filter_eq_some_iff.mp hrcpt).1
    have hid := (h.records he).receipt receipt hc
    exact
      { inv := h
        limits := rfl
        ended := fun he _ => he
        leaseId := le_rfl
        issued := nofun
        books := ⟨fun _ => rfl, fun _ => rfl⟩
        repeated := fun r hr => by
          cases hr
          rw [completionOf, hid, he]
          exact hc }
  · refine wp_check (ensureCurrentLease_spec e lease nowSecs) fun _ hl => ?_
    obtain ⟨w, hto⟩ := h.leasedTo he hl
    simp only [wp_rules, wp_nextCounter, hto.preflight h, hto.worker, Checked.wp_rules,
      some.injEq, reduceCtorEq, false_implies, checkedAdd_eq_some, failed_self,
      IsStateInvariant, not_false_eq_true, implies_true, true_and, and_true]
    rintro - - _ rfl _ ⟨-, rfl⟩
    rw [wp_of_eq_ok (terminalizeLeasedTask_eq h hto .completed rfl _ _)]
    simp only [updateTask, updateWorker, wp_rules, Checked.wp_okOr, wp_commit,
      endLeased, get_insert_self, some.injEq, reduceCtorEq, false_implies,
      and_true, forall_eq', insert_insert]
    exact step_completed h hto _ _ _

/-- A record's lease is its ownership token. -/
theorem ownership_eq_leased (hrec : RecordOK id e) :
    e.task.ownership = some (.leased lease) ↔ e.task.lease = some lease := by
  constructor
  · intro h
    unfold ScanTask.ownership at h
    split at h <;> simp_all
  · intro hl
    rcases hrec.status_of_lease hl with hs | hs <;> simp [ScanTask.ownership, hs, hl]

theorem ownership_eq_queued {fence : QueuedTaskFence} :
    e.task.ownership = some (.queued fence) ↔ e.task.status = .queued ∧
      fence = ⟨e.task.taskId, e.task.taskGeneration, e.task.recordVersion⟩ := by
  cases hs : e.task.status <;> simp [ScanTask.ownership, hs, eq_comm]

/-- A token passes the check of a cancellation only if it owns the record. -/
theorem validateCancellationOwnership_spec (hrec : RecordOK id e)
    (ownership : TaskOwnership) (nowSecs : Nat) :
    Checked.wp (validateCancellationOwnership e ownership nowSecs)
      (fun _ => e.task.ownership = some ownership) (fun e => ¬ e.IsStateInvariant) := by
  cases ownership with
  | queued fence =>
    simp only [validateCancellationOwnership, Checked.wp_rules, IsStateInvariant, not_false_eq_true,
      implies_true, true_and, not_or, not_not]
    rintro ⟨hs, h1, h2, h3⟩
    exact ownership_eq_queued.mpr ⟨hs, by rw [h1, h2, h3]⟩
  | leased lease =>
    refine Checked.wp_imp (ensureCurrentLease_spec e lease nowSecs) fun _ hl => ?_
    exact (ownership_eq_leased hrec).mpr hl

theorem cancelTask_spec (h : Inv s) (expectedRevision nowSecs : Nat) (ownership : TaskOwnership) :
    wp (cancelTask expectedRevision nowSecs ownership)
      (fun r t => Step s (.cancellation r) t) (Failed s) False s := by
  rw [cancelTask, wp_bind, wp_get]
  refine wp_check (preflightCommand_spec _ _) fun revision _ => ?_
  refine wp_check (okOr_spec _ not_false) fun e he => ?_
  rw [wp_ite]
  refine ⟨fun _ => ?_, fun _ => ?_⟩
  · exact wp_check (okOr_spec _ not_false) fun _ _ => Step.quiet h (Keeps.refl s) rfl rfl rfl
  · have hrec := h.records he
    refine wp_check (validateCancellationOwnership_spec hrec ownership nowSecs) fun _ hown => ?_
    cases ownership with
    | queued fence =>
      replace hown := (ownership_eq_queued.mp hown).1
      obtain ⟨key, hkey, -⟩ := h.key_of_queued he hown
      simp only [wp_rules, wp_nextCounter,
        wp_of_eq_ok (terminalizeQueuedTask_eq h he hkey .cancelled rfl _ _), updateTask,
        Checked.wp_okOr, wp_commit, endQueued, get_insert_self, some.injEq,
        reduceCtorEq, false_implies, forall_eq', insert_insert, failed_self, IsStateInvariant,
        not_false_eq_true, implies_true, and_true]
      intro _
      refine Step.quiet_committed (h.endQueued he hkey ?_ rfl) (Keeps.endQueued h he hkey (by rfl))
        rfl rfl rfl
      exact hrec.queuedEnded hown .cancelled rfl (by decide) _ _ rfl rfl rfl
    | leased lease =>
      replace hown := (ownership_eq_leased hrec).mp hown
      obtain ⟨w, hto⟩ := h.leasedTo he hown
      simp only [wp_rules, wp_nextCounter, hto.preflight h, Checked.wp_rules,
        wp_of_eq_ok (terminalizeLeasedTask_eq h hto .cancelled rfl _ _), updateTask,
        wp_commit, TaskOwnership.taskId, endLeased, get_insert_self,
        some.injEq, reduceCtorEq, false_implies, forall_eq', insert_insert, failed_self,
        IsStateInvariant, not_false_eq_true, implies_true, and_true]
      intro _
      refine Step.quiet_committed (h.endLeased hto ?_ rfl) (Keeps.endLeased h hto (by rfl)) rfl rfl rfl
      exact hrec.leasedStopped hown .cancelled rfl (by decide) _ _ rfl rfl rfl

theorem failTask_spec (h : Inv s) (expectedRevision nowSecs : Nat) (lease : TaskLease) :
    wp (failTask expectedRevision nowSecs lease) (fun r t => Step s (.failure r) t) (Failed s)
      False s := by
  rw [failTask, wp_bind, wp_get]
  refine wp_check (preflightCommand_spec _ _) fun revision _ => ?_
  refine wp_check (okOr_spec _ not_false) fun e he => ?_
  rw [wp_ite]
  refine ⟨fun _ => ?_, fun _ => ?_⟩
  · exact wp_check (okOr_spec _ not_false) fun _ _ => Step.quiet h (Keeps.refl s) rfl rfl rfl
  · refine wp_check (ensureCurrentLease_spec e lease nowSecs) fun _ hl => ?_
    obtain ⟨w, hto⟩ := h.leasedTo he hl
    have hrec := h.records he
    simp only [wp_rules, wp_nextCounter, wp_nextU32, hto.preflight h, Checked.wp_rules,
      failed_self, wp_of_eq_ok (requeueTask_eq h hto _ _ _ _ _),
      wp_of_eq_ok (terminalizeLeasedTask_eq h hto .failed rfl _ _), updateTask, wp_commit,
      endLeased, get_insert_self, some.injEq, reduceCtorEq, false_implies,
      forall_eq', insert_insert, IsStateInvariant, not_false_eq_true, implies_true, true_and,
      and_true, Nat.not_le]
    refine fun _ _ => ⟨fun _ hroom _ _ _ => ?_, fun _ => ?_⟩
    · refine Step.quiet_committed (h.requeue hto ?_ rfl hroom _)
        (Keeps.requeue h hto (by rfl) _ _) rfl rfl rfl
      exact hrec.requeued hl rfl _ _ _
    · refine Step.quiet_committed (h.endLeased hto ?_ rfl) (Keeps.endLeased h hto (by rfl)) rfl rfl rfl
      exact hrec.leasedStopped hl .failed rfl (by decide) _ _ rfl rfl rfl

/-! ### Recovery and expiry -/

theorem recoveryReady_of_preflight (h : Inv s) (predicate : TaskLease → Bool) :
    Checked.wp (preflightRecovery s (leasedTaskIds s predicate))
      (fun _ => RecoveryReady s (leasedTaskIds s predicate)) (fun e => ¬ e.IsStateInvariant) := by
  refine preflightRecovery_spec h (leasedTaskIds_nodup predicate) fun id hid => ?_
  obtain ⟨e, lease, he, hl, -⟩ := mem_leasedTaskIds.mp hid
  exact ⟨e, lease, he, hl⟩

theorem SameGenerations.get (hgen : SameGenerations s t) (hw : s.workers[id]? = some w) :
    ∃ w' : WorkerNode, t.workers[id]? = some w' ∧ w'.generation = w.generation := by
  have := hgen id
  rw [hw, map_some, map_eq_some_iff] at this
  exact this

theorem deregisterWorker_spec (h : Inv s) (expectedRevision nowSecs : Nat) (workerId : String)
    (workerGeneration : Nat) :
    wp (deregisterWorker expectedRevision nowSecs workerId workerGeneration)
      (fun r t => Step s (.recovery r) t) (Failed s) False s := by
  refine wp_check (validateWorkerCommandId_spec workerId) fun _ _ => ?_
  rw [wp_bind, wp_get]
  refine wp_check (preflightCommand_spec _ _) fun revision _ => ?_
  refine wp_check (okOr_spec _ not_false) fun w hw => ?_
  refine wp_guard not_false fun _ => ?_
  refine wp_guard not_false fun _ => ?_
  refine wp_check (nextCounter_spec _ _) fun nextGeneration _ => ?_
  refine wp_check (recoveryReady_of_preflight h _) fun _ hrdy => ?_
  refine wp_write (recoverTasks_spec nowSecs 0 0 h hrdy) ?_
  rintro counts t ⟨ht, hkeep, hrel, hgen⟩
  obtain ⟨w', hw', -⟩ := hgen.get hw
  have hidle : w'.currentTasks = 0 := hrel.idle ht hw' fun {x e lease} he hl hid =>
    mem_leasedTaskIds.mpr ⟨e, lease, he, hl, decide_eq_true hid⟩
  simp only [wp_rules, Checked.wp_okOr, hw', wp_commit, some.injEq, forall_eq',
    hidle, ne_eq, not_true, false_implies, not_false_eq_true, true_implies, true_and, reduceCtorEq,
    and_true]
  exact Step.quiet_committed (ht.retire hw' hidle _) (hkeep.trans (Keeps.retire hw' _)) rfl rfl rfl

theorem recoverExpiredLeases_spec (h : Inv s) (expectedRevision nowSecs : Nat) :
    wp (recoverExpiredLeases expectedRevision nowSecs) (fun r t => Step s (.recovery r) t)
      (Failed s) False s := by
  rw [recoverExpiredLeases, wp_bind, wp_get]
  refine wp_check (preflightCommand_spec _ _) fun revision _ => ?_
  refine wp_check (recoveryReady_of_preflight h _) fun _ hrdy => ?_
  refine wp_write (recoverTasks_spec nowSecs 0 0 h hrdy) ?_
  rintro counts t ⟨ht, hkeep, -, -⟩
  exact Step.quiet_committed ht hkeep rfl rfl rfl

theorem preflightPrune_spec {dead : List String} :
    Checked.wp (Checked.each (preflightPrune s) dead)
      (fun _ => ∀ id ∈ dead, ∀ w : WorkerNode, s.workers[id]? = some w → w.generation < u64Max)
      (fun e => (∃ id ∈ dead, s.workers[id]? = none) ∨ ¬ e.IsStateInvariant) := by
  refine Checked.wp_each fun id hid => ?_
  simp only [preflightPrune, Checked.wp_rules, wp_nextCounter]
  refine ⟨fun w hw => ⟨fun hlt v hv => ?_, fun _ => Or.inr not_false⟩, fun hnone =>
    Or.inl ⟨id, hid, hnone⟩⟩
  rw [hw] at hv
  cases hv
  exact hlt

theorem get_of_deadWorkers {nowSecs : Nat} (hid : id ∈ deadWorkers s nowSecs) :
    ∃ w : WorkerNode, s.workers[id]? = some w := by
  simp only [deadWorkers, List.mem_map, List.mem_filter, Prod.exists, exists_and_right,
    exists_eq_right] at hid
  obtain ⟨w, hmem, -⟩ := hid
  exact ⟨w, mem_toList.mp hmem⟩

theorem pruneDeadWorkers_spec (h : Inv s) (expectedRevision nowSecs : Nat) :
    wp (pruneDeadWorkers expectedRevision nowSecs) (fun r t => Step s (.recovery r) t)
      (Failed s) False s := by
  rw [pruneDeadWorkers, wp_bind, wp_get]
  refine wp_check (preflightCommand_spec _ _) fun revision _ => ?_
  refine wp_check (Checked.wp_mono preflightPrune_spec (fun _ hgen => hgen) fun e he => ?_)
    fun _ hgen => ?_
  · rcases he with ⟨id, hid, hnone⟩ | he
    · obtain ⟨w, hw⟩ := get_of_deadWorkers hid
      rw [hw] at hnone
      cases hnone
    · exact he
  refine wp_check (recoveryReady_of_preflight h _) fun _ hrdy => ?_
  refine wp_write (recoverTasks_spec nowSecs 0 0 h hrdy) ?_
  rintro counts t ⟨ht, hkeep, hrel, hsame⟩
  refine wp_write (pruneWorkers_spec ht ⟨deadWorkers_nodup nowSecs, fun id hid => ?_⟩) ?_
  · obtain ⟨w, hw⟩ := get_of_deadWorkers hid
    obtain ⟨w', hw', hg⟩ := hsame.get hw
    refine ⟨w', hw', hrel.idle ht hw' fun {x e lease} he hl hx => ?_, ?_⟩
    · exact mem_leasedTaskIds.mpr ⟨e, lease, he, hl, by simpa [hx] using hid⟩
    · rw [hg]
      exact hgen id hid w hw
  · rintro - u ⟨hu, hkeep'⟩
    exact Step.quiet_committed hu (hkeep.trans hkeep') rfl rfl rfl

theorem preflightExpiry_each (h : Inv s) (nowSecs taskTtlSecs : Nat) :
    Checked.wp (Checked.each (preflightExpiry s) (agedTasks s nowSecs taskTtlSecs))
      (fun _ => ExpiryReady s (agedTasks s nowSecs taskTtlSecs))
      (fun e => ¬ e.IsStateInvariant) := by
  refine Checked.wp_imp (Checked.wp_each fun id hid => ?_)
    (fun _ hrdy => ⟨agedTasks_nodup nowSecs taskTtlSecs, hrdy⟩)
  obtain ⟨e, he, ha⟩ := active_of_agedTasks hid
  exact Checked.wp_imp (preflightExpiry_spec h he ha) fun _ hexp => ⟨e, hexp⟩

theorem expireOldTasks_spec (h : Inv s) (expectedRevision nowSecs taskTtlSecs : Nat) :
    wp (expireOldTasks expectedRevision nowSecs taskTtlSecs)
      (fun r t => Step s (.expired r) t) (Failed s) False s := by
  refine wp_guard not_false fun _ => ?_
  rw [wp_bind, wp_get]
  refine wp_check (preflightCommand_spec _ _) fun revision _ => ?_
  refine wp_guard not_false fun _ => ?_
  refine wp_check (preflightExpiry_each h nowSecs taskTtlSecs) fun _ hrdy => ?_
  refine wp_write (expireTasks_spec nowSecs h hrdy) ?_
  rintro - t ⟨ht, hkeep⟩
  exact Step.quiet_committed ht hkeep rfl rfl rfl

/-! ### Tokens that own nothing -/

/-- The token a command presents. -/
def Request.token : Request → Option TaskOwnership
  | .startTask _ _ lease | .completeTask _ _ lease | .failTask _ _ lease => some (.leased lease)
  | .cancelTask _ _ ownership => some ownership
  | _ => none

/-- No record is owned by the token. -/
def Stale (s : CoordinatorState) (token : TaskOwnership) : Prop :=
  ∀ e : TaskEntry, s.tasks[token.taskId]? = some e → e.task.ownership ≠ some token

/-- A lease that owns nothing does not pass the check of a leased command. -/
theorem Stale.not_current (h : Inv s) (hstl : Stale s (.leased lease))
    (he : s.tasks[lease.taskId]? = some e) (nowSecs : Nat) :
    Checked.wp (ensureCurrentLease e lease nowSecs) (fun _ => False)
      (fun e => ¬ e.IsStateInvariant) :=
  Checked.wp_imp (ensureCurrentLease_spec e lease nowSecs)
    fun _ hl => hstl e he ((ownership_eq_leased (h.records he)).mpr hl)

theorem startTask_stale (h : Inv s) (hstl : Stale s (.leased lease))
    (expectedRevision nowSecs : Nat) :
    wp (startTask expectedRevision nowSecs lease) (fun _ t => t = s) (Failed s) False s := by
  rw [startTask, wp_bind, wp_get]
  refine wp_check (preflightCommand_spec _ _) fun revision _ => ?_
  refine wp_check (okOr_spec _ not_false) fun e he => ?_
  exact wp_check (hstl.not_current h he nowSecs) fun _ hf => hf.elim

theorem completeTask_stale (h : Inv s) (hstl : Stale s (.leased lease))
    (expectedRevision nowSecs : Nat) :
    wp (completeTask expectedRevision nowSecs lease) (fun _ t => t = s) (Failed s) False
      s := by
  rw [completeTask, wp_bind, wp_get]
  refine wp_check (preflightCommand_spec _ _) fun revision _ => ?_
  refine wp_check (okOr_spec _ not_false) fun e he => ?_
  rw [wp_ite]
  refine ⟨fun _ => ?_, fun _ => ?_⟩
  · exact wp_check (okOr_spec _ not_false) fun _ _ => rfl
  · exact wp_check (hstl.not_current h he nowSecs) fun _ hf => hf.elim

theorem failTask_stale (h : Inv s) (hstl : Stale s (.leased lease))
    (expectedRevision nowSecs : Nat) :
    wp (failTask expectedRevision nowSecs lease) (fun _ t => t = s) (Failed s) False s := by
  rw [failTask, wp_bind, wp_get]
  refine wp_check (preflightCommand_spec _ _) fun revision _ => ?_
  refine wp_check (okOr_spec _ not_false) fun e he => ?_
  rw [wp_ite]
  refine ⟨fun _ => ?_, fun _ => ?_⟩
  · exact wp_check (okOr_spec _ not_false) fun _ _ => rfl
  · exact wp_check (hstl.not_current h he nowSecs) fun _ hf => hf.elim

theorem cancelTask_stale (h : Inv s) {ownership : TaskOwnership} (hstl : Stale s ownership)
    (expectedRevision nowSecs : Nat) :
    wp (cancelTask expectedRevision nowSecs ownership) (fun _ t => t = s) (Failed s) False
      s := by
  rw [cancelTask, wp_bind, wp_get]
  refine wp_check (preflightCommand_spec _ _) fun revision _ => ?_
  refine wp_check (okOr_spec _ not_false) fun e he => ?_
  rw [wp_ite]
  refine ⟨fun _ => ?_, fun _ => ?_⟩
  · exact wp_check (okOr_spec _ not_false) fun _ _ => rfl
  · exact wp_check (validateCancellationOwnership_spec (h.records he) ownership nowSecs)
      fun _ hown => (hstl e he hown).elim

/-- A token that owns nothing changes nothing. -/
theorem exec_stale (h : Inv s) {request : Request} {token : TaskOwnership}
    (htoken : request.token = some token) (hstl : Stale s token) :
    wp (exec request) (fun _ t => t = s) (Failed s) False s := by
  cases request with
  | startTask =>
    cases htoken
    exact (wp_map _ _).mpr (startTask_stale h hstl _ _)
  | completeTask =>
    cases htoken
    exact (wp_map _ _).mpr (completeTask_stale h hstl _ _)
  | failTask =>
    cases htoken
    exact (wp_map _ _).mpr (failTask_stale h hstl _ _)
  | cancelTask =>
    cases htoken
    exact (wp_map _ _).mpr (cancelTask_stale h hstl _ _)
  | _ => cases htoken

/-! ### Every command -/

/-- **One command.** From a state with the invariant a command does not
panic; it returns with the invariant, or fails and leaves the state alone. -/
theorem exec_spec (h : Inv s) (request : Request) :
    wp (exec request) (fun r t => Step s r t) (Failed s) False s := by
  cases request with
  | enqueue => exact (wp_map _ _).mpr (enqueue_spec h _ _ _)
  | registerWorker => exact (wp_map _ _).mpr (registerWorker_spec h _ _ _)
  | reactivateWorker => exact (wp_map _ _).mpr (reactivateWorker_spec h _ _ _ _)
  | updateWorker => exact (wp_map _ _).mpr (updateWorkerObservation_spec h _ _ _ _ _)
  | assignTask => exact (wp_map _ _).mpr (assignTask_spec h _ _ _ _ _)
  | assignNext => exact (wp_map _ _).mpr (assignNext_spec h _ _ _ _)
  | assignNextAvailable => exact (wp_map _ _).mpr (assignNextAvailable_spec h _ _ _)
  | startTask => exact (wp_map _ _).mpr (startTask_spec h _ _ _)
  | completeTask => exact (wp_map _ _).mpr (completeTask_spec h _ _ _)
  | cancelTask => exact (wp_map _ _).mpr (cancelTask_spec h _ _ _)
  | failTask => exact (wp_map _ _).mpr (failTask_spec h _ _ _)
  | deregisterWorker => exact (wp_map _ _).mpr (deregisterWorker_spec h _ _ _ _)
  | recoverExpiredLeases => exact (wp_map _ _).mpr (recoverExpiredLeases_spec h _ _)
  | pruneDeadWorkers => exact (wp_map _ _).mpr (pruneDeadWorkers_spec h _ _)
  | expireOldTasks => exact (wp_map _ _).mpr (expireOldTasks_spec h _ _ _)

end Termivar.Distributed
