/-
# The coordinator's helpers

The functions of `distributed/worker.rs`, `distributed/lease.rs` and
`distributed/recovery.rs` that the commands are made of. Those that take the
state by reference are checks (`Except`); those that take it mutably are
commands (`Coordinator`), and a failure inside them leaves what was written
before it.
-/
import Termivar.Distributed.Model

namespace Termivar.Distributed

open DistributedError

/-! ### Records in place

`get_mut`, with the failure for a record that is not there. -/

def updateTask (taskId reason : String) (f : TaskEntry → TaskEntry) : Coordinator Unit := do
  let s ← get
  let entry ← okOr s.tasks[taskId]? (stateInvariant reason)
  set { s with tasks := s.tasks.insert taskId (f entry) }

def updateWorker (workerId reason : String) (f : WorkerNode → WorkerNode) : Coordinator Unit := do
  let s ← get
  let worker ← okOr s.workers[workerId]? (stateInvariant reason)
  set { s with workers := s.workers.insert workerId (f worker) }

/-- `state.active_tasks -= 1; state.terminal_tasks += 1`. -/
def countTerminal : Coordinator Unit := do
  let s ← get
  if s.activeTasks = 0 then Command.unwind
  set { s with activeTasks := s.activeTasks - 1, terminalTasks := s.terminalTasks + 1 }

/-! ### Ownership checks -/

variable (s : CoordinatorState) (entry : TaskEntry) (lease : TaskLease) (nowSecs : Nat)

def ensureQueueEntry : Except DistributedError Unit :=
  match entry.queueKey with
  | some key =>
    if s.queue.contains key ∧ key.taskId = entry.task.taskId then pure ()
    else throw (stateInvariant "queued task does not have exactly one queue key")
  | none => throw (stateInvariant "queued task does not have exactly one queue key")

def ensureCurrentLease :
    Except DistributedError Unit := do
  if entry.task.lease ≠ some lease ∨ entry.task.taskGeneration ≠ lease.taskGeneration ∨
      entry.task.attempt ≠ lease.attempt ∨ entry.task.assignedTo ≠ some lease.workerId then
    throw (staleOwnership lease.taskId)
  if lease.expiresAt ≤ nowSecs then throw (leaseExpired lease.taskId)

def validateCancellationOwnership (ownership : TaskOwnership) (nowSecs : Nat) :
    Except DistributedError Unit :=
  match ownership with
  | .queued fence =>
    if entry.task.status ≠ .queued ∨ entry.task.taskId ≠ fence.taskId ∨
        entry.task.taskGeneration ≠ fence.taskGeneration ∨
        entry.task.recordVersion ≠ fence.recordVersion then
      throw (staleOwnership fence.taskId)
    else pure ()
  | .leased lease => ensureCurrentLease entry lease nowSecs

/-! ### Workers -/

/-- One worker against the best so far. -/
def betterWorker (best : Option (String × List Nat)) :
    String × WorkerNode → Option (String × List Nat)
  | (workerId, worker) =>
    if !worker.isEligible nowSecs s.limits.heartbeatTimeoutSecs then best
    else
      let key := worker.selectionKey nowSecs
      match best with
      | none => some (workerId, key)
      | some (bestId, bestKey) =>
        match compare key bestKey with
        | .gt => some (workerId, key)
        | .eq => if workerId < bestId then some (workerId, key) else best
        | .lt => best

def bestWorkerId : Option String :=
  (s.workers.toList.foldl (betterWorker s nowSecs) none).map (·.1)

def prepareAssignment (taskId workerId : String)
    (nowSecs leaseTtlSecs : Nat) : Except DistributedError TaskLease := do
  if leaseTtlSecs = 0 then throw (invalidLimit "lease_ttl_secs")
  if s.limits.maxLeaseTtlSecs < leaseTtlSecs then
    throw (invalidLimitRelationship "lease_ttl_secs exceeds configured maximum")
  let entry ← okOr s.tasks[taskId]? (taskNotFound taskId)
  if entry.task.status ≠ .queued then throw (taskNotQueued taskId entry.task.status)
  ensureQueueEntry s entry
  let worker ← okOr s.workers[workerId]? (workerNotFound workerId)
  if worker.status ≠ .healthy ∨
      s.limits.heartbeatTimeoutSecs < nowSecs - worker.lastHeartbeat then
    throw (workerUnavailable workerId)
  if worker.availableSlots = 0 then throw (workerAtCapacity workerId)
  let _ ← nextU32 worker.currentTasks "worker_current_tasks"
  let attempt ← nextU32 entry.task.attempt "attempt"
  let _ ← nextCounter entry.task.recordVersion "record_version"
  let expiresAt ← okOr (checkedAdd u64Max nowSecs leaseTtlSecs) (counterExhausted "lease_deadline")
  let _ ← nextCounter s.nextLeaseId "lease_id"
  return {
    taskId := taskId
    workerId := workerId
    workerGeneration := worker.generation
    taskGeneration := entry.task.taskGeneration
    attempt := attempt
    leaseId := s.nextLeaseId
    acquiredAt := nowSecs
    expiresAt := expiresAt }

/-- The record of a task leased out under `lease`. -/
def TaskEntry.assigned (recordVersion : Nat) : TaskEntry :=
  { entry with
    queueKey := none
    task := { entry.task with
      status := .leased
      assignedTo := some lease.workerId
      attempt := lease.attempt
      lease := some lease
      recordVersion := recordVersion } }

def applyAssignment : Coordinator Unit := do
  let s ← get
  let entry ← okOr s.tasks[lease.taskId]? (stateInvariant "assignment task disappeared")
  let queueKey ← okOr entry.queueKey (stateInvariant "queued task has no queue key")
  let recordVersion ← nextCounter entry.task.recordVersion "record_version"
  if !s.queue.contains queueKey then
    throw (stateInvariant "assignment queue key disappeared")
  set { s with queue := s.queue.erase queueKey }
  updateTask lease.taskId "assignment task disappeared during mutation" fun entry =>
    entry.assigned lease recordVersion
  let s ← get
  let worker ← okOr s.workers[lease.workerId]? (stateInvariant "assignment worker disappeared")
  let currentTasks ← nextU32 worker.currentTasks "worker_current_tasks"
  set { s with
    workers := s.workers.insert lease.workerId { worker with currentTasks := currentTasks } }
  let s ← get
  let nextLeaseId ← nextCounter s.nextLeaseId "lease_id"
  set { s with nextLeaseId := nextLeaseId }

def preflightWorkerRelease :
    Except DistributedError Unit := do
  let worker ← okOr s.workers[lease.workerId]? (stateInvariant "lease references a missing worker")
  if worker.generation ≠ lease.workerGeneration ∨ worker.currentTasks = 0 then
    throw (stateInvariant "worker generation or active count disagrees with lease")

def releaseWorker : Coordinator Unit := do
  let s ← get
  let worker ←
    okOr s.workers[lease.workerId]? (stateInvariant "lease worker disappeared during release")
  if worker.generation ≠ lease.workerGeneration ∨ worker.currentTasks = 0 then
    throw (stateInvariant "worker cannot release lease exactly once")
  set { s with
    workers := s.workers.insert lease.workerId
      { worker with currentTasks := worker.currentTasks - 1 } }

/-! ### Terminal transitions -/

/-- The record of a queued task that ends. -/
def TaskEntry.queuedEnded (status : TaskStatus)
    (nowSecs recordVersion : Nat) : TaskEntry :=
  { entry with
    queueKey := none
    task := { entry.task with
      status := status
      completedAt := some nowSecs
      recordVersion := recordVersion } }

/-- The record of a leased task that ends. -/
def TaskEntry.leasedEnded (status : TaskStatus)
    (nowSecs recordVersion : Nat) : TaskEntry :=
  { entry with
    task := { entry.task with
      status := status
      assignedTo := none
      lease := none
      completedAt := some nowSecs
      recordVersion := recordVersion } }

/-- The record of a leased task that goes back to the queue. -/
def TaskEntry.requeued (key : QueueKey)
    (retryCount taskGeneration recordVersion : Nat) : TaskEntry :=
  { entry with
    queueKey := some key
    task := { entry.task with
      status := .queued
      assignedTo := none
      lease := none
      startedAt := none
      retryCount := retryCount
      taskGeneration := taskGeneration
      recordVersion := recordVersion } }

def terminalizeQueuedTask (taskId : String) (terminalStatus : TaskStatus)
    (nowSecs recordVersion : Nat) : Coordinator Unit := do
  let s ← get
  let entry ← okOr s.tasks[taskId]? (stateInvariant "queued terminal task disappeared")
  if entry.task.status ≠ .queued ∨ terminalStatus.isActive then
    throw (stateInvariant "invalid queued terminalization")
  let key ← okOr entry.queueKey (stateInvariant "queued terminal task has no queue key")
  if !s.queue.contains key then throw (stateInvariant "queued terminal key disappeared")
  set { s with queue := s.queue.erase key }
  updateTask taskId "queued terminal task disappeared during mutation" fun entry =>
    entry.queuedEnded terminalStatus nowSecs recordVersion
  countTerminal

def terminalizeLeasedTask (terminalStatus : TaskStatus)
    (nowSecs recordVersion : Nat) : Coordinator Unit := do
  if terminalStatus.isActive then
    throw (stateInvariant "leased terminalization received active status")
  preflightWorkerRelease (← get) lease
  releaseWorker lease
  updateTask lease.taskId "leased terminal task disappeared" fun entry =>
    entry.leasedEnded terminalStatus nowSecs recordVersion
  countTerminal

/-! ### Recovery -/

structure RecoverySummary where
  (workersAffected tasksRequeued tasksFailed : Nat)

/-- Earlier leases first, then the smaller identifier. -/
def leaseOrder (a b : Nat × String) : Bool := a.1 < b.1 || (a.1 = b.1 && a.2 ≤ b.2)

def leasedTaskIds (predicate : TaskLease → Bool) : List String :=
  let leased := s.tasks.toList.filterMap fun (taskId, entry) =>
    (entry.task.lease.filter predicate).map fun lease => (lease.leaseId, taskId)
  (leased.insertionSort fun a b => leaseOrder a b).map (·.2)

/-- The task has a retry left. -/
def hasRetry (taskId : String) : Bool :=
  s.tasks[taskId]?.any fun entry => entry.task.retryCount < s.limits.maxRetries

/-- The per-task part of the recovery preflight, which also counts the
releases of each worker. -/
def preflightRecoveryTask (releaseCounts : BTreeMap String Nat)
    (taskId : String) : Except DistributedError (BTreeMap String Nat) := do
  let entry ← okOr s.tasks[taskId]? (stateInvariant "recovery task is missing")
  if entry.task.status ≠ .leased ∧ entry.task.status ≠ .running then
    throw (stateInvariant "recovery selected a non-leased task")
  let lease ← okOr entry.task.lease (stateInvariant "recovery task has no lease")
  preflightWorkerRelease s lease
  let _ ← nextCounter entry.task.recordVersion "record_version"
  if entry.task.retryCount < s.limits.maxRetries then
    let _ ← nextCounter entry.task.taskGeneration "task_generation"
    let _ ← nextU32 entry.task.retryCount "retry_count"
  let count ← nextU32 (releaseCounts[lease.workerId]?.getD 0) "worker_release_count"
  return releaseCounts.insert lease.workerId count

/-- A worker releases no more than it holds. -/
def preflightReleaseCount : String × Nat → Except DistributedError Unit
  | (workerId, releases) => do
    let worker ←
      okOr s.workers[workerId]? (stateInvariant "recovery lease references a missing worker")
    if worker.currentTasks < releases then
      throw (stateInvariant "recovery releases exceed worker active count")

def preflightRecovery (taskIds : List String) :
    Except DistributedError Unit := do
  let requeueCount := taskIds.countP (hasRetry s)
  if u64Max < requeueCount then throw (counterExhausted "enqueue_ordinal")
  let _ ←
    okOr (checkedAdd u64Max s.nextEnqueueOrdinal requeueCount) (counterExhausted "enqueue_ordinal")
  if s.limits.maxQueuedTasks < s.queue.size + requeueCount then
    throw (queuedTaskCapacityReached s.limits.maxQueuedTasks)
  let releaseCounts ← taskIds.foldlM (preflightRecoveryTask s) ∅
  Checked.each (preflightReleaseCount s) releaseCounts.toList

inductive RecoveryDisposition where
  | requeued
  | failed

/-- The task takes a new place in the queue under its next generation. -/
def requeueTask (taskId reason : String)
    (retryCount taskGeneration recordVersion nextOrdinal : Nat) : Coordinator Unit := do
  let enqueueOrdinal := (← get).nextEnqueueOrdinal
  releaseWorker lease
  let s ← get
  let entry ← okOr s.tasks[taskId]? (stateInvariant reason)
  let key := QueueKey.new entry.task.priority enqueueOrdinal taskId
  set { s with
    tasks := s.tasks.insert taskId (entry.requeued key retryCount taskGeneration recordVersion)
    queue := s.queue.insert key
    nextEnqueueOrdinal := nextOrdinal }

def applyRecovery (taskId : String) (nowSecs : Nat) : Coordinator RecoveryDisposition := do
  let s ← get
  let entry ← okOr s.tasks[taskId]? (stateInvariant "recovery task disappeared")
  let task := entry.task
  let lease ← okOr task.lease (stateInvariant "recovery task lost its lease")
  let recordVersion ← nextCounter task.recordVersion "record_version"
  if task.retryCount < s.limits.maxRetries then
    let taskGeneration ← nextCounter task.taskGeneration "task_generation"
    let retryCount ← nextU32 task.retryCount "retry_count"
    let nextOrdinal ← nextCounter s.nextEnqueueOrdinal "enqueue_ordinal"
    requeueTask lease taskId "recovery task disappeared during mutation" retryCount taskGeneration
      recordVersion nextOrdinal
    return .requeued
  else
    terminalizeLeasedTask lease .failed nowSecs recordVersion
    return .failed

/-- The recovery loop of the three recovering commands: how many tasks went
back to the queue, and how many failed. -/
def recoverTasks (nowSecs : Nat) : List String → Nat → Nat → Coordinator (Nat × Nat)
  | [], tasksRequeued, tasksFailed => pure (tasksRequeued, tasksFailed)
  | taskId :: taskIds, tasksRequeued, tasksFailed => do
    match ← applyRecovery taskId nowSecs with
    | .requeued => recoverTasks nowSecs taskIds (tasksRequeued + 1) tasksFailed
    | .failed => recoverTasks nowSecs taskIds tasksRequeued (tasksFailed + 1)

end Termivar.Distributed
