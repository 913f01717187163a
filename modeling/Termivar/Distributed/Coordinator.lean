/-
# The coordinator's commands

The commands of `WorkerPool` (`distributed/coordinator.rs`) and of its
`TaskQueue` (`distributed/queue.rs`), and `check_state_invariants`. All
clones of a pool share one state lock, so the clients' calls reach the state
one command at a time, in some order: a run is a list of commands
(`Request`), and `exec` says what each does.
-/
import Termivar.Distributed.Operations

namespace Termivar.Distributed

open DistributedError

/-! ### Tasks and workers -/

variable (expectedRevision : Nat) (s : CoordinatorState) (worker : WorkerNode) (nowSecs : Nat)
  (spec : WorkerSpec) (workerId : String) (lease : TaskLease)

def enqueue (spec : TaskSpec) :
    Coordinator (Transition ScanTask) := do
  validateTaskSpec spec
  let s ← get
  let revision ← s.preflightCommand expectedRevision nowSecs
  if s.tasks.contains spec.taskId then throw (taskAlreadyExists spec.taskId)
  if s.limits.maxTaskRecords ≤ s.tasks.size then
    throw (taskRecordCapacityReached s.limits.maxTaskRecords)
  if s.limits.maxActiveTasks ≤ s.activeTasks then
    throw (activeTaskCapacityReached s.limits.maxActiveTasks)
  if s.limits.maxQueuedTasks ≤ s.queue.size then
    throw (queuedTaskCapacityReached s.limits.maxQueuedTasks)
  if s.limits.maxTerminalTasks < s.terminalTasks + s.activeTasks + 1 then
    throw (terminalCapacityReserved s.limits.maxTerminalTasks)
  let nextOrdinal ← nextCounter s.nextEnqueueOrdinal "enqueue_ordinal"
  let task : ScanTask := {
    taskId := spec.taskId
    scanId := spec.scanId
    targetRef := spec.targetRef
    phases := spec.phases
    status := .queued
    priority := spec.priority
    createdAt := nowSecs
    startedAt := none
    completedAt := none
    retryCount := 0
    attempt := 0
    taskGeneration := 0
    recordVersion := 1
    assignedTo := none
    lease := none }
  let key := QueueKey.new task.priority s.nextEnqueueOrdinal task.taskId
  set { s with
    nextEnqueueOrdinal := nextOrdinal
    queue := s.queue.insert key
    tasks := s.tasks.insert task.taskId ⟨task, some key, none, none, none⟩
    activeTasks := s.activeTasks + 1 }
  commit revision nowSecs
  return ⟨revision, task⟩

/-- The record of an admitted worker. -/
def WorkerSpec.node (generation completedTasks nowSecs : Nat) : WorkerNode where
  workerId := spec.workerId
  generation := generation
  status := .healthy
  capacity := spec.capacity
  currentTasks := 0
  completedTasks := completedTasks
  lastHeartbeat := nowSecs
  cpuBasisPoints := spec.cpuBasisPoints
  memoryBasisPoints := spec.memoryBasisPoints
  networkBasisPoints := spec.networkBasisPoints
  tags := spec.tags

def registerWorker :
    Coordinator (Transition WorkerNode) := do
  validateWorkerSpec spec
  let s ← get
  let revision ← s.preflightCommand expectedRevision nowSecs
  if s.workers.contains spec.workerId then throw (workerAlreadyExists spec.workerId)
  if s.limits.maxWorkers ≤ s.workers.size then
    throw (workerCapacityReached s.limits.maxWorkers)
  let worker := spec.node 1 0 nowSecs
  set { s with workers := s.workers.insert worker.workerId worker }
  commit revision nowSecs
  return ⟨revision, worker⟩

def reactivateWorker (expectedRevision nowSecs expectedGeneration : Nat) (spec : WorkerSpec) :
    Coordinator (Transition WorkerNode) := do
  validateWorkerSpec spec
  let s ← get
  let revision ← s.preflightCommand expectedRevision nowSecs
  let current ← okOr s.workers[spec.workerId]? (workerNotFound spec.workerId)
  if current.generation ≠ expectedGeneration then
    throw (workerGenerationConflict expectedGeneration current.generation)
  if current.status ≠ .offline ∨ current.currentTasks ≠ 0 then
    throw (workerUnavailable spec.workerId)
  let generation ← nextCounter current.generation "worker_generation"
  let worker := spec.node generation current.completedTasks nowSecs
  set { s with workers := s.workers.insert worker.workerId worker }
  commit revision nowSecs
  return ⟨revision, worker⟩

/-- The record of a worker after a heartbeat. -/
def WorkerNode.observed (observation : WorkerObservation) (nowSecs : Nat) :
    WorkerNode :=
  { worker with
    status := observation.status
    lastHeartbeat := nowSecs
    cpuBasisPoints := observation.cpuBasisPoints
    memoryBasisPoints := observation.memoryBasisPoints
    networkBasisPoints := observation.networkBasisPoints }

def updateWorkerObservation (workerGeneration : Nat) (observation : WorkerObservation) :
    Coordinator (Transition WorkerNode) := do
  validateWorkerCommandId workerId
  if observation.status = .offline then
    throw (invalidWorker "offline transition requires deregister or prune")
  if utilizationBasisPoints < observation.cpuBasisPoints ∨
      utilizationBasisPoints < observation.memoryBasisPoints ∨
      utilizationBasisPoints < observation.networkBasisPoints then
    throw (invalidWorker "utilization exceeds 10000 basis points")
  let s ← get
  let revision ← s.preflightCommand expectedRevision nowSecs
  let current ← okOr s.workers[workerId]? (workerNotFound workerId)
  if current.generation ≠ workerGeneration then
    throw (workerGenerationConflict workerGeneration current.generation)
  if current.status = .offline then throw (workerUnavailable workerId)
  updateWorker workerId "worker disappeared during update" (·.observed observation nowSecs)
  let worker ← okOr (← get).workers[workerId]? (stateInvariant "worker disappeared during update")
  commit revision nowSecs
  return ⟨revision, worker⟩

/-! ### Assignment -/

/-- The common end of the three assigning commands. -/
def assign (revision nowSecs : Nat) (taskId workerId : String)
    (leaseTtlSecs : Nat) : Coordinator (Transition TaskLease) := do
  let lease ← prepareAssignment s taskId workerId nowSecs leaseTtlSecs
  applyAssignment lease
  commit revision nowSecs
  return ⟨revision, lease⟩

def assignTask (taskId workerId : String) (leaseTtlSecs : Nat) :
    Coordinator (Transition TaskLease) := do
  validateTaskCommandId taskId
  validateWorkerCommandId workerId
  let s ← get
  let revision ← s.preflightCommand expectedRevision nowSecs
  assign s revision nowSecs taskId workerId leaseTtlSecs

def assignNext (leaseTtlSecs : Nat) :
    Coordinator (Transition TaskLease) := do
  validateWorkerCommandId workerId
  let s ← get
  let revision ← s.preflightCommand expectedRevision nowSecs
  let taskId ← okOr s.nextTaskId noQueuedTask
  assign s revision nowSecs taskId workerId leaseTtlSecs

def assignNextAvailable (expectedRevision nowSecs leaseTtlSecs : Nat) :
    Coordinator (Transition TaskLease) := do
  let s ← get
  let revision ← s.preflightCommand expectedRevision nowSecs
  let taskId ← okOr s.nextTaskId noQueuedTask
  let workerId ← okOr (bestWorkerId s nowSecs) noAvailableWorker
  assign s revision nowSecs taskId workerId leaseTtlSecs

/-! ### Owned tasks -/

/-- The record of a leased task that starts to run. -/
def TaskEntry.started (entry : TaskEntry) (nowSecs recordVersion : Nat) : TaskEntry :=
  { entry with
    task := { entry.task with
      status := .running
      startedAt := some nowSecs
      recordVersion := recordVersion } }

def startTask :
    Coordinator (Transition StartOutcome) := do
  let s ← get
  let revision ← s.preflightCommand expectedRevision nowSecs
  let entry ← okOr s.tasks[lease.taskId]? (taskNotFound lease.taskId)
  ensureCurrentLease entry lease nowSecs
  if entry.task.status = .running then
    return ⟨s.revision, .alreadyRunning entry.task.recordVersion⟩
  if entry.task.status ≠ .leased then
    throw (invalidTransition lease.taskId entry.task.status "start")
  let recordVersion ← nextCounter entry.task.recordVersion "record_version"
  updateTask lease.taskId "task disappeared during start" (·.started nowSecs recordVersion)
  commit revision nowSecs
  return ⟨revision, .started recordVersion⟩

/-- The receipt for the lease, under the version the completion writes. -/
def TaskLease.receipt (recordVersion : Nat) : CompletionReceipt where
  taskId := lease.taskId
  taskGeneration := lease.taskGeneration
  attempt := lease.attempt
  leaseId := lease.leaseId
  workerId := lease.workerId
  workerGeneration := lease.workerGeneration
  recordVersion := recordVersion

def completeTask :
    Coordinator (Transition CompletionOutcome) := do
  let s ← get
  let revision ← s.preflightCommand expectedRevision nowSecs
  let entry ← okOr s.tasks[lease.taskId]? (taskNotFound lease.taskId)
  if entry.task.status = .completed then
    let receipt ← okOr (entry.completion.filter (·.matchesLease lease)) (staleOwnership lease.taskId)
    return ⟨s.revision, .alreadyCompleted receipt⟩
  ensureCurrentLease entry lease nowSecs
  if entry.task.status ≠ .running then
    throw (invalidTransition lease.taskId entry.task.status "complete")
  let recordVersion ← nextCounter entry.task.recordVersion "record_version"
  preflightWorkerRelease s lease
  let worker ← okOr s.workers[lease.workerId]?
    (stateInvariant "completion worker disappeared during preflight")
  let completedTasks ←
    okOr (checkedAdd u64Max worker.completedTasks 1) (counterExhausted "worker_completed_tasks")
  let receipt := lease.receipt recordVersion
  terminalizeLeasedTask lease .completed nowSecs recordVersion
  updateTask lease.taskId "task disappeared during completion" fun entry =>
    { entry with completion := some receipt }
  updateWorker lease.workerId "worker disappeared during completion" fun worker =>
    { worker with completedTasks := completedTasks }
  commit revision nowSecs
  return ⟨revision, .completed receipt⟩

def cancelTask (ownership : TaskOwnership) :
    Coordinator (Transition CancellationOutcome) := do
  let taskId := ownership.taskId
  let s ← get
  let revision ← s.preflightCommand expectedRevision nowSecs
  let entry ← okOr s.tasks[taskId]? (taskNotFound taskId)
  if entry.task.status = .cancelled then
    let _ ← okOr (entry.cancellation.filter (·.matches ownership)) (staleOwnership taskId)
    return ⟨s.revision, .alreadyCancelled entry.task.recordVersion⟩
  validateCancellationOwnership entry ownership nowSecs
  let recordVersion ← nextCounter entry.task.recordVersion "record_version"
  let proof ← match ownership with
    | .queued fence => pure (CancellationProof.queued fence)
    | .leased lease => do
      preflightWorkerRelease s lease
      pure (CancellationProof.leased lease)
  match ownership with
  | .queued _ => terminalizeQueuedTask taskId .cancelled nowSecs recordVersion
  | .leased lease => terminalizeLeasedTask lease .cancelled nowSecs recordVersion
  updateTask taskId "task disappeared during cancellation" fun entry =>
    { entry with cancellation := some proof }
  commit revision nowSecs
  return ⟨revision, .cancelled recordVersion⟩

def failTask :
    Coordinator (Transition FailureOutcome) := do
  let s ← get
  let revision ← s.preflightCommand expectedRevision nowSecs
  let entry ← okOr s.tasks[lease.taskId]? (taskNotFound lease.taskId)
  if entry.task.status = .failed then
    let proof ←
      okOr (entry.failure.filter fun proof => proof.lease = lease) (staleOwnership lease.taskId)
    return ⟨s.revision, proof.outcome⟩
  ensureCurrentLease entry lease nowSecs
  if entry.task.status ≠ .running then
    throw (invalidTransition lease.taskId entry.task.status "fail")
  preflightWorkerRelease s lease
  let recordVersion ← nextCounter entry.task.recordVersion "record_version"
  if entry.task.retryCount < s.limits.maxRetries then
    if s.limits.maxQueuedTasks ≤ s.queue.size then
      throw (queuedTaskCapacityReached s.limits.maxQueuedTasks)
    let retryCount ← nextU32 entry.task.retryCount "retry_count"
    let taskGeneration ← nextCounter entry.task.taskGeneration "task_generation"
    let nextOrdinal ← nextCounter s.nextEnqueueOrdinal "enqueue_ordinal"
    requeueTask lease lease.taskId "task disappeared during retry" retryCount taskGeneration
      recordVersion nextOrdinal
    commit revision nowSecs
    return ⟨revision, .requeued taskGeneration retryCount recordVersion⟩
  else
    let outcome := FailureOutcome.retryExhausted entry.task.retryCount recordVersion
    terminalizeLeasedTask lease .failed nowSecs recordVersion
    updateTask lease.taskId "failed task disappeared" fun entry =>
      { entry with failure := some ⟨lease, outcome⟩ }
    commit revision nowSecs
    return ⟨revision, outcome⟩

/-! ### Recovery and expiry -/

/-- The record of a worker taken offline under its next generation. -/
def WorkerNode.retired (generation : Nat) : WorkerNode :=
  { worker with status := .offline, generation := generation }

def deregisterWorker (workerGeneration : Nat) : Coordinator (Transition RecoverySummary) := do
  validateWorkerCommandId workerId
  let s ← get
  let revision ← s.preflightCommand expectedRevision nowSecs
  let worker ← okOr s.workers[workerId]? (workerNotFound workerId)
  if worker.generation ≠ workerGeneration then
    throw (workerGenerationConflict workerGeneration worker.generation)
  if worker.status = .offline then throw (workerUnavailable workerId)
  let nextGeneration ← nextCounter worker.generation "worker_generation"
  let taskIds := leasedTaskIds s fun lease => lease.workerId = workerId
  preflightRecovery s taskIds
  let (tasksRequeued, tasksFailed) ← recoverTasks nowSecs taskIds 0 0
  let s ← get
  let worker ←
    okOr s.workers[workerId]? (stateInvariant "worker disappeared during deregistration")
  if worker.currentTasks ≠ 0 then
    throw (stateInvariant "worker retained active tasks after recovery")
  set { s with workers := s.workers.insert workerId (worker.retired nextGeneration) }
  commit revision nowSecs
  return ⟨revision, ⟨1, tasksRequeued, tasksFailed⟩⟩

def recoverExpiredLeases :
    Coordinator (Transition RecoverySummary) := do
  let s ← get
  let revision ← s.preflightCommand expectedRevision nowSecs
  let taskIds := leasedTaskIds s fun lease => lease.expiresAt ≤ nowSecs
  preflightRecovery s taskIds
  let workers := (taskIds.filterMap fun taskId =>
    s.tasks[taskId]?.bind fun entry => entry.task.assignedTo).dedup
  let (tasksRequeued, tasksFailed) ← recoverTasks nowSecs taskIds 0 0
  commit revision nowSecs
  return ⟨revision, ⟨workers.length, tasksRequeued, tasksFailed⟩⟩

/-- The workers whose last heartbeat is older than the timeout. -/
def deadWorkers : List String :=
  (s.workers.toList.filter fun (_, worker) =>
    worker.status ≠ .offline &&
      s.limits.heartbeatTimeoutSecs < nowSecs - worker.lastHeartbeat).map (·.1)

/-- A dead worker has a next generation. -/
def preflightPrune : Except DistributedError Unit := do
  let worker ←
    okOr s.workers[workerId]? (stateInvariant "dead worker disappeared during preflight")
  let _ ← nextCounter worker.generation "worker_generation"

/-- A dead worker goes offline. -/
def pruneWorker : Coordinator Unit := do
  let s ← get
  let worker ← okOr s.workers[workerId]? (stateInvariant "dead worker disappeared during prune")
  if worker.currentTasks ≠ 0 then throw (stateInvariant "pruned worker retained active tasks")
  let generation ← nextCounter worker.generation "worker_generation"
  set { s with workers := s.workers.insert workerId (worker.retired generation) }

def pruneWorkers : List String → Coordinator Unit
  | [] => pure ()
  | workerId :: workerIds => do
    pruneWorker workerId
    pruneWorkers workerIds

def pruneDeadWorkers :
    Coordinator (Transition RecoverySummary) := do
  let s ← get
  let revision ← s.preflightCommand expectedRevision nowSecs
  let dead := deadWorkers s nowSecs
  Checked.each (preflightPrune s) dead
  let taskIds := leasedTaskIds s fun lease => dead.contains lease.workerId
  preflightRecovery s taskIds
  let (tasksRequeued, tasksFailed) ← recoverTasks nowSecs taskIds 0 0
  pruneWorkers dead
  commit revision nowSecs
  return ⟨revision, ⟨dead.length, tasksRequeued, tasksFailed⟩⟩

/-- The active tasks that have reached the age `taskTtlSecs`. -/
def agedTasks (nowSecs taskTtlSecs : Nat) : List String :=
  (s.tasks.toList.filter fun (_, entry) =>
    entry.task.status.isActive && taskTtlSecs ≤ entry.task.ageSecs nowSecs).map (·.1)

/-- The per-task part of the expiry preflight. -/
def preflightExpiry (taskId : String) : Except DistributedError Unit := do
  let entry ← okOr s.tasks[taskId]? (stateInvariant "expiring task disappeared during preflight")
  let _ ← nextCounter entry.task.recordVersion "record_version"
  match entry.task.status with
  | .queued => ensureQueueEntry s entry
  | .leased | .running => do
    let lease ← okOr entry.task.lease (stateInvariant "leased task has no lease during expiry")
    preflightWorkerRelease s lease
  | _ => pure ()

def expireTask (taskId : String) : Coordinator Unit := do
  let s ← get
  let entry ← okOr s.tasks[taskId]? (stateInvariant "expiring task disappeared")
  let task := entry.task
  let recordVersion ← nextCounter task.recordVersion "record_version"
  match task.status with
  | .queued => terminalizeQueuedTask taskId .expired nowSecs recordVersion
  | .leased | .running => do
    let lease ← okOr task.lease (stateInvariant "leased task lost lease during expiry")
    terminalizeLeasedTask lease .expired nowSecs recordVersion
  | _ => pure ()

def expireTasks (nowSecs : Nat) : List String → Coordinator Unit
  | [] => pure ()
  | taskId :: taskIds => do
    expireTask nowSecs taskId
    expireTasks nowSecs taskIds

def expireOldTasks (expectedRevision nowSecs taskTtlSecs : Nat) :
    Coordinator (Transition Nat) := do
  if taskTtlSecs = 0 then throw (invalidLimit "task_ttl_secs")
  let s ← get
  let revision ← s.preflightCommand expectedRevision nowSecs
  if s.limits.maxTaskTtlSecs < taskTtlSecs then
    throw (invalidLimitRelationship "task_ttl_secs exceeds configured maximum")
  let taskIds := agedTasks s nowSecs taskTtlSecs
  Checked.each (preflightExpiry s) taskIds
  expireTasks nowSecs taskIds
  commit revision nowSecs
  return ⟨revision, taskIds.length⟩

/-! ### Requests -/

/-- A call of a client. -/
inductive Request where
  | enqueue (expectedRevision nowSecs : Nat) (spec : TaskSpec)
  | registerWorker (expectedRevision nowSecs : Nat) (spec : WorkerSpec)
  | reactivateWorker (expectedRevision nowSecs expectedGeneration : Nat) (spec : WorkerSpec)
  | updateWorker (expectedRevision nowSecs : Nat) (workerId : String) (workerGeneration : Nat)
      (observation : WorkerObservation)
  | assignTask (expectedRevision nowSecs : Nat) (taskId workerId : String) (leaseTtlSecs : Nat)
  | assignNext (expectedRevision nowSecs : Nat) (workerId : String) (leaseTtlSecs : Nat)
  | assignNextAvailable (expectedRevision nowSecs leaseTtlSecs : Nat)
  | startTask (expectedRevision nowSecs : Nat) (lease : TaskLease)
  | completeTask (expectedRevision nowSecs : Nat) (lease : TaskLease)
  | cancelTask (expectedRevision nowSecs : Nat) (ownership : TaskOwnership)
  | failTask (expectedRevision nowSecs : Nat) (lease : TaskLease)
  | deregisterWorker (expectedRevision nowSecs : Nat) (workerId : String) (workerGeneration : Nat)
  | recoverExpiredLeases (expectedRevision nowSecs : Nat)
  | pruneDeadWorkers (expectedRevision nowSecs : Nat)
  | expireOldTasks (expectedRevision nowSecs taskTtlSecs : Nat)

/-- What a successful call returns. -/
inductive Reply where
  | task (transition : Transition ScanTask)
  | worker (transition : Transition WorkerNode)
  | lease (transition : Transition TaskLease)
  | start (transition : Transition StartOutcome)
  | completion (transition : Transition CompletionOutcome)
  | cancellation (transition : Transition CancellationOutcome)
  | failure (transition : Transition FailureOutcome)
  | recovery (transition : Transition RecoverySummary)
  | expired (transition : Transition Nat)

def exec : Request → Coordinator Reply
  | .enqueue r t spec => .task <$> enqueue r t spec
  | .registerWorker r t spec => .worker <$> registerWorker r t spec
  | .reactivateWorker r t g spec => .worker <$> reactivateWorker r t g spec
  | .updateWorker r t w g obs => .worker <$> updateWorkerObservation r t w g obs
  | .assignTask r t task w ttl => .lease <$> assignTask r t task w ttl
  | .assignNext r t w ttl => .lease <$> assignNext r t w ttl
  | .assignNextAvailable r t ttl => .lease <$> assignNextAvailable r t ttl
  | .startTask r t lease => .start <$> startTask r t lease
  | .completeTask r t lease => .completion <$> completeTask r t lease
  | .cancelTask r t ownership => .cancellation <$> cancelTask r t ownership
  | .failTask r t lease => .failure <$> failTask r t lease
  | .deregisterWorker r t w g => .recovery <$> deregisterWorker r t w g
  | .recoverExpiredLeases r t => .recovery <$> recoverExpiredLeases r t
  | .pruneDeadWorkers r t => .recovery <$> pruneDeadWorkers r t
  | .expireOldTasks r t ttl => .expired <$> expireOldTasks r t ttl

/-! ### The self-check -/

/-- A worker and the generation a lease names. -/
structure LeaseHolder where
  workerId : String
  generation : Nat
  deriving DecidableEq

namespace LeaseHolder

instance : Ord LeaseHolder where
  compare := compareLex (compareOn (·.workerId)) (compareOn (·.generation))

instance : Std.TransOrd LeaseHolder :=
  inferInstanceAs (Std.TransCmp (compareLex (compareOn LeaseHolder.workerId)
    (compareOn LeaseHolder.generation)))

instance : Std.LawfulEqOrd LeaseHolder :=
  lawfulEqCmp_compareLex (by simp [compareOn]) (by simp [compareOn]) (by
    rintro ⟨w, g⟩ ⟨w', g'⟩ h1 h2
    simp only [compareOn, Std.LawfulEqOrd.compare_eq_iff_eq] at h1 h2
    rw [h1, h2])

end LeaseHolder

/-- What the self-check has seen of the records so far. -/
structure Observed where
  queue : BTreeSet QueueKey := ∅
  workerLeases : BTreeMap LeaseHolder Nat := ∅

/-- One record of the self-check. -/
def checkEntry (seen : Observed) (entry : TaskEntry) : Except DistributedError Observed := do
  if entry.task.recordVersion = 0 then
    throw (stateInvariant "retained task has zero record version")
  match entry.task.status with
  | .queued => do
    let key ← okOr entry.queueKey (stateInvariant "queued task has no queue key")
    if key.taskId ≠ entry.task.taskId ∨ seen.queue.contains key then
      throw (stateInvariant "queued task has duplicate or mismatched queue key")
    if entry.task.lease.isSome ∨ entry.task.assignedTo.isSome then
      throw (stateInvariant "queued task retains lease ownership")
    return { seen with queue := seen.queue.insert key }
  | .leased | .running => do
    if entry.queueKey.isSome then throw (stateInvariant "leased task still has a queue key")
    let lease ← okOr entry.task.lease (stateInvariant "leased task has no lease")
    if entry.task.assignedTo ≠ some lease.workerId ∨
        entry.task.taskGeneration ≠ lease.taskGeneration ∨
        entry.task.attempt ≠ lease.attempt then
      throw (stateInvariant "task record disagrees with its lease")
    let holder : LeaseHolder := ⟨lease.workerId, lease.workerGeneration⟩
    let count ← nextU32 (seen.workerLeases[holder]?.getD 0) "invariant_worker_leases"
    return { seen with workerLeases := seen.workerLeases.insert holder count }
  | _ => do
    if entry.queueKey.isSome ∨ entry.task.lease.isSome ∨ entry.task.assignedTo.isSome then
      throw (stateInvariant "terminal task retains active ownership")
    return seen

/-- One worker of the self-check. -/
def checkWorker (workerLeases : BTreeMap LeaseHolder Nat) (worker : WorkerNode) :
    Except DistributedError Unit :=
  let expected := workerLeases[(⟨worker.workerId, worker.generation⟩ : LeaseHolder)]?.getD 0
  if worker.currentTasks ≠ expected ∨ worker.capacity < worker.currentTasks then
    throw (stateInvariant "worker counter disagrees with active leases")
  else pure ()

/-- One lease holder of the self-check. -/
def checkHolder (holder : LeaseHolder) : Except DistributedError Unit := do
  let worker ←
    okOr s.workers[holder.workerId]? (stateInvariant "lease references an unknown worker")
  if worker.generation ≠ holder.generation then
    throw (stateInvariant "lease references a stale worker generation")

def checkStateInvariants : Except DistributedError Unit := do
  if s.limits.maxTaskRecords < s.tasks.size ∨ s.limits.maxActiveTasks < s.activeTasks ∨
      s.limits.maxQueuedTasks < s.queue.size ∨ s.limits.maxTerminalTasks < s.terminalTasks ∨
      s.limits.maxWorkers < s.workers.size then
    throw (stateInvariant "configured bound was exceeded")
  let active := countOf s.tasks fun _ entry => entry.task.status.isActive
  let terminal := s.tasks.size - active
  if active ≠ s.activeTasks ∨ terminal ≠ s.terminalTasks then
    throw (stateInvariant "task counters disagree with records")
  let seen ← s.tasks.toList.foldlM (fun seen (_, entry) => checkEntry seen entry) {}
  if seen.queue ≠ s.queue then
    throw (stateInvariant "queue keys disagree with queued task records")
  Checked.each (fun (_, worker) => checkWorker seen.workerLeases worker) s.workers.toList
  Checked.each (fun (holder, _) => checkHolder s holder) seen.workerLeases.toList

end Termivar.Distributed
