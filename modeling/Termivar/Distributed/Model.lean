/-
# The in-process coordinator: records and limits

The data of `distributed.rs`, `distributed/limits.rs`, `distributed/model.rs`,
`distributed/lease.rs`, `distributed/worker.rs` and `distributed/queue.rs`:
the limits and their validation, the admission records and their validation,
the task and worker records, the ownership tokens and the receipts.
-/
import Termivar.Collections
import Termivar.Machine
import Termivar.Command

namespace Termivar.Distributed

/-! ### Tasks -/

/-- Task priority. Higher priorities are selected first. -/
inductive TaskPriority where
  | low
  | normal
  | high
  | critical
  deriving DecidableEq

def TaskPriority.toNat : TaskPriority → Nat
  | .low => 1
  | .normal => 2
  | .high => 3
  | .critical => 4

/-- Exact task lifecycle state. -/
inductive TaskStatus where
  | queued
  | leased
  | running
  | completed
  | failed
  | cancelled
  | expired
  deriving DecidableEq

def TaskStatus.isActive : TaskStatus → Bool
  | .queued | .leased | .running => true
  | _ => false

/-! ### Failures -/

/-- Typed state-machine failures. -/
inductive DistributedError where
  | invalidLimit (name : String)
  | invalidLimitRelationship (reason : String)
  | countLimitExceedsMaximum (name : String) (actual maximum : Nat)
  | timeLimitExceedsMaximum (name : String) (actual maximum : Nat)
  | retryLimitExceedsMaximum (actual maximum : Nat)
  | invalidTask (reason : String)
  | invalidWorker (reason : String)
  | revisionConflict (expected actual : Nat)
  | logicalTimeRegression (current proposed : Nat)
  | counterExhausted (counter : String)
  | taskAlreadyExists (taskId : String)
  | taskNotFound (taskId : String)
  | workerAlreadyExists (workerId : String)
  | workerNotFound (workerId : String)
  | workerGenerationConflict (expected actual : Nat)
  | taskRecordCapacityReached (limit : Nat)
  | activeTaskCapacityReached (limit : Nat)
  | queuedTaskCapacityReached (limit : Nat)
  | terminalCapacityReserved (limit : Nat)
  | workerCapacityReached (limit : Nat)
  | noQueuedTask
  | noAvailableWorker
  | workerUnavailable (workerId : String)
  | workerAtCapacity (workerId : String)
  | taskNotQueued (taskId : String) (status : TaskStatus)
  | invalidTransition (taskId : String) (status : TaskStatus) (operation : String)
  | staleOwnership (taskId : String)
  | leaseExpired (taskId : String)
  | stateInvariant (reason : String)
  deriving DecidableEq

/-- The failure reports that the state contradicts itself. -/
def DistributedError.IsStateInvariant : DistributedError → Prop
  | .stateInvariant _ => True
  | _ => False

/-! ### Limits -/

def maxIdentifierBytes : Nat := 256
def maxTargetRefBytes : Nat := 1024
def maxTaskPhases : Nat := 256
def maxWorkerTags : Nat := 5
def utilizationBasisPoints : Nat := 10000
def maxTaskRecords : Nat := 65536
def maxActiveTasks : Nat := 16384
def maxWorkers : Nat := 4096
def maxRetries : Nat := 32
def maxWorkerCapacity : Nat := 4096
def maxLeaseTtlSecs : Nat := 86400
def maxTaskTtlSecs : Nat := 31 * 86400
def maxHeartbeatTimeoutSecs : Nat := 86400

/-- Hard coordinator bounds and fixed recovery policy. -/
structure DistributedLimits where
  maxTaskRecords : Nat := 4096
  maxActiveTasks : Nat := 1024
  maxQueuedTasks : Nat := 1024
  maxTerminalTasks : Nat := 4096
  maxWorkers : Nat := 256
  maxRetries : Nat := 3
  maxLeaseTtlSecs : Nat := 3600
  maxTaskTtlSecs : Nat := 86400
  heartbeatTimeoutSecs : Nat := 60

/-- No value of the list is zero. -/
def requireNonzero (fields : List (String × Nat)) : Except DistributedError Unit :=
  Checked.each (fun (name, value) => if value = 0 then throw (.invalidLimit name) else pure ()) fields

/-- No value of the list exceeds its maximum. -/
def requireAtMost (exceeds : String → Nat → Nat → DistributedError)
    (fields : List (String × Nat × Nat)) : Except DistributedError Unit :=
  Checked.each (fun (name, actual, maximum) =>
    if maximum < actual then throw (exceeds name actual maximum) else pure ()) fields

def validateLimits (limits : DistributedLimits) : Except DistributedError Unit := do
  requireNonzero
    [("max_task_records", limits.maxTaskRecords),
     ("max_active_tasks", limits.maxActiveTasks),
     ("max_queued_tasks", limits.maxQueuedTasks),
     ("max_terminal_tasks", limits.maxTerminalTasks),
     ("max_workers", limits.maxWorkers)]
  requireAtMost .countLimitExceedsMaximum
    [("max_task_records", limits.maxTaskRecords, maxTaskRecords),
     ("max_active_tasks", limits.maxActiveTasks, maxActiveTasks),
     ("max_queued_tasks", limits.maxQueuedTasks, maxActiveTasks),
     ("max_terminal_tasks", limits.maxTerminalTasks, maxTaskRecords),
     ("max_workers", limits.maxWorkers, maxWorkers)]
  requireAtMost .timeLimitExceedsMaximum
    [("max_lease_ttl_secs", limits.maxLeaseTtlSecs, maxLeaseTtlSecs),
     ("max_task_ttl_secs", limits.maxTaskTtlSecs, maxTaskTtlSecs),
     ("heartbeat_timeout_secs", limits.heartbeatTimeoutSecs, maxHeartbeatTimeoutSecs)]
  if maxRetries < limits.maxRetries then
    throw (.retryLimitExceedsMaximum limits.maxRetries maxRetries)
  requireNonzero
    [("max_lease_ttl_secs", limits.maxLeaseTtlSecs),
     ("max_task_ttl_secs", limits.maxTaskTtlSecs),
     ("heartbeat_timeout_secs", limits.heartbeatTimeoutSecs)]
  if limits.maxTaskRecords < limits.maxActiveTasks then
    throw (.invalidLimitRelationship "max_active_tasks exceeds max_task_records")
  if limits.maxActiveTasks < limits.maxQueuedTasks then
    throw (.invalidLimitRelationship "max_queued_tasks exceeds max_active_tasks")
  if limits.maxTaskRecords < limits.maxTerminalTasks then
    throw (.invalidLimitRelationship "max_terminal_tasks exceeds max_task_records")
  if limits.maxTerminalTasks < limits.maxActiveTasks then
    throw (.invalidLimitRelationship "max_terminal_tasks is smaller than max_active_tasks")

/-- The default limits pass their own validation. -/
theorem validateLimits_default : validateLimits {} = .ok () := by decide

/-! ### Identifiers -/

def identifierIsSafe (value : String) : Bool :=
  value.toList.all fun c => c.isAlphanum || c == '-' || c == '_' || c == '.' || c == ':'

/-- The identifier is empty, too long, or has a character it may not have:
which of the three, in the words of the source for `field`. -/
def validateIdentifier (value field : String) : Except DistributedError Unit := do
  let known := if field = "task_id" ∨ field = "scan_id" then field else "identifier"
  if value.utf8ByteSize = 0 then throw (.invalidTask (known ++ " is empty"))
  if maxIdentifierBytes < value.utf8ByteSize then throw (.invalidTask (known ++ " is too long"))
  if !identifierIsSafe value then throw (.invalidTask (known ++ " contains unsafe characters"))

/-- The three checks an identifier of a command must pass. -/
def commandIdIsValid (value : String) : Bool :=
  value.utf8ByteSize ≠ 0 && value.utf8ByteSize ≤ maxIdentifierBytes && identifierIsSafe value

def validateTaskCommandId (value : String) : Except DistributedError Unit :=
  if !commandIdIsValid value then throw (.invalidTask "task command identifier is invalid")
  else pure ()

def validateWorkerCommandId (value : String) : Except DistributedError Unit :=
  if !commandIdIsValid value then throw (.invalidWorker "worker command identifier is invalid")
  else pure ()

/-- Fresh task admission data. -/
structure TaskSpec where
  (taskId scanId targetRef : String)
  phases : Bytes
  priority : TaskPriority

def validateTaskSpec (spec : TaskSpec) : Except DistributedError Unit := do
  validateIdentifier spec.taskId "task_id"
  validateIdentifier spec.scanId "scan_id"
  if spec.targetRef.utf8ByteSize = 0 then throw (.invalidTask "target_ref is empty")
  if maxTargetRefBytes < spec.targetRef.utf8ByteSize then
    throw (.invalidTask "target_ref is too long")
  if maxTaskPhases < spec.phases.length then throw (.invalidTask "too many phases")

/-! ### Workers -/

/-- Observational worker metadata tags. -/
inductive WorkerTag where
  | linux
  | windows
  | gpu
  | internal
  | external
  deriving DecidableEq, Ord

/-- Worker eligibility state. -/
inductive WorkerStatus where
  | healthy
  | busy
  | degraded
  | offline
  deriving DecidableEq

/-- Caller-provided worker admission record. -/
structure WorkerSpec where
  workerId : String
  capacity : Nat
  cpuBasisPoints : Nat := 0
  memoryBasisPoints : Nat := 0
  networkBasisPoints : Nat := 0
  tags : BTreeSet WorkerTag := ∅

/-- Caller-supplied heartbeat and resource observation. -/
structure WorkerObservation where
  status : WorkerStatus := .healthy
  cpuBasisPoints : Nat := 0
  memoryBasisPoints : Nat := 0
  networkBasisPoints : Nat := 0

/-- Coordinator-owned worker record. -/
structure WorkerNode where
  workerId : String
  generation : Nat
  status : WorkerStatus
  (capacity currentTasks completedTasks lastHeartbeat cpuBasisPoints memoryBasisPoints : Nat)
  networkBasisPoints : Nat
  tags : BTreeSet WorkerTag

namespace WorkerNode

variable (w : WorkerNode)

def effectiveCapacity : Nat :=
  if w.status ≠ .healthy then 0
  else
    let maxLoad := max (max w.cpuBasisPoints w.memoryBasisPoints) w.networkBasisPoints
    let free := utilizationBasisPoints - maxLoad
    (w.capacity * free) ⌈/⌉ utilizationBasisPoints

def availableSlots : Nat := w.effectiveCapacity - w.currentTasks

def isEligible (nowSecs heartbeatTimeoutSecs : Nat) : Bool :=
  w.status = .healthy && nowSecs - w.lastHeartbeat ≤ heartbeatTimeoutSecs && 0 < w.availableSlots

/-- Slots, freshness of the heartbeat, then the three free utilizations. -/
def selectionKey (nowSecs : Nat) : List Nat :=
  [w.availableSlots, u64Max - (nowSecs - w.lastHeartbeat),
    utilizationBasisPoints - w.cpuBasisPoints,
    utilizationBasisPoints - w.memoryBasisPoints,
    utilizationBasisPoints - w.networkBasisPoints]

end WorkerNode

def validateWorkerSpec (spec : WorkerSpec) : Except DistributedError Unit := do
  (validateIdentifier spec.workerId "worker_id").mapError fun _ =>
    .invalidWorker "worker_id is invalid"
  if spec.capacity = 0 then throw (.invalidWorker "capacity is zero")
  if maxWorkerCapacity < spec.capacity then
    throw (.invalidWorker "capacity exceeds absolute maximum")
  if utilizationBasisPoints < spec.cpuBasisPoints ∨
      utilizationBasisPoints < spec.memoryBasisPoints ∨
      utilizationBasisPoints < spec.networkBasisPoints then
    throw (.invalidWorker "utilization exceeds 10000 basis points")
  if maxWorkerTags < spec.tags.size then throw (.invalidWorker "too many worker tags")

/-! ### Leases, fences and receipts -/

/-- Exact logical lease fence for one worker generation and task attempt. -/
structure TaskLease where
  (taskId workerId : String)
  (workerGeneration taskGeneration attempt leaseId acquiredAt expiresAt : Nat)
  deriving DecidableEq

/-- Optimistic ownership fence for a queued task. -/
structure QueuedTaskFence where
  taskId : String
  (taskGeneration recordVersion : Nat)
  deriving DecidableEq

/-- Exact logical cancellation fence for queued or leased work. -/
inductive TaskOwnership where
  | queued (fence : QueuedTaskFence)
  | leased (lease : TaskLease)

def TaskOwnership.taskId : TaskOwnership → String
  | .queued fence => fence.taskId
  | .leased lease => lease.taskId

/-- Versioned task record. -/
structure ScanTask where
  (taskId scanId targetRef : String)
  phases : Bytes
  status : TaskStatus
  priority : TaskPriority
  createdAt : Nat
  (startedAt completedAt : Option Nat)
  (retryCount attempt taskGeneration recordVersion : Nat)
  assignedTo : Option String
  lease : Option TaskLease

namespace ScanTask

/-- The token that owns the task now. -/
def ownership (t : ScanTask) : Option TaskOwnership :=
  match t.status with
  | .queued => some (.queued ⟨t.taskId, t.taskGeneration, t.recordVersion⟩)
  | .leased | .running => t.lease.map .leased
  | _ => none

def ageSecs (t : ScanTask) (nowSecs : Nat) : Nat := nowSecs - t.createdAt

end ScanTask

inductive CancellationProof where
  | queued (fence : QueuedTaskFence)
  | leased (lease : TaskLease)

def CancellationProof.matches : CancellationProof → TaskOwnership → Bool
  | .queued left, .queued right => left = right
  | .leased left, .leased right => left = right
  | _, _ => false

inductive FailureOutcome where
  | requeued (taskGeneration retryCount recordVersion : Nat)
  | retryExhausted (retryCount recordVersion : Nat)

structure FailureProof where
  lease : TaskLease
  outcome : FailureOutcome

/-- Exact receipt for a terminal completion. -/
structure CompletionReceipt where
  taskId : String
  (taskGeneration attempt leaseId : Nat)
  workerId : String
  (workerGeneration recordVersion : Nat)
  deriving DecidableEq

def CompletionReceipt.matchesLease (r : CompletionReceipt) (lease : TaskLease) : Bool :=
  r.taskId = lease.taskId && r.taskGeneration = lease.taskGeneration &&
    r.attempt = lease.attempt && r.leaseId = lease.leaseId &&
    r.workerId = lease.workerId && r.workerGeneration = lease.workerGeneration

inductive StartOutcome where
  | started (recordVersion : Nat)
  | alreadyRunning (recordVersion : Nat)

inductive CompletionOutcome where
  | completed (receipt : CompletionReceipt)
  | alreadyCompleted (receipt : CompletionReceipt)

def CompletionOutcome.receipt : CompletionOutcome → CompletionReceipt
  | .completed r | .alreadyCompleted r => r

inductive CancellationOutcome where
  | cancelled (recordVersion : Nat)
  | alreadyCancelled (recordVersion : Nat)

/-- A successful command result and the revision after it. -/
structure Transition (α : Type) where
  revision : Nat
  value : α

/-! ### The queue -/

/-- A queued task's place: the higher priority first, then the earlier
ordinal, then the identifier. -/
structure QueueKey where
  (invertedPriority enqueueOrdinal : Nat)
  taskId : String

namespace QueueKey

def new (priority : TaskPriority) (enqueueOrdinal : Nat) (taskId : String) : QueueKey :=
  ⟨255 - priority.toNat, enqueueOrdinal, taskId⟩

instance : Ord QueueKey where
  compare := compareLex (compareOn (·.invertedPriority))
    (compareLex (compareOn (·.enqueueOrdinal)) (compareOn (·.taskId)))

instance : Std.TransOrd QueueKey :=
  inferInstanceAs (Std.TransCmp (compareLex (compareOn QueueKey.invertedPriority)
    (compareLex (compareOn QueueKey.enqueueOrdinal) (compareOn QueueKey.taskId))))

instance : Std.LawfulEqOrd QueueKey :=
  lawfulEqCmp_compareLex (by simp [compareOn]) (by simp [compareOn, compareLex]) (by
    rintro ⟨p, o, t⟩ ⟨p', o', t'⟩ h1 h2
    simp only [compareOn, compareLex, Ordering.then_eq_eq,
      Std.LawfulEqOrd.compare_eq_iff_eq] at h1 h2
    rw [h1, h2.1, h2.2])

end QueueKey

structure TaskEntry where
  task : ScanTask
  queueKey : Option QueueKey
  completion : Option CompletionReceipt
  cancellation : Option CancellationProof
  failure : Option FailureProof

/-! ### The state -/

structure CoordinatorState where
  limits : DistributedLimits
  (revision logicalTime : Nat)
  tasks : BTreeMap String TaskEntry
  queue : BTreeSet QueueKey
  workers : BTreeMap String WorkerNode
  (activeTasks terminalTasks nextEnqueueOrdinal nextLeaseId : Nat)

/-- A command on the coordinator's state. -/
abbrev Coordinator (α : Type) : Type := Command CoordinatorState DistributedError α

def nextCounter (value : Nat) (counter : String) : Except DistributedError Nat :=
  okOr (checkedAdd u64Max value 1) (.counterExhausted counter)

def nextU32 (value : Nat) (counter : String) : Except DistributedError Nat :=
  okOr (checkedAdd u32Max value 1) (.counterExhausted counter)

namespace CoordinatorState

def new (limits : DistributedLimits) : CoordinatorState where
  limits := limits
  revision := 0
  logicalTime := 0
  tasks := ∅
  queue := ∅
  workers := ∅
  activeTasks := 0
  terminalTasks := 0
  nextEnqueueOrdinal := 1
  nextLeaseId := 1

variable (s : CoordinatorState)

def preflightCommand (expectedRevision nowSecs : Nat) :
    Except DistributedError Nat := do
  if expectedRevision ≠ s.revision then throw (.revisionConflict expectedRevision s.revision)
  if nowSecs < s.logicalTime then throw (.logicalTimeRegression s.logicalTime nowSecs)
  okOr (checkedAdd u64Max s.revision 1) (.counterExhausted "revision")

def committed (revision nowSecs : Nat) : CoordinatorState :=
  { s with revision := revision, logicalTime := nowSecs }

def nextTaskId : Option String := s.queue.toList.head?.map (·.taskId)

end CoordinatorState

def commit (revision nowSecs : Nat) : Coordinator Unit :=
  modify fun s => s.committed revision nowSecs

/-- `WorkerPool::with_limits` and `TaskQueue::with_limits`: the fresh state
of a pool whose limits pass. -/
def withLimits (limits : DistributedLimits) : Except DistributedError CoordinatorState := do
  validateLimits limits
  return CoordinatorState.new limits

end Termivar.Distributed
