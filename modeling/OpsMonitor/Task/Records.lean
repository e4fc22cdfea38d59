import OpsMonitor.Server.Records
import OpsMonitor.Library.Text
import OpsMonitor.Exceptions

/-! The tables of the task engine: tasks, their target servers, one execution row for each
attempt on a target, and the execution log. -/

namespace OpsMonitor.Task
open Library

inductive ExecutionStatus
  | pending | running | success | failed | timeout | cancelled | retrying | dead
  deriving DecidableEq, Repr

inductive TaskStatus
  | created | pending | running | success | failed | timeout | cancelled | retrying | dead
  deriving DecidableEq, Repr

/-- `status in ("SUCCESS", "FAILED", "TIMEOUT", "CANCELLED", "DEAD")`, for an execution. -/
def ExecutionStatus.finished : ExecutionStatus → Bool
  | success | failed | timeout | cancelled | dead => true
  | pending | running | retrying => false

/-- `status in ("SUCCESS", "FAILED", "TIMEOUT", "CANCELLED", "DEAD")`, for a task. -/
def TaskStatus.finished : TaskStatus → Bool
  | success | failed | timeout | cancelled | dead => true
  | created | pending | running | retrying => false

inductive Action
  | status | start | stop | restart | logs
  deriving DecidableEq, Repr

/-- `CONFIRM_REQUIRED_ACTIONS`. -/
def Action.confirmRequired : Action → Bool
  | start | stop | restart => true
  | status | logs => false

structure OpsTask where
  id : ℕ
  taskName : String
  taskType : String
  action : Action
  serviceName : Option String
  scheduleType : String
  cronExpression : Option String
  status : TaskStatus
  createdBy : ℕ
  startedAt : Option Time
  finishedAt : Option Time
  timeoutSeconds : ℕ
  maxAttempts : ℕ
  attempt : ℕ
  deadlineAt : Option Time
  idempotencyKey : Option String
  confirmationRequired : Bool
  confirmedBy : Option ℕ
  confirmedAt : Option Time
  createdAt : Time
  deriving DecidableEq, Repr

structure OpsTaskTarget where
  id : ℕ
  taskId : ℕ
  serverId : ℕ
  targetStatus : ExecutionStatus
  deriving DecidableEq, Repr

structure OpsTaskExecution where
  id : ℕ
  taskId : ℕ
  targetId : ℕ
  serverId : ℕ
  status : ExecutionStatus
  attempt : ℕ
  nextRetryAt : Option Time
  errorType : Option String
  exitCode : Option ℤ
  resultText : Option String
  errorMessage : Option String
  startedAt : Option Time
  finishedAt : Option Time
  durationMs : Option ℤ
  deriving DecidableEq, Repr

structure OpsTaskLog where
  id : ℕ
  executionId : ℕ
  logLevel : String
  logContent : String
  deriving DecidableEq, Repr

instance : Keyed OpsTask := ⟨OpsTask.id, fun n t => { t with id := n }, fun _ _ => rfl⟩

instance : Keyed OpsTaskTarget :=
  ⟨OpsTaskTarget.id, fun n t => { t with id := n }, fun _ _ => rfl⟩

instance : Keyed OpsTaskExecution :=
  ⟨OpsTaskExecution.id, fun n e => { e with id := n }, fun _ _ => rfl⟩

instance : Keyed OpsTaskLog := ⟨OpsTaskLog.id, fun n l => { l with id := n }, fun _ _ => rfl⟩

structure Db where
  servers : Table OpsServer
  services : Table OpsServerService
  tasks : Table OpsTask
  targets : Table OpsTaskTarget
  executions : Table OpsTaskExecution
  logs : Table OpsTaskLog

/-- A database in which no task was ever created. -/
def Db.fresh (servers : Table OpsServer) (services : Table OpsServerService) : Db :=
  ⟨servers, services, .empty, .empty, .empty, .empty⟩

/-- Request body of task creation; the last fields are the bounds the schema checks. -/
structure TaskCreate where
  taskName : String
  taskType : String
  action : Option String
  serviceName : Option String
  serverIds : List ℕ
  scheduleType : String
  cronExpression : Option String
  timeoutSeconds : ℕ
  maxAttempts : ℕ
  confirmationRequired : Option Bool
  taskName_length : 1 ≤ taskName.length ∧ taskName.length ≤ 128
  serviceName_length : ∀ s ∈ serviceName, s.length ≤ 64
  serverIds_length : 1 ≤ serverIds.length
  cronExpression_length : ∀ s ∈ cronExpression, s.length ≤ 128
  timeoutSeconds_range : 10 ≤ timeoutSeconds ∧ timeoutSeconds ≤ 3600
  maxAttempts_range : 1 ≤ maxAttempts ∧ maxAttempts ≤ 10

/-- Request body of a result report. -/
structure TaskResultRequest where
  executionId : ℕ
  status : String
  exitCode : Option ℤ
  resultText : Option String
  errorMessage : Option String
  errorType : Option String
  logs : Option String
  deriving DecidableEq, Repr

/-- What a poll hands to the agent for one execution. -/
structure PendingTask where
  executionId : ℕ
  taskId : ℕ
  action : Action
  serviceName : Option String
  timeoutSeconds : ℕ
  deriving DecidableEq, Repr

end OpsMonitor.Task
