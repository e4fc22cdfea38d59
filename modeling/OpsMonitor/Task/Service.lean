import OpsMonitor.Task.Repository

/-! The operations of the task engine (`services/task_service.py`). Each one is a transaction:
it reads and changes the tables in the source's order and commits at the end, or raises and
leaves them as they were. The clock is read once for each operation. -/

namespace OpsMonitor.Task
open Library

/-! ## Status aggregation -/

/-- The dictionary that keeps, for each target, the execution with the highest attempt. -/
def latestStep (latest : List OpsTaskExecution) (execution : OpsTaskExecution) :
    List OpsTaskExecution :=
  match latest.find? fun e => e.targetId = execution.targetId with
  | none => latest ++ [execution]
  | some current =>
    if execution.attempt > current.attempt then
      latest.map fun e => if e.targetId = execution.targetId then execution else e
    else latest

def latestAttempts (executions : List OpsTaskExecution) : List OpsTaskExecution :=
  executions.foldl latestStep []

/-- The decision of `_aggregate_task_status` on the set of latest statuses. -/
def aggregateStatus (statuses : List ExecutionStatus) : TaskStatus :=
  if .retrying ∈ statuses then .retrying
  else if statuses.any fun s => s = .pending ∨ s = .running then .running
  else if .dead ∈ statuses then .dead
  else if statuses.any fun s => s = .failed ∨ s = .timeout then .failed
  else if statuses.all fun s => s = .success then .success
  else if statuses.all fun s => s = .cancelled then .cancelled
  else if .success ∈ statuses then .success
  else .failed

/-- `_aggregate_task_status`. -/
def aggregateTaskStatus (db : Db) (now : Time) (taskId : ℕ) : Db :=
  let executions := db.listByTask taskId
  if executions = [] then db.withTask taskId fun t => { t with status := .pending }
  else
    let status := aggregateStatus ((latestAttempts executions).map (·.status))
    db.withTask taskId fun t =>
      { t with
        status := status
        finishedAt := if status.finished then some now else t.finishedAt }

/-! ## Creation, confirmation, cancellation -/

def taskTypeAction : String → Option (Option Action)
  | "SERVICE_CHECK" => some (some .status)
  | "SERVICE_ACTION" => some none
  | "SERVICE_LOG" => some (some .logs)
  | _ => none

def Action.name : Action → String
  | .status => "STATUS"
  | .start => "START"
  | .stop => "STOP"
  | .restart => "RESTART"
  | .logs => "LOGS"

def normalizeAction (data : TaskCreate) : Except Failure Action :=
  match taskTypeAction data.taskType with
  | none => .error (.keyError data.taskType)
  | some (some allowed) =>
    if data.action = none ∨ data.action = some allowed.name then .ok allowed
    else .error (.app ⟨.taskActionInvalid, data.taskType ++ " 仅支持 " ++ allowed.name, 400⟩)
  | some none =>
    match data.action with
    | some "START" => .ok .start
    | some "STOP" => .ok .stop
    | some "RESTART" => .ok .restart
    | _ => .error (.app ⟨.taskActionInvalid, "SERVICE_ACTION 需指定 START/STOP/RESTART", 400⟩)

def validateServers (db : Db) (serverIds : List ℕ) : Except Failure (List OpsServer) :=
  serverIds.dedup.mapM fun sid =>
    match getServer db.servers sid with
    | none => .error (.app ⟨.serverNotFound, "服务器不存在: " ++ toString sid, 404⟩)
    | some server => .ok server

def validateServiceWhitelist (db : Db) (servers : List OpsServer) (serviceName : Option String)
    (action : Action) : Except Failure Unit :=
  if action = .status ∨ action = .logs then .ok ()
  else
    match serviceName with
    | none | some "" => .error (.app ⟨.badRequest, "缺少目标服务", 400⟩)
    | some name =>
      servers.forM fun server =>
        if ∃ s ∈ getByServerService db.services server.id name, s.isWhitelisted = 1 then .ok ()
        else
          .error (.app ⟨.serviceNotWhitelisted,
            server.hostname ++ " 上的服务 " ++ name ++ " 不允许受控操作", 403⟩)

/-- The row that `create_task` inserts. -/
def newTask (now : Time) (data : TaskCreate) (action : Action) (creatorId : ℕ)
    (idempotencyKey : Option String) : OpsTask :=
  let confirmRequired := data.confirmationRequired.getD action.confirmRequired
  { id := 0
    taskName := data.taskName
    taskType := data.taskType
    action := action
    serviceName := data.serviceName
    scheduleType := data.scheduleType
    cronExpression := data.cronExpression
    status := if data.scheduleType = "CRON" ∨ confirmRequired then .created else .pending
    createdBy := creatorId
    startedAt := none
    finishedAt := none
    timeoutSeconds := data.timeoutSeconds
    maxAttempts := data.maxAttempts
    attempt := 0
    deadlineAt := some (now + Clock.seconds (data.timeoutSeconds * data.maxAttempts))
    idempotencyKey := idempotencyKey
    confirmationRequired := confirmRequired
    confirmedBy := none
    confirmedAt := none
    createdAt := now }

/-- The part of `create_task` after the lookup of the idempotency key. -/
def insertTask (db : Db) (now : Time) (data : TaskCreate) (creatorId : ℕ)
    (idempotencyKey : Option String) : Except Failure (Db × OpsTask) := do
  let action ← normalizeAction data
  let servers ← validateServers db data.serverIds
  validateServiceWhitelist db servers data.serviceName action
  let (db, task) ← db.createTaskRow (newTask now data action creatorId idempotencyKey)
  let (db, targets) := db.createTargets task.id (servers.map (·.id))
  let db ← if data.scheduleType = "ONCE" then db.createExecutions task.id targets else pure db
  pure (db, task)

def createTask (db : Db) (now : Time) (data : TaskCreate) (creatorId : ℕ)
    (idempotencyKey : Option String) : Except Failure (Db × OpsTask) :=
  match idempotencyKey.bind db.getByIdempotencyKey with
  | some existing => .ok (db, existing)
  | none => insertTask db now data creatorId idempotencyKey

def getTaskEntity (db : Db) (taskId : ℕ) : Except Failure OpsTask :=
  match db.tasks.get? taskId with
  | none => .error (.app ⟨.taskNotFound, "任务不存在", 404⟩)
  | some task => .ok task

def confirmTask (db : Db) (now : Time) (taskId operatorId : ℕ) : Except Failure Db := do
  let task ← getTaskEntity db taskId
  if task.status ≠ .created then .error (.app ⟨.badRequest, "任务当前无需确认", 400⟩)
  else
    pure (db.withTask task.id fun t =>
      { t with status := .pending, confirmedBy := some operatorId, confirmedAt := some now })

/-- One turn of the cancellation loop: only an execution nobody claimed is cancelled. -/
def cancelExecution (now : Time) (db : Db) (execution : OpsTaskExecution) : Db :=
  if execution.status = .pending then
    db.withExecution execution.id (.finish now .cancelled none none (some "任务被取消") none)
  else db

def cancelTask (db : Db) (now : Time) (taskId : ℕ) : Except Failure Db := do
  let task ← getTaskEntity db taskId
  if task.status.finished then .error (.app ⟨.badRequest, "任务已结束，无法取消", 400⟩)
  else pure (aggregateTaskStatus ((db.listByTask task.id).foldl (cancelExecution now) db) now task.id)

/-! ## Polls and reports of the agents -/

/-- One turn of the claim loop. The join of the query guarantees the task. -/
def claimExecution (now : Time) (acc : Db × List PendingTask) (execution : OpsTaskExecution) :
    Db × List PendingTask :=
  match acc.1.tasks.get? execution.taskId with
  | none => acc
  | some task =>
    let db := acc.1.withExecution execution.id (.markRunning now)
    let db := db.withTask task.id fun t =>
      { t with status := .running, startedAt := t.startedAt <|> some now }
    (db, acc.2 ++ [⟨execution.id, task.id, task.action, task.serviceName, task.timeoutSeconds⟩])

def fetchPending (db : Db) (now : Time) (serverId : ℕ) : Db × List PendingTask :=
  (db.fetchPendingByServer serverId 10).foldl (claimExecution now) (db, [])

/-- Whether a retry still fits into the attempts and the deadline of the task. -/
def canRetry (task : OpsTask) (execution : OpsTaskExecution) (now : Time) : Bool :=
  if execution.attempt ≥ task.maxAttempts then false
  else
    match task.deadlineAt with
    | some deadlineAt => now < deadlineAt
    | none => true

theorem canRetry_iff {t : OpsTask} {e : OpsTaskExecution} {now : Time} :
    canRetry t e now = true ↔ e.attempt < t.maxAttempts ∧ ∀ d ∈ t.deadlineAt, now < d := by
  unfold canRetry
  split_ifs with h
  · simp [h]
  · cases t.deadlineAt <;> simp [not_le.mp h]

/-- The write of a report on an execution that is not finished: the row, then the log. -/
def recordResult (db : Db) (now : Time) (task : OpsTask) (execution : OpsTaskExecution)
    (data : TaskResultRequest) : Db :=
  if data.status = "SUCCESS" then
    (db.withExecution execution.id
      (.finish now .success data.exitCode data.resultText none none)).record execution.id
        (orText data.logs (orText data.resultText "执行成功")) "INFO"
  else
    let failedType := Retry.classifyError data.errorType data.errorMessage
    if Retry.isRetryable data.errorType data.errorMessage then
      if canRetry task execution now then
        let nextRetryAt := now + Clock.seconds (Retry.backoffSeconds execution.attempt)
        (db.withExecution execution.id
          (.markRetrying now failedType data.errorMessage nextRetryAt)).record execution.id
            ("第 " ++ toString execution.attempt ++ " 次执行失败（" ++ failedType ++ "），计划 " ++
              Clock.isoformat nextRetryAt ++ " 重试") "ERROR"
      else
        (db.withExecution execution.id
          (.markDead now failedType (some (orText data.errorMessage "重试预算耗尽")))).record
            execution.id ("执行失败且不可再重试（" ++ failedType ++ "）") "ERROR"
    else
      (db.withExecution execution.id
        (.finish now .failed data.exitCode none data.errorMessage (some failedType))).record
          execution.id (orText data.errorMessage "执行失败") "ERROR"

def reportResult (db : Db) (now : Time) (serverId : ℕ) (data : TaskResultRequest) :
    Except Failure Db :=
  match db.executions.get? data.executionId with
  | none => .error (.app ⟨.taskExecutionNotFound, "执行记录不存在", 404⟩)
  | some execution =>
    if execution.serverId ≠ serverId then
      .error (.app ⟨.taskExecutionNotFound, "执行记录不存在", 404⟩)
    else if execution.status.finished then .ok db
    else do
      let task ← getTaskEntity db execution.taskId
      pure (aggregateTaskStatus (recordResult db now task execution data) now task.id)

/-! ## Scheduler jobs -/

/-- One turn of the timeout scan, for a task read as `RUNNING`. -/
def scanTask (now : Time) (acc : Db × ℕ) (task : OpsTask) : Db × ℕ :=
  let expired := (acc.1.listByTask task.id).filter (·.isExpired now task.timeoutSeconds)
  let db := expired.foldl (fun db e => db.withExecution e.id (.markTimeout now task.timeoutSeconds)) acc.1
  (if expired = [] then db else aggregateTaskStatus db now task.id, acc.2 + expired.length)

def scanTimeouts (db : Db) (now : Time) : Db × ℕ :=
  (db.tasks.select fun t => t.status = .running).foldl (scanTask now) (db, 0)

/-- One turn of the retry dispatch, for an execution read as due. -/
def dispatchExecution (now : Time) (acc : Db × ℕ) (execution : OpsTaskExecution) :
    Except Failure (Db × ℕ) := do
  let (db, created) := acc
  let task ← getTaskEntity db execution.taskId
  let archive := OpsTaskExecution.finish now .failed none none execution.errorMessage
    execution.errorType
  if task.status.finished then pure (db.withExecution execution.id archive, created)
  else if canRetry task execution now = false then
    let db := db.withExecution execution.id
      (.markDead now (orText execution.errorType Retry.unknownErrorType)
        (some (orText execution.errorMessage "重试预算耗尽")))
    let db := db.record execution.id "重试预算耗尽，任务终止" "ERROR"
    pure (aggregateTaskStatus db now task.id, created)
  else
    let nextAttempt := execution.attempt + 1
    let db := db.withExecution execution.id archive
    let db ← db.createExecution task.id execution.targetId execution.serverId nextAttempt
    let db := db.withTask task.id fun t => { t with attempt := nextAttempt }
    let db := db.resetTarget execution.targetId
    let db := db.record execution.id ("已创建第 " ++ toString nextAttempt ++ " 次尝试") "INFO"
    pure (aggregateTaskStatus db now task.id, created + 1)

def dispatchRetries (db : Db) (now : Time) (limit : ℕ) : Except Failure (Db × ℕ) :=
  (db.listDueRetries now limit).foldlM (dispatchExecution now) (db, 0)

/-- The third-party schedule evaluation: the next instant of an expression after a base, or
nothing when the expression is rejected. -/
abbrev CronIter := String → Time → Option Time

/-- One turn of the CRON scan. A rejected expression is logged and skipped. -/
def fireTask (croniter : CronIter) (now : Time) (acc : Db × ℕ) (task : OpsTask) :
    Except Failure (Db × ℕ) := do
  let (db, fired) := acc
  if task.scheduleType ≠ "CRON" then pure acc
  else match task.cronExpression with
  | none | some "" => pure acc
  | some expression =>
    match croniter expression task.createdAt with
    | none => pure acc
    | some nextTime =>
      if nextTime ≤ now then
        let db ← db.createExecutions task.id (db.listTargets task.id)
        pure (db.withTask task.id fun t =>
          { t with status := .running, startedAt := t.startedAt <|> some now }, fired + 1)
      else pure acc

def fireDueCron (croniter : CronIter) (db : Db) (now : Time) : Except Failure (Db × ℕ) :=
  db.listPendingCron.foldlM (fireTask croniter now) (db, 0)

def cleanupHistory (db : Db) (now : Time) (retentionDays : ℤ) : Db × (ℕ × ℕ) :=
  let cutoff := now - Clock.days retentionDays
  let (db, executions) := db.deleteTerminalBefore cutoff
  let (db, tasks) := db.deleteFinishedTasksBefore cutoff
  (db, executions, tasks)

end OpsMonitor.Task
