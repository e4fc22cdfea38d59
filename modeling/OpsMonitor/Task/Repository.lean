import OpsMonitor.Task.Records
import OpsMonitor.Task.Retry

/-! Reads and writes of the task tables (`repositories/task_repository.py`). Each write is an
in-place change of one row; the service layer decides which. -/

namespace OpsMonitor.Task
open Library

namespace OpsTaskExecution

/-- The row of a new attempt, with the column defaults. -/
def initial (taskId targetId serverId attempt : ℕ) : OpsTaskExecution where
  id := 0
  taskId := taskId
  targetId := targetId
  serverId := serverId
  status := .pending
  attempt := attempt
  nextRetryAt := none
  errorType := none
  exitCode := none
  resultText := none
  errorMessage := none
  startedAt := none
  finishedAt := none
  durationMs := none

/-- `int((finished_at - started_at).total_seconds() * 1000)`, kept when never started. -/
def durationAt (now : Time) (e : OpsTaskExecution) : Option ℤ :=
  match e.startedAt with
  | some startedAt => some (now - startedAt)
  | none => e.durationMs

def markRunning (now : Time) (e : OpsTaskExecution) : OpsTaskExecution :=
  { e with status := .running, startedAt := some now }

def finish (now : Time) (status : ExecutionStatus) (exitCode : Option ℤ)
    (resultText errorMessage errorType : Option String) (e : OpsTaskExecution) :
    OpsTaskExecution :=
  { e with
    status := status
    exitCode := exitCode
    resultText := resultText
    errorMessage := errorMessage
    errorType := errorType <|> e.errorType
    finishedAt := some now
    durationMs := e.durationAt now }

def markRetrying (now : Time) (errorType : String) (errorMessage : Option String)
    (nextRetryAt : Time) (e : OpsTaskExecution) : OpsTaskExecution :=
  { e with
    status := .retrying
    errorType := some errorType
    errorMessage := errorMessage
    nextRetryAt := some nextRetryAt
    finishedAt := some now
    durationMs := e.durationAt now }

def markDead (now : Time) (errorType : String) (errorMessage : Option String)
    (e : OpsTaskExecution) : OpsTaskExecution :=
  { e with
    status := .dead
    errorType := some errorType
    errorMessage := errorMessage
    nextRetryAt := none
    finishedAt := some now
    durationMs := e.durationAt now }

def isExpired (now : Time) (timeoutSeconds : ℕ) (e : OpsTaskExecution) : Bool :=
  match e.status, e.startedAt with
  | .running, some startedAt => startedAt < now - Clock.seconds timeoutSeconds
  | _, _ => false

def markTimeout (now : Time) (timeoutSeconds : ℕ) (e : OpsTaskExecution) : OpsTaskExecution :=
  { e with
    status := .timeout
    finishedAt := some now
    errorMessage := some ("执行超时（" ++ toString timeoutSeconds ++ "s）") }

end OpsTaskExecution

namespace Db

def withExecution (db : Db) (id : ℕ) (f : OpsTaskExecution → OpsTaskExecution)
    (hf : ∀ e, Keyed.key (f e) = Keyed.key e := by intro _; rfl) : Db :=
  { db with executions := db.executions.modify id f hf }

def withTask (db : Db) (id : ℕ) (f : OpsTask → OpsTask)
    (hf : ∀ t, Keyed.key (f t) = Keyed.key t := by intro _; rfl) : Db :=
  { db with tasks := db.tasks.modify id f hf }

/-- `target.target_status = "PENDING"`, when the target exists. -/
def resetTarget (db : Db) (id : ℕ) : Db :=
  { db with targets := db.targets.modify id fun g => { g with targetStatus := .pending } }

section Writes
variable {db : Db} {id : ℕ}

section
variable {f : OpsTaskExecution → OpsTaskExecution} {hf : ∀ e, Keyed.key (f e) = Keyed.key e}

@[simp] theorem tasks_withExecution : (db.withExecution id f hf).tasks = db.tasks := rfl

@[simp] theorem targets_withExecution : (db.withExecution id f hf).targets = db.targets := rfl

theorem mem_withExecution {r : OpsTaskExecution} :
    r ∈ (db.withExecution id f hf).executions ↔
      ∃ s ∈ db.executions, (if s.id = id then f s else s) = r :=
  @Table.mem_modify _ _ db.executions id f hf r

end

section
variable {f : OpsTask → OpsTask} {hf : ∀ t, Keyed.key (f t) = Keyed.key t}

@[simp] theorem executions_withTask : (db.withTask id f hf).executions = db.executions := rfl

@[simp] theorem targets_withTask : (db.withTask id f hf).targets = db.targets := rfl

theorem mem_withTask {t : OpsTask} :
    t ∈ (db.withTask id f hf).tasks ↔ ∃ s ∈ db.tasks, (if s.id = id then f s else s) = t :=
  @Table.mem_modify _ _ db.tasks id f hf t

theorem of_mem_withTask {t : OpsTask} (ht : t ∈ (db.withTask id f hf).tasks) (hid : t.id = id) :
    ∃ s ∈ db.tasks, s.id = id ∧ f s = t := by
  obtain ⟨s, hs, rfl⟩ := mem_withTask.mp ht
  by_cases h : s.id = id
  · exact ⟨s, hs, h, (if_pos h).symm⟩
  · rw [if_neg h] at hid
    exact absurd hid h

end

@[simp] theorem executions_resetTarget : (db.resetTarget id).executions = db.executions := rfl

@[simp] theorem tasks_resetTarget : (db.resetTarget id).tasks = db.tasks := rfl

end Writes

def record (db : Db) (executionId : ℕ) (content level : String) : Db :=
  { db with logs := db.logs.insert ⟨0, executionId, level, content⟩ }

/-! ## Tasks and targets -/

def getByIdempotencyKey (db : Db) (key : String) : Option OpsTask :=
  if key = "" then none else (db.tasks.select fun t => t.idempotencyKey = some key).head?

/-- The insert of a task, with the unique key `uk_ops_task_idempotency`; `NULL` never collides. -/
def createTaskRow (db : Db) (task : OpsTask) : Except Failure (Db × OpsTask) :=
  if task.idempotencyKey.isSome ∧ ∃ t ∈ db.tasks.rows, t.idempotencyKey = task.idempotencyKey then
    .error (.integrity "uk_ops_task_idempotency")
  else
    .ok ({ db with tasks := db.tasks.insert task }, Keyed.withKey db.tasks.next task)

/-- The server ids are made distinct and the task is new, so `uk_ops_task_target` holds. -/
def createTargets (db : Db) (taskId : ℕ) (serverIds : List ℕ) : Db × List OpsTaskTarget :=
  let targets := serverIds.dedup.map fun sid => ⟨0, taskId, sid, .pending⟩
  ({ db with targets := db.targets.insertAll targets }, Table.keyed db.targets.next targets)

def listTargets (db : Db) (taskId : ℕ) : List OpsTaskTarget :=
  db.targets.select fun g => g.taskId = taskId

def listPendingCron (db : Db) : List OpsTask :=
  db.tasks.select fun t => t.scheduleType = "CRON" ∧ (t.status = .pending ∨ t.status = .created)

/-- Removes finished one-time tasks without executions, and their targets. -/
def deleteFinishedTasksBefore (db : Db) (cutoff : Time) : Db × ℕ :=
  let old : OpsTask → Bool := fun t => t.scheduleType = "ONCE" ∧ t.status.finished = true ∧
    (∃ f ∈ t.finishedAt, f < cutoff) ∧ ¬ ∃ e ∈ db.executions.rows, e.taskId = t.id
  let ids := (db.tasks.select old).map (·.id)
  ({ db with targets := db.targets.remove (·.taskId ∈ ids), tasks := db.tasks.remove (·.id ∈ ids) },
    ids.length)

/-! ## Executions -/

def listByTask (db : Db) (taskId : ℕ) : List OpsTaskExecution :=
  db.executions.select fun e => e.taskId = taskId

/-- The insert of an attempt, with the unique key on task, target and attempt. -/
def createExecution (db : Db) (taskId targetId serverId attempt : ℕ) : Except Failure Db :=
  if ∃ e ∈ db.executions.rows, e.taskId = taskId ∧ e.targetId = targetId ∧ e.attempt = attempt then
    .error (.integrity "uk_ops_task_execution_target")
  else
    .ok { db with executions := db.executions.insert (.initial taskId targetId serverId attempt) }

def createExecutions (db : Db) (taskId : ℕ) (targets : List OpsTaskTarget) : Except Failure Db :=
  targets.foldlM (fun db g => db.createExecution taskId g.id g.serverId 1) db

def listDueRetries (db : Db) (now : Time) (limit : ℕ) : List OpsTaskExecution :=
  let due := db.executions.select fun e => e.status = .retrying ∧ ∃ r ∈ e.nextRetryAt, r ≤ now
  (due.insertionSort fun a b => a.nextRetryAt.getD 0 ≤ b.nextRetryAt.getD 0).take limit

/-- The join keeps the executions whose task is released and not finished. -/
def fetchPendingByServer (db : Db) (serverId limit : ℕ) : List OpsTaskExecution :=
  let claimable := db.executions.select fun e => e.serverId = serverId ∧ e.status = .pending ∧
    ∃ t ∈ db.tasks.get? e.taskId, t.status = .pending ∨ t.status = .running
  claimable.take limit

/-- Removes finished executions that are older than the cutoff, with their logs. -/
def deleteTerminalBefore (db : Db) (cutoff : Time) : Db × ℕ :=
  let old : OpsTaskExecution → Bool := fun e => e.status.finished = true ∧ ∃ f ∈ e.finishedAt, f < cutoff
  let ids := (db.executions.select old).map (·.id)
  ({ db with
      logs := db.logs.remove (·.executionId ∈ ids)
      executions := db.executions.remove (·.id ∈ ids) },
    ids.length)

end Db
end OpsMonitor.Task
