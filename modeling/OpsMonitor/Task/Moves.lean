import OpsMonitor.Library.Loops
import OpsMonitor.Task.Aggregate
import OpsMonitor.Task.Engine

/-! What a transaction of the engine can do, as moves on the tables. Every call that succeeds
is a run of moves, so an invariant is checked against the moves and not against the calls. -/

namespace OpsMonitor.Task
open Library Relation

/-! ## Steps of one row -/

/-- The columns that identify an attempt; no write changes them. -/
structure SameRow (s r : OpsTaskExecution) : Prop where
  id : r.id = s.id
  taskId : r.taskId = s.taskId
  targetId : r.targetId = s.targetId
  serverId : r.serverId = s.serverId
  attempt : r.attempt = s.attempt

theorem SameRow.rfl' (s : OpsTaskExecution) : SameRow s s := ⟨rfl, rfl, rfl, rfl, rfl⟩

theorem SameRow.trans {r s t : OpsTaskExecution} (h : SameRow r s) (h' : SameRow s t) :
    SameRow r t :=
  ⟨h'.id.trans h.id, h'.taskId.trans h.taskId, h'.targetId.trans h.targetId,
    h'.serverId.trans h.serverId, h'.attempt.trans h.attempt⟩

/-- The columns of a task that are written once, at creation. -/
structure SameTask (s r : OpsTask) : Prop where
  id : r.id = s.id
  scheduleType : r.scheduleType = s.scheduleType
  cronExpression : r.cronExpression = s.cronExpression
  maxAttempts : r.maxAttempts = s.maxAttempts
  deadlineAt : r.deadlineAt = s.deadlineAt
  confirmationRequired : r.confirmationRequired = s.confirmationRequired
  createdAt : r.createdAt = s.createdAt

theorem SameTask.rfl' (t : OpsTask) : SameTask t t := ⟨rfl, rfl, rfl, rfl, rfl, rfl, rfl⟩

theorem SameTask.trans {r s t : OpsTask} (h : SameTask r s) (h' : SameTask s t) : SameTask r t :=
  ⟨h'.id.trans h.id, h'.scheduleType.trans h.scheduleType,
    h'.cronExpression.trans h.cronExpression, h'.maxAttempts.trans h.maxAttempts,
    h'.deadlineAt.trans h.deadlineAt, h'.confirmationRequired.trans h.confirmationRequired,
    h'.createdAt.trans h.createdAt⟩

/-- What a write at `now` makes of a row `s` of the task `t`. -/
inductive RowStep (now : Time) (t : OpsTask) (s : OpsTaskExecution) : OpsTaskExecution → Prop
  | same : RowStep now t s s
  | started (hpending : s.status = .pending) : RowStep now t s (s.markRunning now)
  | delayed (hopen : s.status.finished = false) (hretry : canRetry t s now = true)
      (errorType : String) (errorMessage : Option String) :
      RowStep now t s (s.markRetrying now errorType errorMessage
        (now + Clock.seconds (Retry.backoffSeconds s.attempt)))
  | ended (hopen : s.status.finished = false) {r : OpsTaskExecution} (hrow : SameRow s r)
      (hend : r.status.finished = true) (hat : r.finishedAt = some now) : RowStep now t s r

namespace RowStep
variable {now : Time} {t : OpsTask} {s r : OpsTaskExecution}

theorem sameRow (h : RowStep now t s r) : SameRow s r := by
  cases h with
  | ended _ hrow => exact hrow
  | same | started | delayed => exact ⟨rfl, rfl, rfl, rfl, rfl⟩

theorem eq_or_open (h : RowStep now t s r) : r = s ∨ s.status.finished = false := by
  cases h with
  | same => exact .inl rfl
  | started hpending => exact .inr (by rw [hpending]; rfl)
  | delayed hopen | ended hopen => exact .inr hopen

/-- A row that a write finishes carries the time of the write. -/
theorem finishedAt_of_finished (h : RowStep now t s r) (hr : r.status.finished = true) :
    r = s ∨ r.finishedAt = some now := by
  cases h with
  | same => exact .inl rfl
  | started => simp [OpsTaskExecution.markRunning, ExecutionStatus.finished] at hr
  | delayed => simp [OpsTaskExecution.markRetrying, ExecutionStatus.finished] at hr
  | ended _ _ _ hat => exact .inr hat

theorem retrying (h : RowStep now t s r) (hr : r.status = .retrying) :
    r = s ∨ (canRetry t s now = true ∧
      r.nextRetryAt = some (now + Clock.seconds (Retry.backoffSeconds s.attempt))) := by
  cases h with
  | same => exact .inl rfl
  | started => simp [OpsTaskExecution.markRunning] at hr
  | delayed _ hretry => exact .inr ⟨hretry, rfl⟩
  | ended _ _ hend => simp [hr, ExecutionStatus.finished] at hend

end RowStep

/-- A write on the rows of one task. -/
structure RowEdit (db : Db) (now : Time) (t : OpsTask) where
  edit : OpsTaskExecution → OpsTaskExecution
  key : ∀ s, Keyed.key (edit s) = Keyed.key s
  step : ∀ s ∈ db.rowsOf t.id, RowStep now t s (edit s)
  other : ∀ s ∈ db.executions, s.taskId ≠ t.id → edit s = s

def RowEdit.apply {db : Db} {now : Time} {t : OpsTask} (w : RowEdit db now t)
    (logs : Table OpsTaskLog) : Db :=
  { db with executions := db.executions.update w.edit w.key, logs := logs }

/-! ## Moves -/

/-- The rows of the first attempts of a task. -/
def firstAttempts (taskId : ℕ) (targets : List OpsTaskTarget) : List OpsTaskExecution :=
  targets.map fun g => .initial taskId g.id g.serverId 1

/-- The task has a schedule that is reached at some time, by the schedule evaluation. -/
def Fireable (croniter : CronIter) (t : OpsTask) (next : Time) : Prop :=
  t.scheduleType = "CRON" ∧ ∃ expression ∈ t.cronExpression, expression ≠ "" ∧
    croniter expression t.createdAt = some next

/-- The row of the attempt after `e`. -/
def nextAttempt (e : OpsTaskExecution) : OpsTaskExecution :=
  .initial e.taskId e.targetId e.serverId (e.attempt + 1)

/-- The write of `w`, then the row of the attempt after `e`. -/
def RowEdit.applyNext {db : Db} {now : Time} {t : OpsTask} (w : RowEdit db now t)
    (logs : Table OpsTaskLog) (e : OpsTaskExecution) : Db :=
  { w.apply logs with executions := (w.apply logs).executions.insert (nextAttempt e) }

/-- The kinds of move, each with the task it is about. -/
inductive Act
  | insert (task : OpsTask)
  | confirm (taskId : ℕ)
  | cancel (taskId : ℕ)
  | claim (taskId : ℕ)
  | report (taskId : ℕ)
  | expire (taskId : ℕ)
  | archive (taskId : ℕ)
  | retry (taskId : ℕ)
  | fire (taskId : ℕ)
  | purge

inductive Move (croniter : CronIter) (now : Time) (db : Db) : Act → Db → Prop
  | insert {data : TaskCreate} {creatorId : ℕ} {key : Option String} {db' : Db} {t : OpsTask}
      (h : insertTask db now data creatorId key = .ok (db', t)) :
      Move croniter now db (.insert t) db'
  | confirm {t : OpsTask} (ht : t ∈ db.tasks) (hs : t.status = .created) (operatorId : ℕ) :
      Move croniter now db (.confirm t.id) (db.withTask t.id fun t =>
        { t with status := .pending, confirmedBy := some operatorId, confirmedAt := some now })
  | cancel {t : OpsTask} (ht : t ∈ db.tasks) (hs : t.status.finished = false)
      (w : RowEdit db now t)
      (hpending : ∀ s ∈ db.rowsOf t.id, s.status = .pending → (w.edit s).status = .cancelled)
      (hrest : ∀ s ∈ db.rowsOf t.id, s.status ≠ .pending → w.edit s = s) :
      Move croniter now db (.cancel t.id) (aggregateTaskStatus (w.apply db.logs) now t.id)
  | claim {t : OpsTask} {e : OpsTaskExecution} (ht : t ∈ db.tasks)
      (hs : t.status = .pending ∨ t.status = .running) (he : e ∈ db.rowsOf t.id)
      (hpending : e.status = .pending) :
      Move croniter now db (.claim t.id) ((db.withExecution e.id (.markRunning now)).withTask t.id
        fun t => { t with status := .running, startedAt := t.startedAt <|> some now })
  | report {t : OpsTask} {e : OpsTaskExecution} (ht : t ∈ db.tasks) (he : e ∈ db.rowsOf t.id)
      (hopen : e.status.finished = false) (w : RowEdit db now t) (logs : Table OpsTaskLog) :
      Move croniter now db (.report t.id) (aggregateTaskStatus (w.apply logs) now t.id)
  | expire {t : OpsTask} {e : OpsTaskExecution} (ht : t ∈ db.tasks) (he : e ∈ db.rowsOf t.id)
      (hstarted : e.status = .running ∨ e.status = .retrying) (w : RowEdit db now t)
      (logs : Table OpsTaskLog) :
      Move croniter now db (.expire t.id) (aggregateTaskStatus (w.apply logs) now t.id)
  | archive {t : OpsTask} {e : OpsTaskExecution} (ht : t ∈ db.tasks)
      (hs : t.status.finished = true) (he : e ∈ db.rowsOf t.id) (hretrying : e.status = .retrying)
      (w : RowEdit db now t) : Move croniter now db (.archive t.id) (w.apply db.logs)
  | retry {t : OpsTask} {e : OpsTaskExecution} (ht : t ∈ db.tasks)
      (hs : t.status.finished = false) (he : e ∈ db.rowsOf t.id) (hretrying : e.status = .retrying)
      (hdue : ∃ r ∈ e.nextRetryAt, r ≤ now) (hretry : canRetry t e now = true)
      (w : RowEdit db now t) (hfailed : (w.edit e).status = .failed)
      (hrest : ∀ s ∈ db.executions, s ≠ e → w.edit s = s) (logs : Table OpsTaskLog) :
      Move croniter now db (.retry t.id) (aggregateTaskStatus
        (((w.applyNext logs e).withTask t.id
          fun t => { t with attempt := e.attempt + 1 }).resetTarget e.targetId) now t.id)
  | fire {t : OpsTask} {next : Time} (ht : t ∈ db.tasks)
      (hs : t.status = .pending ∨ t.status = .created) (hcron : Fireable croniter t next)
      (hdue : next ≤ now) :
      Move croniter now db (.fire t.id)
        ({ db with
            executions := db.executions.insertAll
              (firstAttempts t.id (db.listTargets t.id)) }.withTask t.id
          fun t => { t with status := .running, startedAt := t.startedAt <|> some now })
  | purge (cutoff : Time) :
      Move croniter now db .purge
        ((db.deleteTerminalBefore cutoff).1.deleteFinishedTasksBefore cutoff).1

/-- Moves at one instant, each of a kind in `P`. -/
def Moves (croniter : CronIter) (now : Time) (P : Act → Prop) : Db → Db → Prop :=
  ReflTransGen fun db db' => ∃ act, P act ∧ Move croniter now db act db'

end OpsMonitor.Task
