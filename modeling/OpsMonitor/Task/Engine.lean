import OpsMonitor.Library.Runs
import OpsMonitor.Task.Service

/-! The task engine as a machine: its calls, what a call answers, and its runs. A call that
raises is rolled back. -/

namespace OpsMonitor.Task
open Library

inductive Call
  | createTask (data : TaskCreate) (creatorId : ℕ) (idempotencyKey : Option String)
  | confirmTask (taskId operatorId : ℕ)
  | cancelTask (taskId : ℕ)
  | fetchPending (serverId : ℕ)
  | reportResult (serverId : ℕ) (data : TaskResultRequest)
  | scanTimeouts
  | dispatchRetries (limit : ℕ)
  | fireDueCron
  | cleanupHistory (retentionDays : ℤ)

inductive Reply
  | task (task : OpsTask)
  | handed (tasks : List PendingTask)
  | done
  | count (n : ℕ)
  | cleaned (executions tasks : ℕ)
  deriving DecidableEq, Repr

/-- A call and the instant it runs at. -/
structure Event where
  now : Time
  call : Call

section
variable (croniter : CronIter)

def perform (db : Db) (now : Time) : Call → Except Failure (Db × Reply)
  | .createTask data creatorId key => do
    let (db, task) ← createTask db now data creatorId key
    pure (db, .task task)
  | .confirmTask taskId operatorId => do
    let db ← confirmTask db now taskId operatorId
    pure (db, .done)
  | .cancelTask taskId => do
    let db ← cancelTask db now taskId
    pure (db, .done)
  | .fetchPending serverId =>
    let (db, tasks) := fetchPending db now serverId
    pure (db, .handed tasks)
  | .reportResult serverId data => do
    let db ← reportResult db now serverId data
    pure (db, .done)
  | .scanTimeouts =>
    let (db, n) := scanTimeouts db now
    pure (db, .count n)
  | .dispatchRetries limit => do
    let (db, n) ← dispatchRetries db now limit
    pure (db, .count n)
  | .fireDueCron => do
    let (db, n) ← fireDueCron croniter db now
    pure (db, .count n)
  | .cleanupHistory retentionDays =>
    let (db, executions, tasks) := cleanupHistory db now retentionDays
    pure (db, .cleaned executions tasks)

def step (db : Db) (e : Event) : Db :=
  match perform croniter db e.now e.call with
  | .ok (db', _) => db'
  | .error _ => db

theorem step_of_ok {croniter : CronIter} {db db' : Db} {e : Event} {reply : Reply}
    (h : perform croniter db e.now e.call = .ok (db', reply)) : step croniter db e = db' := by
  rw [step, h]

theorem step_of_error {croniter : CronIter} {db : Db} {e : Event} {x : Failure}
    (h : perform croniter db e.now e.call = .error x) : step croniter db e = db := by
  rw [step, h]

/-- The state after the events `es`, from a database without tasks. -/
def after (servers : Table OpsServer) (services : Table OpsServerService) (es : List Event) : Db :=
  run (step croniter) (.fresh servers services) es

end

/-- The events happen at non-decreasing times. -/
def Chronological (es : List Event) : Prop := es.Pairwise fun a b => a.now ≤ b.now

instance (es : List Event) : Decidable (Chronological es) :=
  inferInstanceAs (Decidable (es.Pairwise fun a b => a.now ≤ b.now))

theorem after_concat (croniter : CronIter) (servers : Table OpsServer)
    (services : Table OpsServerService) (es : List Event) (e : Event) :
    after croniter servers services (es ++ [e]) =
      step croniter (after croniter servers services es) e :=
  run_concat _ _ _ _

/-! ## A small installation

One server with one service, and the requests of the concrete runs in the modules below. -/

namespace Sample

def servers : Table OpsServer :=
  Table.empty.insert ⟨0, "web-01", "web-01", "10.0.0.1", 22, none, none, none, none, none, none,
    none, none, none, "ONLINE", none, none, 1, none⟩

def services : Table OpsServerService :=
  Table.empty.insert ⟨0, 1, "nginx", none, "SYSTEMD", 1, "RUNNING", none⟩

/-- Fires at the next full minute. -/
def everyMinute : CronIter := fun _ base => some ((base / 60000 + 1) * 60000)

/-- A status check of the service, at most three attempts of a minute each. -/
def check (scheduleType : String) : TaskCreate where
  taskName := "check"
  taskType := "SERVICE_CHECK"
  action := none
  serviceName := some "nginx"
  serverIds := [1]
  scheduleType := scheduleType
  cronExpression := some "* * * * *"
  timeoutSeconds := 60
  maxAttempts := 3
  confirmationRequired := none
  taskName_length := by decide
  serviceName_length := by simp; decide
  serverIds_length := by decide
  cronExpression_length := by simp; decide
  timeoutSeconds_range := by decide
  maxAttempts_range := by decide

/-- A failure that the agent reports as a network error, hence worth a retry. -/
def networkError (executionId : ℕ) : TaskResultRequest :=
  ⟨executionId, "FAILED", none, none, some "connection refused", some "NETWORK_ERROR", none⟩

/-- A one-time check that is claimed and fails. -/
def retryingCheck : List Event :=
  [⟨0, .createTask (check "ONCE") 1 none⟩, ⟨1000, .fetchPending 1⟩,
    ⟨2000, .reportResult 1 (networkError 1)⟩]

/-- A scheduled check that is fired, claimed, fails and gets its second attempt. -/
def retriedCron : List Event :=
  [⟨0, .createTask (check "CRON") 1 none⟩, ⟨60000, .fireDueCron⟩, ⟨61000, .fetchPending 1⟩,
    ⟨62000, .reportResult 1 (networkError 1)⟩, ⟨67000, .dispatchRetries 50⟩]

end Sample

end OpsMonitor.Task
