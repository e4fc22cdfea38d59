import OpsMonitor.Alert.Engine
import OpsMonitor.Library.Intervals
import OpsMonitor.Metric.Cleanup
import OpsMonitor.Scheduler.Lock
import OpsMonitor.Task.Engine

/-! The jobs of the backend (`core/scheduler.py`), how they are registered, and one backend
process over time: its scheduler and the requests that it serves in between. -/

namespace OpsMonitor.Scheduler
open Library Library.Intervals

/-- The tables that the jobs work on. -/
structure Site where
  tasks : Task.Db
  samples : Metric.Db
  rules : Table Alert.AlertRule
  events : Table Alert.AlertEvent
  eventLogs : Table Alert.AlertEventLog

def Site.alerts (s : Site) : Alert.Db :=
  ⟨s.tasks.servers, s.rules, s.samples.metrics, s.events, s.eventLogs⟩

inductive JobName
  | refreshAgentStatus
  | cleanupOldMetrics
  | cleanupOldTaskExecutions
  | evaluateAlerts
  | scanTaskTimeouts
  | dispatchTaskRetries
  | fireDueCronTasks
  deriving DecidableEq, Repr

/-- The id of the job, which is also the name of its lock. -/
def JobName.id : JobName → String
  | refreshAgentStatus => "refresh_agent_status"
  | cleanupOldMetrics => "cleanup_old_metrics"
  | cleanupOldTaskExecutions => "cleanup_old_task_executions"
  | evaluateAlerts => "evaluate_alerts"
  | scanTaskTimeouts => "scan_task_timeouts"
  | dispatchTaskRetries => "dispatch_task_retries"
  | fireDueCronTasks => "fire_due_cron_tasks"

section
variable (settings : Settings) (croniter : Task.CronIter)

/-- The body of a job. A job that raises is rolled back and logged. -/
def job (now : Time) (s : Site) : JobName → Site
  | .refreshAgentStatus =>
    { s with tasks := { s.tasks with servers := refreshAgentStatuses s.tasks.servers now } }
  | .cleanupOldMetrics =>
    { s with samples := Metric.cleanupOldMetrics settings ⟨now, now, now, le_rfl, le_rfl⟩ s.samples }
  | .cleanupOldTaskExecutions =>
    if settings.taskCleanupEnabled then
      { s with
        tasks := Task.step croniter s.tasks ⟨now, .cleanupHistory settings.taskRetentionDays⟩ }
    else s
  | .evaluateAlerts =>
    let db := (Alert.evaluateAll s.alerts now).1
    { s with events := db.events, eventLogs := db.logs }
  | .scanTaskTimeouts => { s with tasks := Task.step croniter s.tasks ⟨now, .scanTimeouts⟩ }
  | .dispatchTaskRetries =>
    { s with tasks := Task.step croniter s.tasks ⟨now, .dispatchRetries 50⟩ }
  | .fireDueCronTasks => { s with tasks := Task.step croniter s.tasks ⟨now, .fireDueCron⟩ }

def perform (name : JobName) (now : ℕ) (s : Redis × Site) : Redis × Site :=
  runWithLock settings name.id now (fun site => job settings croniter now site name) s

/-- Time in milliseconds since the start of the process. -/
def hours (n : ℕ) : ℕ := 3600000 * n

/-- The jobs as they are added at time zero. The two cleanups are added with
`next_run_time=None`. -/
def setupScheduler : List (Job JobName) :=
  [addJob 0 .refreshAgentStatus (1000 * settings.agentStatusRefreshSeconds) none,
    addJob 0 .cleanupOldMetrics (hours 24) (some none),
    addJob 0 .cleanupOldTaskExecutions (hours 24) (some none),
    addJob 0 .evaluateAlerts (1000 * settings.alertEvaluateIntervalSeconds) none,
    addJob 0 .scanTaskTimeouts 30000 none,
    addJob 0 .dispatchTaskRetries 5000 none,
    addJob 0 .fireDueCronTasks 30000 none]

/-- What happens between the jobs: a sample arrives, a request reaches the task engine, or the
other tables change. Only the job cleans up the history. -/
inductive Input
  | record (metric : Metric.MonitorServerMetric)
  | task (call : Task.Call) (request : ∀ days, call ≠ .cleanupHistory days)
  | other (servers : Table OpsServer) (services : Table OpsServerService)
      (rules : Table Alert.AlertRule) (events : Table Alert.AlertEvent)
      (eventLogs : Table Alert.AlertEventLog)

def Input.apply (now : Time) (s : Site) : Input → Site
  | .record metric => { s with samples := s.samples.record metric }
  | .task call _ => { s with tasks := Task.step croniter s.tasks ⟨now, call⟩ }
  | .other servers services rules events eventLogs =>
    { s with
      tasks := { s.tasks with servers := servers, services := services }
      rules := rules
      events := events
      eventLogs := eventLogs }

/-- The process `n` milliseconds after its start. -/
def backendAt (inputs : ℕ → List Input) (start : Redis × Site) (n : ℕ) : Redis × Site :=
  (elapse (perform settings croniter)
    (fun now s => (s.1, (inputs now).foldl (fun site x => x.apply croniter now site) s.2))
    (setupScheduler settings) start n).2

end

end OpsMonitor.Scheduler
