import OpsMonitor.Exceptions
import OpsMonitor.Metric.Records
import OpsMonitor.Server.Records

/-! The tables of the alert center: the rules, the events with their state, and the log of the
state changes. -/

namespace OpsMonitor.Alert
open Library OpsMonitor.Metric

structure AlertRule where
  id : ℕ
  ruleName : String
  metricType : String
  targetType : String
  severity : String
  operator : String
  threshold : Option (Decimal 12 4)
  durationSeconds : ℕ
  recoveryThreshold : Option (Decimal 12 4)
  enabled : ℕ
  durationSeconds_unsigned : durationSeconds < 2 ^ 32
  deriving DecidableEq

inductive AlertStatus
  | pending | firing | acknowledged | resolved
  deriving DecidableEq, Repr

/-- The generated column `is_active`. -/
def AlertStatus.isActive : AlertStatus → Bool
  | pending | firing | acknowledged => true
  | resolved => false

structure AlertEvent where
  id : ℕ
  ruleId : ℕ
  serverId : ℕ
  resourceType : String
  resourceId : ℕ
  alertKey : String
  metricType : String
  severity : String
  status : AlertStatus
  firstFiredAt : Time
  lastFiredAt : Time
  acknowledgedBy : Option ℕ
  acknowledgedAt : Option Time
  resolvedAt : Option Time
  currentValue : ℚ
  thresholdValue : Option ℚ
  message : String
  deriving DecidableEq

structure AlertEventLog where
  id : ℕ
  eventId : ℕ
  oldStatus : Option AlertStatus
  newStatus : AlertStatus
  currentValue : ℚ
  message : String
  operatorId : Option ℕ
  deriving DecidableEq

instance : Keyed AlertRule := ⟨AlertRule.id, fun n r => { r with id := n }, fun _ _ => rfl⟩

instance : Keyed AlertEvent := ⟨AlertEvent.id, fun n e => { e with id := n }, fun _ _ => rfl⟩

instance : Keyed AlertEventLog := ⟨AlertEventLog.id, fun n l => { l with id := n }, fun _ _ => rfl⟩

structure Db where
  servers : Table OpsServer
  rules : Table AlertRule
  metrics : Table MonitorServerMetric
  events : Table AlertEvent
  logs : Table AlertEventLog

namespace Db

def empty : Db := ⟨.empty, .empty, .empty, .empty, .empty⟩

/-- `ServerRepository.list_active`. -/
def listActive (db : Db) : List OpsServer :=
  db.servers.select fun s => s.status = 1 ∧ s.deletedAt = none

/-- `AlertRuleRepository.get_enabled`. -/
def getEnabled (db : Db) : List AlertRule := db.rules.select fun r => r.enabled = 1

def getActiveByAlertKey (db : Db) (alertKey : String) : Option AlertEvent :=
  (db.events.select fun e => e.alertKey = alertKey ∧ e.status.isActive).head?

def record (db : Db) (eventId : ℕ) (oldStatus : Option AlertStatus) (newStatus : AlertStatus)
    (currentValue : ℚ) (message : String) (operatorId : Option ℕ) : Db :=
  { db with
    logs := db.logs.insert ⟨0, eventId, oldStatus, newStatus, currentValue, message, operatorId⟩ }

def withEvent (db : Db) (id : ℕ) (f : AlertEvent → AlertEvent)
    (hf : ∀ e, Keyed.key (f e) = Keyed.key e := by intro _; rfl) : Db :=
  { db with events := db.events.modify id f hf }

end Db
end OpsMonitor.Alert
