import Mathlib

/-! The settings of the backend, with their defaults. -/

namespace OpsMonitor

structure Settings where
  schedulerLockEnabled : Bool := true
  schedulerLockTtlSeconds : ℤ := 600
  agentStatusRefreshSeconds : ℕ := 30
  alertEvaluateIntervalSeconds : ℕ := 10
  metricRetentionDays : ℤ := 7
  metricAggRetentionDays : ℤ := 180
  metricCleanupEnabled : Bool := true
  taskRetentionDays : ℤ := 30
  taskCleanupEnabled : Bool := true

end OpsMonitor
