import OpsMonitor.Alert.Alarms

/-! After a round an event is active exactly when its value violates the threshold, unless the
comparison that decides the recovery uses another threshold. -/

namespace OpsMonitor.Alert
open Library OpsMonitor.Metric

def ActiveAlert (db : Db) (rule : AlertRule) (server : OpsServer) : Prop :=
  ∃ e ∈ db.events, e.alertKey = alertKey rule server ∧ e.status.isActive = true

/-- The value that a round at `now` takes for a rule and an active server. -/
def Db.valueOf (db : Db) (rule : AlertRule) (server : OpsServer) (now : Time) : Option ℚ :=
  getValue rule server (getLatestMap db.metrics (db.listActive.map (·.id)) server.id) now

def Violates (rule : AlertRule) (server : OpsServer) (value : ℚ) : Prop :=
  compare value rule.operator (effectiveThreshold rule server) = true

/-- The value is back under the threshold of the server, but it still violates the column of
the rule, which for a `LOAD` rule is the threshold of a single core. -/
def LeftOver (db : Db) (rule : AlertRule) (server : OpsServer) (value : ℚ) : Prop :=
  ActiveAlert db rule server ∧ ¬ Violates rule server value ∧
    compare value rule.operator (rule.threshold.map Decimal.value) = true

variable {db : Db} {rule : AlertRule} {server : OpsServer} {value : ℚ} {now : Time}

theorem activeAlert_iff_alarm : ActiveAlert db rule server ↔ (db.alarm (keyOf rule server.id)).isSome := by
  have halarm : (db.alarm (keyOf rule server.id)).isSome =
      (db.getActiveByAlertKey (alertKey rule server)).isSome := Option.isSome_map
  rw [halarm]
  constructor
  · rintro ⟨e, he, hkey, hactive⟩
    by_contra hnone
    exact getActive_eq_none.mp (Option.not_isSome_iff_eq_none.mp hnone) e he hkey hactive
  · intro hsome
    obtain ⟨e, hget⟩ := Option.isSome_iff_exists.mp hsome
    exact ⟨e, mem_of_getActive hget⟩

theorem reading_eq (hserver : server ∈ db.listActive) (hvalue : db.valueOf rule server now = some value) :
    db.reading rule server.id now =
      if compare value rule.operator (effectiveThreshold rule server) then .violating
      else .normal (isRecovered rule value) := by
  have hfind : db.listActive.find? (·.id = server.id) = some server := by
    obtain ⟨s, hs⟩ : ∃ s, db.listActive.find? (·.id = server.id) = some s := by
      rw [← Option.isSome_iff_exists, List.find?_isSome]
      exact ⟨server, hserver, decide_eq_true rfl⟩
    have hid : s.id = server.id := by simpa using List.find?_some hs
    have hmem := List.mem_of_find?_eq_some hs
    rw [hs, Table.eq_of_key_eq (Table.mem_select.mp hmem).1 (Table.mem_select.mp hserver).1 hid]
  rw [Db.valueOf] at hvalue
  rw [Db.reading, hfind]
  dsimp only [readingOf]
  rw [hvalue]

/-- A round leaves an event active when the value violates, or when it was active and the value
does not count as recovered. -/
theorem UniqueActive.activeAlert_evaluateAll (h : UniqueActive db) (hrule : rule ∈ db.getEnabled)
    (hserver : server ∈ db.listActive) (hvalue : db.valueOf rule server now = some value) :
    ActiveAlert (Alert.evaluateAll db now).1 rule server ↔
      Violates rule server value ∨
        ActiveAlert db rule server ∧ ¬ Violates rule server value ∧ isRecovered rule value = false := by
  rw [activeAlert_iff_alarm, activeAlert_iff_alarm, h.alarm_evaluateAll hrule,
    Alarm.isSome_observe, reading_eq hserver hvalue, Violates]
  by_cases hviolates : compare value rule.operator (effectiveThreshold rule server) = true
  · simp [hviolates]
  · simp [hviolates]

/-- Where the column is the threshold of the server no event is left over. -/
theorem not_leftOver (h : effectiveThreshold rule server = rule.threshold.map Decimal.value) :
    ¬ LeftOver db rule server value := by
  rintro ⟨-, hviolates, hcolumn⟩
  rw [Violates, h] at hviolates
  exact hviolates hcolumn

/-- `threshold=1.0` for the load, in multiples of the cores. -/
def loadRule : AlertRule where
  id := 0
  ruleName := "负载过高"
  metricType := "LOAD"
  targetType := "SERVER"
  severity := "WARNING"
  operator := "GT"
  threshold := some ⟨10000, by decide⟩
  durationSeconds := 0
  recoveryThreshold := none
  enabled := 1
  durationSeconds_unsigned := by decide

def fourCores : OpsServer where
  id := 0
  serverCode := "web-01"
  hostname := "web-01"
  ipAddress := "10.0.0.1"
  sshPort := 22
  osName := none
  osVersion := none
  kernelVersion := none
  architecture := none
  cpuModel := none
  cpuCores := some 4
  memoryTotalBytes := none
  diskTotalBytes := none
  agentVersion := none
  agentStatus := "ONLINE"
  lastHeartbeatAt := none
  registeredAt := none
  status := 1
  deletedAt := none

/-- A sample that reports the load only, in hundredths. -/
def loadSample (collectedAt : Time) (load : Decimal 10 2) : MonitorServerMetric where
  id := 0
  serverId := 1
  collectedAt := collectedAt
  cpuUsage := none
  memoryUsage := none
  memoryUsedBytes := none
  diskUsage := none
  networkInBytes := none
  networkOutBytes := none
  load1m := some load
  load5m := none
  load15m := none
  tcpConnections := none
  uptimeSeconds := none

/-- The tables of a rule and the server, with the given samples. -/
def withLoads (rule : AlertRule) (samples : List MonitorServerMetric) : Call :=
  .other (Table.empty.insert fourCores) (Table.empty.insert rule) (Table.empty.insertAll samples)

theorem five_digits : (500 : ℤ).natAbs < 10 ^ 10 := by decide

def loadFive : MonitorServerMetric := loadSample 0 ⟨500, five_digits⟩

theorem half_digits : (50 : ℤ).natAbs < 10 ^ 10 := by decide

def loadThree : MonitorServerMetric := loadSample 60000 ⟨300, by decide⟩

end OpsMonitor.Alert
