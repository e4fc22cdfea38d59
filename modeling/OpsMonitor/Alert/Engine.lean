import OpsMonitor.Alert.Records
import OpsMonitor.Library.Double
import OpsMonitor.Library.Runs

/-! The alert engine (`services/alert_engine.py`): a round compares the latest value of every
active server with every enabled rule and drives the events. Then the operations of a user on
an event (`services/alert_service.py`), and the runs of all of them. -/

namespace OpsMonitor.Alert
open Library OpsMonitor.Metric

/-! ## Values and thresholds -/

/-- `timedelta.total_seconds`. -/
def totalSeconds (t : Time) : ℚ := Double.ofRat (t / 1000)

/-- `METRIC_FIELD_MAP`. -/
def metricField (metricType : String) (m : MonitorServerMetric) : Option ℚ :=
  if metricType = "CPU" then m.cpuUsage.map Decimal.value
  else if metricType = "MEMORY" then m.memoryUsage.map Decimal.value
  else if metricType = "DISK" then m.diskUsage.map Decimal.value
  else if metricType = "LOAD" then m.load1m.map Decimal.value
  else none

def getValue (rule : AlertRule) (server : OpsServer) (metric : Option MonitorServerMetric)
    (now : Time) : Option ℚ :=
  if rule.metricType = "AGENT" then
    server.lastHeartbeatAt.map fun heartbeat => totalSeconds (now - heartbeat)
  else (metric.bind (metricField rule.metricType)).map Double.ofRat

/-- `server.cpu_cores or 1`. -/
def cores (server : OpsServer) : ℕ :=
  match server.cpuCores with
  | none | some 0 => 1
  | some n => n

def effectiveThreshold (rule : AlertRule) (server : OpsServer) : Option ℚ :=
  rule.threshold.map fun threshold =>
    if rule.metricType = "LOAD" then
      Double.roundTo 4 (Double.ofRat (Double.ofRat threshold.value * cores server))
    else Double.ofRat threshold.value

/-- Python compares a float with a float or with a `Decimal` by their exact values. -/
def compare (value : ℚ) (operator : String) (threshold : Option ℚ) : Bool :=
  match threshold with
  | none => false
  | some threshold =>
    if operator = "GTE" then value ≥ threshold
    else if operator = "LT" then value < threshold
    else if operator = "LTE" then value ≤ threshold
    else if operator = "EQ" then value = threshold
    else value > threshold

/-- Without a recovery threshold the value is compared with the column of the rule itself. -/
def isRecovered (rule : AlertRule) (value : ℚ) : Bool :=
  match rule.recoveryThreshold with
  | some recovery => value ≤ Double.ofRat recovery.value
  | none => !compare value rule.operator (rule.threshold.map Decimal.value)

/-! ## Events -/

def alertKey (rule : AlertRule) (server : OpsServer) : String :=
  toString rule.id ++ ":" ++ toString server.id ++ ":" ++ rule.metricType

def transition (db : Db) (event : AlertEvent) (newStatus : AlertStatus) (value : ℚ)
    (message : String) : Db :=
  (db.withEvent event.id fun e => { e with status := newStatus, currentValue := value }).record
    event.id (some event.status) newStatus value message none

/-- The new event and its log entry. -/
def createEvent (db : Db) (rule : AlertRule) (server : OpsServer) (value : ℚ)
    (threshold : Option ℚ) (now : Time) : Db :=
  let event : AlertEvent :=
    { id := 0
      ruleId := rule.id
      serverId := server.id
      resourceType := rule.targetType
      resourceId := server.id
      alertKey := alertKey rule server
      metricType := rule.metricType
      severity := rule.severity
      status := .pending
      firstFiredAt := now
      lastFiredAt := now
      acknowledgedBy := none
      acknowledgedAt := none
      resolvedAt := none
      currentValue := value
      thresholdValue := threshold
      message := rule.ruleName ++ " 触发：当前值 " ++ Double.fixed2 value ++ "，阈值 " ++
        (threshold.map Double.fixed2).getD "None" }
  ({ db with events := db.events.insert event }).record db.events.next none .pending value
    "检测到异常，进入待确认" none

def handleViolation (db : Db) (rule : AlertRule) (server : OpsServer) (value : ℚ)
    (threshold : Option ℚ) (now : Time) : Db × Bool :=
  match db.getActiveByAlertKey (alertKey rule server) with
  | none => (createEvent db rule server value threshold now, true)
  | some event =>
    let db := db.withEvent event.id fun e => { e with lastFiredAt := now, currentValue := value }
    if event.status = .pending ∧ totalSeconds (now - event.firstFiredAt) ≥ rule.durationSeconds then
      (transition db event .firing value "达到持续异常时长，触发告警", false)
    else (db, false)

def handleRecovery (db : Db) (rule : AlertRule) (server : OpsServer) (value : ℚ) (now : Time) : Db :=
  match db.getActiveByAlertKey (alertKey rule server) with
  | none => db
  | some event =>
    if isRecovered rule value then
      transition (db.withEvent event.id fun e => { e with resolvedAt := some now }) event .resolved
        value "指标恢复正常，告警解除"
    else db

/-! ## A round -/

/-- The body of the inner loop. -/
def evaluatePair (now : Time) (latest : ℕ → Option MonitorServerMetric) (acc : Db × ℕ)
    (rule : AlertRule) (server : OpsServer) : Db × ℕ :=
  match getValue rule server (latest server.id) now with
  | none => acc
  | some value =>
    let threshold := effectiveThreshold rule server
    if compare value rule.operator threshold then
      let (db, created) := handleViolation acc.1 rule server value threshold now
      (db, if created then acc.2 + 1 else acc.2)
    else (handleRecovery acc.1 rule server value now, acc.2)

def evaluateAll (db : Db) (now : Time) : Db × ℕ :=
  let rules := db.getEnabled
  let servers := db.listActive
  if rules = [] ∨ servers = [] then (db, 0)
  else
    let latest := getLatestMap db.metrics (servers.map (·.id))
    rules.foldl (fun acc rule =>
      servers.foldl (fun acc server => evaluatePair now latest acc rule server) acc) (db, 0)

/-! ## Operations on an event -/

def getEventOr404 (db : Db) (eventId : ℕ) : Except Failure AlertEvent :=
  match db.events.get? eventId with
  | none => .error (.app ⟨.alertEventNotFound, "告警事件不存在", 404⟩)
  | some event => .ok event

def acknowledge (db : Db) (now : Time) (eventId : ℕ) (operatorId : Option ℕ) : Except Failure Db := do
  let event ← getEventOr404 db eventId
  if event.status = .resolved then .error (.app ⟨.badRequest, "已恢复的告警无需确认", 400⟩)
  else
    pure ((db.withEvent event.id fun e => { e with
        status := .acknowledged
        acknowledgedBy := operatorId
        acknowledgedAt := some now }).record event.id (some event.status) .acknowledged
      event.currentValue "人工确认告警" operatorId)

def resolve (db : Db) (now : Time) (eventId : ℕ) (operatorId : Option ℕ) : Except Failure Db := do
  let event ← getEventOr404 db eventId
  if event.status = .resolved then .error (.app ⟨.badRequest, "告警已恢复", 400⟩)
  else
    pure ((db.withEvent event.id fun e => { e with
        status := .resolved
        resolvedAt := some now }).record event.id (some event.status) .resolved
      event.currentValue "人工恢复告警" operatorId)

/-! ## Runs -/

/-- The calls that touch the events, and any change of the tables that they only read. -/
inductive Call
  | evaluateAll
  | acknowledge (eventId : ℕ) (operatorId : Option ℕ)
  | resolve (eventId : ℕ) (operatorId : Option ℕ)
  | other (servers : Table OpsServer) (rules : Table AlertRule) (metrics : Table MonitorServerMetric)

structure Event where
  now : Time
  call : Call

def step (db : Db) (ev : Event) : Db :=
  match ev.call with
  | .evaluateAll => (evaluateAll db ev.now).1
  | .acknowledge eventId operatorId =>
    match acknowledge db ev.now eventId operatorId with
    | .ok db' => db'
    | .error _ => db
  | .resolve eventId operatorId =>
    match resolve db ev.now eventId operatorId with
    | .ok db' => db'
    | .error _ => db
  | .other servers rules metrics => { db with servers := servers, rules := rules, metrics := metrics }

/-- The state after the events `es`, from a database without alert events. -/
def after (es : List Event) : Db := run step .empty es

theorem after_concat (es : List Event) (ev : Event) : after (es ++ [ev]) = step (after es) ev :=
  run_concat _ _ _ _

end OpsMonitor.Alert
