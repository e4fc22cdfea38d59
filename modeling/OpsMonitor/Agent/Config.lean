import OpsMonitor.Library.Paths
import OpsMonitor.Library.Words

/-! The configuration file as the two agents load it (`agent/config/config.py`,
`internal/config/config.go`). A section that is missing has no keys. -/

namespace OpsMonitor.Agent.Config
open Library

structure ServerSection where
  url : Option String
  token : Option String
  serverCode : Option String
  signingKeyFile : Option String
  deriving DecidableEq, Repr

structure CollectSection where
  heartbeatInterval : Option ℤ
  metricsInterval : Option ℤ
  assetsInterval : Option ℤ
  taskPollInterval : Option ℤ
  retryMaxSeconds : Option ℤ
  retryMaxCount : Option ℤ
  connectTimeout : Option ℚ
  requestTimeout : Option ℚ
  services : Option (List String)
  deriving DecidableEq, Repr

structure LogSection where
  level : Option String
  file : Option String
  deriving DecidableEq, Repr

structure Document where
  server : ServerSection
  collect : CollectSection
  log : LogSection
  deriving DecidableEq, Repr

/-- The values of the keys, the key file apart. -/
structure Settings where
  url : String
  token : String
  serverCode : String
  heartbeatInterval : ℤ
  metricsInterval : ℤ
  assetsInterval : ℤ
  taskPollInterval : ℤ
  retryMaxSeconds : ℤ
  retryMaxCount : ℤ
  connectTimeout : ℚ
  requestTimeout : ℚ
  services : List String
  level : String
  file : String
  deriving DecidableEq, Repr

/-- A configuration before the path of the key file is resolved. -/
structure RawConfig extends Settings where
  signingKeyFile : String
  deriving DecidableEq, Repr

structure AgentConfig extends Settings where
  signingKeyFile : Path
  deriving DecidableEq, Repr

/-! ## The Python agent -/

/-- A text field, with the path under which a validation error names it. -/
def checkText (loc : String) (minLength : ℕ) : Option String → List String
  | none => [loc]
  | some s => if s.length < minLength then [loc] else []

/-- `Field(default, ge=bound)`. -/
def checkAtLeast (loc : String) (bound : ℤ) (value : Option ℤ) : List String :=
  if value.any (· < bound) then [loc] else []

/-- `Field(default, gt=0)`. -/
def checkPositive (loc : String) (value : Option ℚ) : List String :=
  if value.any (· ≤ 0) then [loc] else []

/-- The fields that `ValidationError` names. -/
def validationErrors (doc : Document) : List String :=
  checkText "server.url" 0 doc.server.url ++
  checkText "server.token" 1 doc.server.token ++
  checkText "server.server_code" 1 doc.server.serverCode ++
  checkAtLeast "collect.heartbeat_interval" 5 doc.collect.heartbeatInterval ++
  checkAtLeast "collect.metrics_interval" 2 doc.collect.metricsInterval ++
  checkAtLeast "collect.assets_interval" 10 doc.collect.assetsInterval ++
  checkAtLeast "collect.task_poll_interval" 2 doc.collect.taskPollInterval ++
  checkAtLeast "collect.retry_max_seconds" 1 doc.collect.retryMaxSeconds ++
  checkAtLeast "collect.retry_max_count" 0 doc.collect.retryMaxCount ++
  checkPositive "collect.connect_timeout" doc.collect.connectTimeout ++
  checkPositive "collect.request_timeout" doc.collect.requestTimeout

/-- `AgentConfig(**data)` on a document without errors. `file` is empty where it is `None`:
`setup_logger` takes both for the standard output. -/
def fields (doc : Document) : RawConfig where
  url := doc.server.url.getD ""
  token := doc.server.token.getD ""
  serverCode := doc.server.serverCode.getD ""
  signingKeyFile := doc.server.signingKeyFile.getD "agent_ed25519.key"
  heartbeatInterval := doc.collect.heartbeatInterval.getD 30
  metricsInterval := doc.collect.metricsInterval.getD 10
  assetsInterval := doc.collect.assetsInterval.getD 60
  taskPollInterval := doc.collect.taskPollInterval.getD 5
  retryMaxSeconds := doc.collect.retryMaxSeconds.getD 60
  retryMaxCount := doc.collect.retryMaxCount.getD 2
  connectTimeout := doc.collect.connectTimeout.getD 5
  requestTimeout := doc.collect.requestTimeout.getD 10
  services := doc.collect.services.getD ["nginx", "docker", "ssh"]
  level := doc.log.level.getD "INFO"
  file := doc.log.file.getD ""

/-- `load_config` on the file of that directory, in a process with the working directory `cwd`. -/
def loadConfig (cwd : Directory) (dir : Path) (doc : Document) :
    Except (List String) AgentConfig :=
  let errors := validationErrors doc
  if errors = [] then
    let raw := fields doc
    let keyFile := Path.ofString raw.signingKeyFile
    .ok { raw with
      signingKeyFile :=
        if keyFile.absolute then keyFile else ⟨true, dir.locate cwd ++ keyFile.parts⟩ }
  else .error errors

/-! ## The Go agent -/

/-- `defaults`. -/
def defaults : RawConfig where
  url := ""
  token := ""
  serverCode := ""
  signingKeyFile := "agent_ed25519.key"
  heartbeatInterval := 30
  metricsInterval := 10
  assetsInterval := 60
  taskPollInterval := 5
  retryMaxSeconds := 60
  retryMaxCount := 2
  connectTimeout := 5
  requestTimeout := 10
  services := ["nginx", "docker", "ssh"]
  level := "INFO"
  file := ""

/-- A number in an `int` of 64 bits. -/
def decodeInt (default : ℤ) (value : Option ℤ) : Except String ℤ :=
  match value with
  | none => .ok default
  | some n => if -2 ^ 63 ≤ n ∧ n < 2 ^ 63 then .ok n else .error "解析配置失败"

/-- `yaml.Unmarshal` into the defaults. -/
def unmarshal (doc : Document) (c : RawConfig) : Except String RawConfig := do
  return {
    url := doc.server.url.getD c.url
    token := doc.server.token.getD c.token
    serverCode := doc.server.serverCode.getD c.serverCode
    signingKeyFile := doc.server.signingKeyFile.getD c.signingKeyFile
    heartbeatInterval := ← decodeInt c.heartbeatInterval doc.collect.heartbeatInterval
    metricsInterval := ← decodeInt c.metricsInterval doc.collect.metricsInterval
    assetsInterval := ← decodeInt c.assetsInterval doc.collect.assetsInterval
    taskPollInterval := ← decodeInt c.taskPollInterval doc.collect.taskPollInterval
    retryMaxSeconds := ← decodeInt c.retryMaxSeconds doc.collect.retryMaxSeconds
    retryMaxCount := ← decodeInt c.retryMaxCount doc.collect.retryMaxCount
    connectTimeout := doc.collect.connectTimeout.getD c.connectTimeout
    requestTimeout := doc.collect.requestTimeout.getD c.requestTimeout
    services := doc.collect.services.getD c.services
    level := doc.log.level.getD c.level
    file := doc.log.file.getD c.file }

/-- A field, or its default where it has the zero value. -/
def orDefault {α : Type} [DecidableEq α] (zero default value : α) : α :=
  if value = zero then default else value

/-- `applyDefaults`. -/
def applyDefaults (c : RawConfig) : RawConfig :=
  { c with
    heartbeatInterval := orDefault 0 defaults.heartbeatInterval c.heartbeatInterval
    metricsInterval := orDefault 0 defaults.metricsInterval c.metricsInterval
    assetsInterval := orDefault 0 defaults.assetsInterval c.assetsInterval
    taskPollInterval := orDefault 0 defaults.taskPollInterval c.taskPollInterval
    retryMaxSeconds := orDefault 0 defaults.retryMaxSeconds c.retryMaxSeconds
    retryMaxCount := orDefault 0 defaults.retryMaxCount c.retryMaxCount
    connectTimeout := orDefault 0 defaults.connectTimeout c.connectTimeout
    requestTimeout := orDefault 0 defaults.requestTimeout c.requestTimeout
    signingKeyFile := orDefault "" defaults.signingKeyFile c.signingKeyFile
    services := orDefault [] defaults.services c.services
    level := orDefault "" defaults.level c.level }

/-- A failed check of `validate` ends it with its message. -/
def require (ok : Prop) [Decidable ok] (message : String) : Except String Unit :=
  if ok then .ok () else .error message

/-- `strings.TrimSpace(s) != ""`. -/
def Written (s : String) : Prop := trim isWhiteSpace s ≠ ""

instance {s : String} : Decidable (Written s) := inferInstanceAs (Decidable (_ ≠ _))

/-- `validate`. -/
def validate (c : Settings) : Except String Unit := do
  require (Written c.url) "server.url 不能为空"
  require (Written c.token) "server.token 不能为空"
  require (Written c.serverCode) "server.server_code 不能为空"
  require (5 ≤ c.heartbeatInterval) "collect.heartbeat_interval 需 >= 5"
  require (2 ≤ c.metricsInterval) "collect.metrics_interval 需 >= 2"
  require (10 ≤ c.assetsInterval) "collect.assets_interval 需 >= 10"
  require (2 ≤ c.taskPollInterval) "collect.task_poll_interval 需 >= 2"
  require (1 ≤ c.retryMaxSeconds) "collect.retry_max_seconds 需 >= 1"
  require (1 ≤ c.retryMaxCount) "collect.retry_max_count 需 >= 1"
  require (0 < c.connectTimeout) "collect.connect_timeout 需 > 0"
  require (0 < c.requestTimeout) "collect.request_timeout 需 > 0"

/-- `Load` on the file of that directory. -/
def load (dir : Path) (doc : Document) : Except String AgentConfig := do
  let c := applyDefaults (← unmarshal doc defaults)
  let keyFile := Path.ofString c.signingKeyFile
  validate c.toSettings
  return { c with
    signingKeyFile := if keyFile.absolute then keyFile else dir.clean.join keyFile }

end OpsMonitor.Agent.Config
