import OpsMonitor.Agent.Service
import OpsMonitor.Management.Rules
import OpsMonitor.Metric.Records
import OpsMonitor.Server.AssetSync
import OpsMonitor.Task.Service

/-! The agent endpoints over all the tables that they write (`api/v1/agent.py`, `services/agent_service.py`,
`services/task_service.py`). The daily archive is not among them. -/

namespace OpsMonitor.Agent.Endpoints
open Library Management

/-! ## The tables -/

structure OpsAgentHeartbeat where
  id : ℕ
  serverId : ℕ
  agentVersion : Option String
  ipAddress : Option String
  collectedAt : Time
  deriving DecidableEq

instance : Keyed OpsAgentHeartbeat := ⟨OpsAgentHeartbeat.id, fun n h => { h with id := n }, fun _ _ => rfl⟩

structure Backend where
  tokens : Table OpsAgentToken
  servers : Table OpsServer
  redis : Redis
  heartbeats : Table OpsAgentHeartbeat
  metrics : Table Metric.MonitorServerMetric
  disks : Table OpsServerDisk
  networks : Table OpsServerNetwork
  services : Table OpsServerService
  tasks : Table Task.OpsTask
  targets : Table Task.OpsTaskTarget
  executions : Table Task.OpsTaskExecution
  logs : Table Task.OpsTaskLog

namespace Backend

def credentials (b : Backend) : State := ⟨b.tokens, b.servers, b.redis⟩

def assets (b : Backend) : AssetDb := ⟨b.disks, b.networks⟩

def taskDb (b : Backend) : Task.Db := ⟨b.servers, b.services, b.tasks, b.targets, b.executions, b.logs⟩

def withCredentials (b : Backend) (s : State) : Backend :=
  { b with tokens := s.tokens, servers := s.servers, redis := s.redis }

def withAssets (b : Backend) (db : AssetDb) : Backend := { b with disks := db.disks, networks := db.networks }

def withTaskDb (b : Backend) (db : Task.Db) : Backend :=
  { b with
    servers := db.servers
    services := db.services
    tasks := db.tasks
    targets := db.targets
    executions := db.executions
    logs := db.logs }

end Backend

/-! ## The bodies -/

/-- A timestamp is a number of microseconds, in UTC. -/
structure HeartbeatRequest where
  serverId : Option ℕ
  agentVersion : Option String
  timestamp : Option ℤ
  agentVersion_length : ∀ s ∈ agentVersion, s.length ≤ 32

structure MetricsRequest where
  serverId : Option ℕ
  timestamp : ℤ
  cpuUsage : Option ℚ
  memoryUsage : Option ℚ
  memoryUsedBytes : Option ℕ
  diskUsage : Option ℚ
  networkInBytes : Option ℕ
  networkOutBytes : Option ℕ
  load1m : Option Number
  load5m : Option Number
  load15m : Option Number
  tcpConnections : Option ℕ
  uptimeSeconds : Option ℕ
  usage_range : ∀ usage ∈ [cpuUsage, memoryUsage, diskUsage], ∀ x ∈ usage, 0 ≤ x ∧ x ≤ 100
  load_range : ∀ load ∈ [load1m, load5m, load15m], ∀ x ∈ load, x = .inf false ∨ ∃ y, x = .finite y ∧ 0 ≤ y

inductive Body
  | register (data : RegisterRequest) (ip : Option String)
  | signingKey (publicKey : String)
  | heartbeat (data : HeartbeatRequest) (ip : Option String)
  | metrics (data : MetricsRequest)
  | assets (data : AssetsRequest)
  | services (data : ServicesRequest)
  | tasksPending
  | taskResult (data : Task.TaskResultRequest)

/-- A request of an agent. -/
structure Post where
  now : ℚ
  request : Request
  bearer : String
  headers : SignatureHeaders
  body : Body

inductive Reply
  | done
  | tasks (tasks : List Task.PendingTask)

/-! ## The subjects -/

/-- A timestamp in a column `DATETIME(fsp=3)`. -/
def storedTimestamp (timestamp : ℤ) : Time := (timestamp + 500) / 1000

/-- `HeartbeatRepository.record`. -/
def recordHeartbeat (heartbeats : Table OpsAgentHeartbeat) (now : ℚ) (serverId : ℕ) (agentVersion ip : Option String)
    (collectedAt : Option ℤ) : Except Failure (Table OpsAgentHeartbeat) := do
  let agentVersion ← nullable (varchar "agent_version" 32) agentVersion
  let ipAddress ← nullable (varchar "ip_address" 64) ip
  pure (heartbeats.insert
    ⟨0, serverId, agentVersion, ipAddress, storedTimestamp (collectedAt.getD (utcnow now))⟩)

def maxTimeSkewSeconds : ℤ := 300

/-- `_validate_timestamp`. -/
def validateTimestamp (now : ℚ) (timestamp : ℤ) : Except Failure Time :=
  if maxTimeSkewSeconds * 1000000 < |utcnow now - timestamp| then .error (.app ⟨.invalidTimestamp, "采集时间非法", 400⟩)
  else .ok (storedTimestamp timestamp)

def numeric (p s : ℕ) (name : String) (x : ℚ) : Except Failure (Decimal p s) :=
  match Decimal.ofRat? p s x with
  | some value => .ok value
  | none => .error (.dataError name)

/-- An unsigned column of `bits` bits. -/
def unsignedOf (bits : ℕ) (name : String) (n : ℕ) : Except Failure ℕ :=
  if n < 2 ^ bits then .ok n else .error (.dataError name)

/-- `ingest_metrics`: the statement's parameters come first, then its columns. -/
def ingestMetrics (metrics : Table Metric.MonitorServerMetric) (now : ℚ) (server : ℕ) (data : MetricsRequest) :
    Except Failure (Table Metric.MonitorServerMetric) := do
  assertServerMatch server data.serverId
  let collectedAt ← validateTimestamp now data.timestamp
  let load1m ← nullable literal data.load1m
  let load5m ← nullable literal data.load5m
  let load15m ← nullable literal data.load15m
  let cpuUsage ← nullable (numeric 5 2 "cpu_usage") data.cpuUsage
  let memoryUsage ← nullable (numeric 5 2 "memory_usage") data.memoryUsage
  let memoryUsedBytes ← nullable (unsignedOf 64 "memory_used_bytes") data.memoryUsedBytes
  let diskUsage ← nullable (numeric 5 2 "disk_usage") data.diskUsage
  let networkInBytes ← nullable (unsignedOf 64 "network_in_bytes") data.networkInBytes
  let networkOutBytes ← nullable (unsignedOf 64 "network_out_bytes") data.networkOutBytes
  let load1m ← nullable (numeric 10 2 "load_1m") load1m
  let load5m ← nullable (numeric 10 2 "load_5m") load5m
  let load15m ← nullable (numeric 10 2 "load_15m") load15m
  let tcpConnections ← nullable (unsignedOf 32 "tcp_connections") data.tcpConnections
  let uptimeSeconds ← nullable (unsignedOf 64 "uptime_seconds") data.uptimeSeconds
  pure (metrics.insert
    { id := 0
      serverId := server
      collectedAt := collectedAt
      cpuUsage := cpuUsage
      memoryUsage := memoryUsage
      memoryUsedBytes := memoryUsedBytes
      diskUsage := diskUsage
      networkInBytes := networkInBytes
      networkOutBytes := networkOutBytes
      load1m := load1m
      load5m := load5m
      load15m := load15m
      tcpConnections := tcpConnections
      uptimeSeconds := uptimeSeconds })

/-! ## The endpoints -/

section
variable (ed : Ed25519) {ι : Type} [DecidableEq ι] (collate : String → ι) (settings : SignatureSettings)

/-- `AgentService.register` with its heartbeat. The server is the one of the token. -/
def register (b : Backend) (now : ℚ) (data : RegisterRequest) (ip : Option String) : Except Failure Backend := do
  let s ← Agent.register ed b.credentials now data ip
  let serverId := ((authenticate b.tokens now data.token).map (·.serverId)).getD 0
  let heartbeats ← recordHeartbeat b.heartbeats now serverId data.agentVersion ip none
  pure { b.withCredentials s with heartbeats := heartbeats }

def heartbeat (b : Backend) (now : ℚ) (server : OpsServer) (data : HeartbeatRequest) (ip : Option String) :
    Except Failure Backend := do
  let s ← Agent.heartbeat b.credentials now server data.serverId ip data.agentVersion
  let heartbeats ← recordHeartbeat b.heartbeats now server.id data.agentVersion ip data.timestamp
  pure { b.withCredentials s with heartbeats := heartbeats }

/-- What the endpoints behind the authentication do. -/
def endpoint (b : Backend) (now : ℚ) (token : OpsAgentToken) (server : OpsServer) :
    Body → Except Failure (Backend × Reply)
  | .register _ _ => .ok (b, .done)
  | .signingKey publicKey => do
    let s ← rotateSigningKey ed b.credentials now token publicKey
    pure (b.withCredentials s, .done)
  | .heartbeat data ip => do
    let b ← heartbeat b now server data ip
    pure (b, .done)
  | .metrics data => do
    let metrics ← ingestMetrics b.metrics now server.id data
    pure ({ b with metrics := metrics }, .done)
  | .assets data => do
    let assets ← syncAssets collate server.id b.assets data
    pure (b.withAssets assets, .done)
  | .services data => do
    let services ← syncServices b.services (stored now) server.id data
    pure ({ b with services := services }, .done)
  | .tasksPending =>
    let (db, tasks) := Task.fetchPending b.taskDb (stored now) server.id
    .ok (b.withTaskDb db, .tasks tasks)
  | .taskResult data => do
    let db ← Task.reportResult b.taskDb (stored now) server.id data
    pure (b.withTaskDb db, .done)

/-- The answer to a request and the state after it. The registration checks its credentials itself; an endpoint that
fails is rolled back, and the cache keeps what the authentication wrote. -/
def serve (b : Backend) (r : Post) : Except Failure Reply × Backend :=
  match r.body with
  | .register data ip =>
    match register ed b r.now data ip with
    | .ok b' => (.ok .done, b')
    | .error e => (.error e, b)
  | body =>
    let (result, redis) := resolveAgent ed settings b.tokens b.servers b.redis r.now r.request r.bearer r.headers
    let b := { b with redis := redis }
    match result with
    | .error e => (.error (.app e), b)
    | .ok (token, server) =>
      match endpoint ed collate b r.now token server body with
      | .ok (b', reply) => (.ok reply, b')
      | .error e => (.error e, b)

end

/-- The credentials of a request. -/
def Post.credential (r : Post) : String :=
  match r.body with
  | .register data _ => data.token
  | _ => r.bearer

/-- The server whose token the request carries. -/
def boundTo (b : Backend) (r : Post) : Option ℕ := (authenticate b.tokens r.now r.credential).map (·.serverId)

end OpsMonitor.Agent.Endpoints
