import OpsMonitor.Agent.Authentication
import OpsMonitor.Server.Assets

/-! The agent endpoints as one machine over the credentials, the servers and the cache
(`services/agent_service.py`, `api/v1/agent.py`). What an endpoint writes to the tables of its
subject, such as metrics or executions, is left out. -/

namespace OpsMonitor.Agent
open Library

structure RegisterRequest where
  serverCode : String
  token : String
  hostname : String := ""
  osName : Option String := none
  osVersion : Option String := none
  kernelVersion : Option String := none
  architecture : Option String := none
  cpuModel : Option String := none
  cpuCores : Option ℕ := none
  memoryTotalBytes : Option ℕ := none
  diskTotalBytes : Option ℕ := none
  agentVersion : Option String := none
  signingPublicKey : Option String := none

structure State where
  tokens : Table OpsAgentToken
  servers : Table OpsServer
  redis : Redis

/-- `ServerRepository.register_server`, then the address of the agent. -/
def registerServer (now : ℚ) (data : RegisterRequest) (ip : Option String) (server : OpsServer) :
    OpsServer :=
  { server with
    hostname := data.hostname
    osName := data.osName <|> server.osName
    osVersion := data.osVersion <|> server.osVersion
    kernelVersion := data.kernelVersion <|> server.kernelVersion
    architecture := data.architecture <|> server.architecture
    cpuModel := data.cpuModel <|> server.cpuModel
    cpuCores := data.cpuCores <|> server.cpuCores
    memoryTotalBytes := data.memoryTotalBytes <|> server.memoryTotalBytes
    diskTotalBytes := data.diskTotalBytes <|> server.diskTotalBytes
    agentVersion := data.agentVersion <|> server.agentVersion
    registeredAt := some (stored now)
    lastHeartbeatAt := some (stored now)
    agentStatus := "ONLINE"
    ipAddress := orText ip server.ipAddress }

/-- `ServerRepository.update_last_heartbeat`. -/
def updateLastHeartbeat (now : ℚ) (ip agentVersion : Option String) (server : OpsServer) :
    OpsServer :=
  { server with
    lastHeartbeatAt := some (stored now)
    ipAddress := orText ip server.ipAddress
    agentVersion := if truthy agentVersion then agentVersion else server.agentVersion
    agentStatus := "ONLINE" }

theorem key_updateLastHeartbeat (now : ℚ) (ip agentVersion : Option String) (server : OpsServer) :
    Keyed.key (updateLastHeartbeat now ip agentVersion server) = Keyed.key server := rfl

theorem key_registerServer (now : ℚ) (data : RegisterRequest) (ip : Option String)
    (server : OpsServer) : Keyed.key (registerServer now data ip server) = Keyed.key server := rfl

/-- The update of the key columns of a token. -/
def OpsAgentToken.withKey (now : ℚ) (publicKey : String) (token : OpsAgentToken) : OpsAgentToken :=
  { token with
    signingPublicKey := some publicKey
    signingAlgorithm := some "ed25519"
    keyRegisteredAt := some (stored now) }

section
variable (ed : Ed25519) (settings : SignatureSettings)

/-- What `register` makes of the token: a key that is valid and not the stored one is taken for a
rotation, since an agent may be installed again. -/
def registerKey (now : ℚ) (signingPublicKey : Option String) (token : OpsAgentToken) :
    OpsAgentToken :=
  let token := match signingPublicKey with
    | none => token
    | some publicKey =>
      if publicKey ≠ "" ∧ isValidPublicKey ed publicKey ∧ some publicKey ≠ token.signingPublicKey then
        token.withKey now publicKey
      else token
  { token with lastUsedAt := some (stored now) }

theorem key_registerKey (now : ℚ) (signingPublicKey : Option String) (token : OpsAgentToken) :
    Keyed.key (registerKey ed now signingPublicKey token) = Keyed.key token := by
  unfold registerKey
  dsimp only
  split
  · rfl
  · split_ifs <;> rfl

/-- `AgentService.register`. -/
def register (s : State) (now : ℚ) (data : RegisterRequest) (ip : Option String) :
    Except Failure State :=
  match authenticate s.tokens now data.token with
  | none => .error (.app ⟨.agentUnauthorized, "Agent 凭证无效", 401⟩)
  | some token =>
    match (getServer s.servers token.serverId).filter (·.status = 1) with
    | none => .error (.app ⟨.serverNotFound, "服务器不存在或已停用", 404⟩)
    | some server =>
      if server.serverCode ≠ data.serverCode then
        .error (.app ⟨.agentUnauthorized, "服务器编码与凭证不匹配", 401⟩)
      else do
        let servers ← serverSchema.modify s.servers server.id (registerServer now data ip)
        pure { s with
          servers := servers
          tokens := s.tokens.modify token.id (registerKey ed now data.signingPublicKey)
            (key_registerKey ed now data.signingPublicKey) }

/-- `AgentService.rotate_signing_key`. -/
def rotateSigningKey (s : State) (now : ℚ) (token : OpsAgentToken) (publicKey : String) :
    Except Failure State :=
  if isValidPublicKey ed publicKey then
    .ok { s with tokens := s.tokens.modify token.id (·.withKey now publicKey) fun _ => rfl }
  else .error (.app ⟨.badRequest, "签名公钥格式非法", 400⟩)

/-- `AgentService.heartbeat`. -/
def heartbeat (s : State) (now : ℚ) (server : OpsServer) (serverId : Option ℕ)
    (ip agentVersion : Option String) : Except Failure State :=
  if ∃ id ∈ serverId, id ≠ server.id then
    .error (.app ⟨.agentUnauthorized, "服务器 ID 与凭证不匹配", 401⟩)
  else do
    let servers ← serverSchema.modify s.servers server.id (updateLastHeartbeat now ip agentVersion)
    pure { s with servers := servers }

/-- The endpoints of the router, with the data that matters here. -/
inductive AgentCall
  | register (data : RegisterRequest) (ip : Option String)
  | signingKey (publicKey : String)
  | heartbeat (serverId : Option ℕ) (ip agentVersion : Option String)
  | metrics
  | assets
  | services
  | tasksPending
  | taskResult

/-- A request as it reaches the router. -/
structure AgentRequest where
  now : ℚ
  request : Request
  bearer : String
  headers : SignatureHeaders
  call : AgentCall

/-- The endpoints behind `get_agent_server` and `get_agent_token`. The cache keeps what the
authentication wrote to it, also when the endpoint fails afterwards. -/
def serveSigned (s : State) (r : AgentRequest) :
    Except AppException (OpsAgentToken × OpsServer) × State :=
  let (result, redis) :=
    resolveAgent ed settings s.tokens s.servers s.redis r.now r.request r.bearer r.headers
  let s := { s with redis := redis }
  match result with
  | .error e => (.error e, s)
  | .ok (token, server) =>
    let served := match r.call with
      | .signingKey publicKey => rotateSigningKey ed s r.now token publicKey
      | .heartbeat serverId ip agentVersion => heartbeat s r.now server serverId ip agentVersion
      | .register .. | .metrics | .assets | .services | .tasksPending | .taskResult => .ok s
    (.ok (token, server), served.toOption.getD s)

/-- The state after a request; an endpoint that fails is rolled back. -/
def serve (s : State) (r : AgentRequest) : State :=
  match r.call with
  | .register data ip => (register ed s r.now data ip).toOption.getD s
  | _ => (serveSigned ed settings s r).2

/-- The token and the server a signed-only endpoint accepts the request for. -/
def accepts (s : State) (r : AgentRequest) : Option (OpsAgentToken × OpsServer) :=
  match r.call with
  | .register .. => none
  | _ => (serveSigned ed settings s r).1.toOption

end

end OpsMonitor.Agent
