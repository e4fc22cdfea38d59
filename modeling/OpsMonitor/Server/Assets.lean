import OpsMonitor.Library.Schema
import OpsMonitor.Server.Records
import OpsMonitor.Exceptions

/-! The table of servers with its constraints, and the creation of a server. -/

namespace OpsMonitor
open Library

/-- The columns whose values no request schema bounds. -/
def OpsServer.overflow (server : OpsServer) : Option Failure :=
  if 64 < server.ipAddress.length then some (.dataError "ip_address")
  else if ∃ n ∈ server.cpuCores, 2 ^ 32 ≤ n then some (.dataError "cpu_cores")
  else if ∃ n ∈ server.memoryTotalBytes, 2 ^ 64 ≤ n then some (.dataError "memory_total_bytes")
  else if ∃ n ∈ server.diskTotalBytes, 2 ^ 64 ≤ n then some (.dataError "disk_total_bytes")
  else none

def ukOpsServerCode : UniqueKey OpsServer Failure where
  error := .integrity "uk_ops_server_code"
  collide a b := a.serverCode = b.serverCode
  symm _ _ := decide_eq_decide.mpr eq_comm

def ukOpsServerIpPort : UniqueKey OpsServer Failure where
  error := .integrity "uk_ops_server_ip_port"
  collide a b := a.ipAddress = b.ipAddress ∧ a.sshPort = b.sshPort
  symm _ _ := decide_eq_decide.mpr (and_congr eq_comm eq_comm)

def serverSchema : Schema OpsServer Failure where
  column := OpsServer.overflow
  unique := [ukOpsServerCode, ukOpsServerIpPort]

/-- Request body of server creation, with the bounds the schema checks. -/
structure ServerCreate where
  serverCode : String
  hostname : String
  ipAddress : String
  sshPort : ℕ
  serverCode_length : 1 ≤ serverCode.length ∧ serverCode.length ≤ 64
  hostname_length : 1 ≤ hostname.length ∧ hostname.length ≤ 128
  ipAddress_length : 1 ≤ ipAddress.length ∧ ipAddress.length ≤ 64
  sshPort_range : 1 ≤ sshPort ∧ sshPort ≤ 65535

/-- The row that `create_server` inserts. -/
def newServer (data : ServerCreate) : OpsServer where
  id := 0
  serverCode := data.serverCode
  hostname := data.hostname
  ipAddress := data.ipAddress
  sshPort := data.sshPort
  osName := none
  osVersion := none
  kernelVersion := none
  architecture := none
  cpuModel := none
  cpuCores := none
  memoryTotalBytes := none
  diskTotalBytes := none
  agentVersion := none
  agentStatus := "OFFLINE"
  lastHeartbeatAt := none
  registeredAt := none
  status := 1
  deletedAt := none

/-- `get_by_server_code`, among the servers that are not deleted. -/
def getByServerCode (servers : Table OpsServer) (serverCode : String) : Option OpsServer :=
  (servers.select fun s => s.serverCode = serverCode ∧ s.deletedAt = none).head?

/-- `get_by_ip_port`, among the servers that are not deleted. -/
def getByIpPort (servers : Table OpsServer) (ipAddress : String) (sshPort : ℕ) : Option OpsServer :=
  (servers.select fun s =>
    s.ipAddress = ipAddress ∧ s.sshPort = sshPort ∧ s.deletedAt = none).head?

/-- `ServerService.create_server`. -/
def createServer (servers : Table OpsServer) (data : ServerCreate) :
    Except Failure (Table OpsServer) :=
  if (getByServerCode servers data.serverCode).isSome then
    .error (.app ⟨.serverCodeExists, "服务器编码已存在", 409⟩)
  else if (getByIpPort servers data.ipAddress data.sshPort).isSome then
    .error (.app ⟨.serverIpExists, "IP 与端口已被占用", 409⟩)
  else serverSchema.insert servers (newServer data)

/-! ## The constraints -/

variable {servers servers' : Table OpsServer} {server : OpsServer}

theorem insert_of_createServer {data : ServerCreate} (h : createServer servers data = .ok servers') :
    serverSchema.insert servers (newServer data) = .ok servers' := by
  unfold createServer at h
  split_ifs at h
  exact h

theorem overflow_eq_none : server.overflow = none ↔ server.ipAddress.length ≤ 64 ∧
    (∀ n ∈ server.cpuCores, n < 2 ^ 32) ∧ (∀ n ∈ server.memoryTotalBytes, n < 2 ^ 64) ∧
      ∀ n ∈ server.diskTotalBytes, n < 2 ^ 64 := by
  unfold OpsServer.overflow
  split_ifs with hip hcpu hmemory hdisk
  · simp [not_le.mpr hip]
  · simpa using fun _ h => absurd hcpu (by simpa using h)
  · simpa using fun _ _ h => absurd hmemory (by simpa using h)
  · simpa using fun _ _ _ => hdisk
  · simp only [not_exists, not_and, not_le] at hcpu hmemory hdisk
    simp only [true_iff]
    exact ⟨not_lt.mp hip, hcpu, hmemory, hdisk⟩

/-- No other server has the code, and none has both the address and the port. -/
theorem serverSchema_clash_eq_none : serverSchema.clash servers server = none ↔
    (∀ s ∈ servers, s.serverCode = server.serverCode → s.id = server.id) ∧
      ∀ s ∈ servers, s.ipAddress = server.ipAddress → s.sshPort = server.sshPort →
        s.id = server.id := by
  rw [Schema.clash_eq_none]
  simp only [serverSchema, List.forall_mem_cons, ukOpsServerCode, ukOpsServerIpPort,
    decide_eq_true_eq, List.not_mem_nil, false_imp_iff, implies_true, and_true, and_imp]
  constructor
  · rintro ⟨hcode, haddress⟩
    exact ⟨fun s hs h => hcode s hs h.symm, fun s hs h h' => haddress s hs h.symm h'.symm⟩
  · rintro ⟨hcode, haddress⟩
    exact ⟨fun s hs h => hcode s hs h.symm, fun s hs h h' => haddress s hs h.symm h'.symm⟩

end OpsMonitor
