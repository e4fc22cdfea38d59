import OpsMonitor.Library.Table
import OpsMonitor.Clock

/-! The asset tables that the task engine and the agent protocol share. -/

namespace OpsMonitor
open Library

structure OpsServer where
  id : ℕ
  serverCode : String
  hostname : String
  ipAddress : String
  sshPort : ℕ
  osName : Option String
  osVersion : Option String
  kernelVersion : Option String
  architecture : Option String
  cpuModel : Option String
  cpuCores : Option ℕ
  memoryTotalBytes : Option ℕ
  diskTotalBytes : Option ℕ
  agentVersion : Option String
  agentStatus : String
  lastHeartbeatAt : Option Time
  registeredAt : Option Time
  status : ℕ
  deletedAt : Option Time
  deriving DecidableEq, Repr

instance : Keyed OpsServer := ⟨OpsServer.id, fun n s => { s with id := n }, fun _ _ => rfl⟩

structure OpsServerService where
  id : ℕ
  serverId : ℕ
  serviceName : String
  displayName : Option String
  serviceType : String
  isWhitelisted : ℕ
  currentStatus : String
  lastCheckedAt : Option Time
  deriving DecidableEq, Repr

instance : Keyed OpsServerService :=
  ⟨OpsServerService.id, fun n s => { s with id := n }, fun _ _ => rfl⟩

/-- `ServerRepository.get`: soft-deleted servers are not found. -/
def getServer (servers : Table OpsServer) (id : ℕ) : Option OpsServer :=
  match servers.get? id with
  | some server => if server.deletedAt.isNone then some server else none
  | none => none

/-- The status of an agent by its last heartbeat. -/
def agentStatusAt (lastHeartbeatAt : Option Time) (now : Time) : String :=
  match lastHeartbeatAt with
  | none => "OFFLINE"
  | some heartbeat =>
    if heartbeat ≥ now - Clock.seconds 30 then "ONLINE"
    else if heartbeat ≥ now - Clock.seconds 90 then "WARNING"
    else "OFFLINE"

/-- `ServerRepository.refresh_agent_statuses`: one update of the servers in use. -/
def refreshAgentStatuses (servers : Table OpsServer) (now : Time) : Table OpsServer :=
  servers.update fun s => { s with
    agentStatus :=
      if s.status = 1 ∧ s.deletedAt = none then agentStatusAt s.lastHeartbeatAt now
      else s.agentStatus }

/-- `ServiceRepository.get_by_server_service`. -/
def getByServerService (services : Table OpsServerService) (serverId : ℕ) (serviceName : String) :
    Option OpsServerService :=
  (services.select fun s => s.serverId = serverId ∧ s.serviceName = serviceName).head?

end OpsMonitor
