import OpsMonitor.Server.Records
import OpsMonitor.Exceptions

/-! The service assets of a server: the status reports of its agent create and refresh them,
administrators allow or forbid controlled operations on them, and nothing removes them. -/

namespace OpsMonitor
open Library

/-- An item of a status report. -/
structure ServiceStatus where
  serviceName : String
  currentStatus : String
  serviceName_length : serviceName.length ≤ 64

structure ServicesRequest where
  serverId : Option ℕ
  services : List ServiceStatus

structure ServiceWhitelistUpdate where
  isWhitelisted : ℕ
  isWhitelisted_range : isWhitelisted ≤ 1

/-- `ServiceRepository.upsert_status`. -/
def upsertStatus (services : Table OpsServerService) (now : Time) (serverId : ℕ)
    (serviceName currentStatus : String) : Table OpsServerService :=
  match getByServerService services serverId serviceName with
  | some existing => services.modify existing.id fun s =>
      { s with currentStatus := currentStatus, lastCheckedAt := some now }
  | none => services.insert
      { id := 0
        serverId := serverId
        serviceName := serviceName
        displayName := some serviceName
        serviceType := "SYSTEMD"
        isWhitelisted := 1
        currentStatus := currentStatus
        lastCheckedAt := some now }

/-- `AgentService._assert_server_match`. -/
def assertServerMatch (server : ℕ) (serverId : Option ℕ) : Except Failure Unit :=
  if ∃ id ∈ serverId, id ≠ server then
    .error (.app ⟨.agentUnauthorized, "服务器 ID 与凭证不匹配", 401⟩)
  else .ok ()

/-- `AgentService.sync_services` for the server `server`. -/
def syncServices (services : Table OpsServerService) (now : Time) (server : ℕ)
    (data : ServicesRequest) : Except Failure (Table OpsServerService) := do
  assertServerMatch server data.serverId
  pure (data.services.foldl
    (fun services item => upsertStatus services now server item.serviceName item.currentStatus)
    services)

/-- `ServerService.update_service_whitelist`. -/
def updateServiceWhitelist (servers : Table OpsServer) (services : Table OpsServerService)
    (serverId serviceId : ℕ) (data : ServiceWhitelistUpdate) :
    Except Failure (Table OpsServerService) :=
  match getServer servers serverId with
  | none => .error (.app ⟨.serverNotFound, "服务器不存在", 404⟩)
  | some _ =>
    match services.get? serviceId with
    | none => .error (.app ⟨.serverNotFound, "服务不存在", 404⟩)
    | some service =>
      if service.serverId ≠ serverId then .error (.app ⟨.serverNotFound, "服务不存在", 404⟩)
      else .ok (services.modify serviceId fun s => { s with isWhitelisted := data.isWhitelisted })

/-! ## Looking a service up after a write -/

variable {services : Table OpsServerService} {serverId : ℕ} {name : String} {s : OpsServerService}

theorem getByServerService_modify {id : ℕ} {f : OpsServerService → OpsServerService}
    {hf : ∀ s, Keyed.key (f s) = Keyed.key s}
    (hkey : ∀ s, (f s).serverId = s.serverId ∧ (f s).serviceName = s.serviceName)
    (h : getByServerService services serverId name = some s) :
    getByServerService (services.modify id f hf) serverId name =
      some (if s.id = id then f s else s) := by
  unfold getByServerService at h ⊢
  rw [Table.modify, Table.select_update, List.head?_map, h]
  · rfl
  · intro s _
    split_ifs
    · rw [(hkey s).1, (hkey s).2]
    · rfl

theorem getByServerService_insert {a : OpsServerService}
    (h : getByServerService services serverId name = some s) :
    getByServerService (services.insert a) serverId name = some s := by
  unfold getByServerService Table.select at h ⊢
  rw [Table.insert, List.filter_append, List.head?_append, h]
  rfl

/-- A status report keeps the rows that exist, with their permission. -/
theorem upsertStatus_keeps (now : Time) (server : ℕ) (serviceName currentStatus : String)
    (hs : s ∈ services) :
    ∃ s' ∈ upsertStatus services now server serviceName currentStatus,
      s'.id = s.id ∧ s'.isWhitelisted = s.isWhitelisted := by
  unfold upsertStatus
  cases getByServerService services server serviceName with
  | some existing =>
    refine ⟨_, Table.mem_modify.mpr ⟨s, hs, rfl⟩, ?_⟩
    split_ifs <;> exact ⟨rfl, rfl⟩
  | none => exact ⟨s, Table.mem_insert.mpr (.inl hs), rfl, rfl⟩

theorem upsertStatus_lookup (now : Time) (server : ℕ) (serviceName currentStatus : String)
    (h : getByServerService services serverId name = some s) :
    ∃ s', getByServerService (upsertStatus services now server serviceName currentStatus) serverId
      name = some s' ∧ s'.id = s.id ∧ s'.isWhitelisted = s.isWhitelisted := by
  unfold upsertStatus
  cases getByServerService services server serviceName with
  | some existing =>
    refine ⟨_, getByServerService_modify (fun _ => ⟨rfl, rfl⟩) h, ?_⟩
    split_ifs <;> exact ⟨rfl, rfl⟩
  | none => exact ⟨s, getByServerService_insert h, rfl, rfl⟩

section Sync
variable {now : Time} {server : ℕ} {data : ServicesRequest} {services' : Table OpsServerService}

theorem syncServices_eq_ok (h : syncServices services now server data = .ok services') :
    services' = data.services.foldl
      (fun services item => upsertStatus services now server item.serviceName item.currentStatus)
      services := by
  unfold syncServices at h
  cases hmatch : assertServerMatch server data.serverId with
  | error x => simp [hmatch, bind, Except.bind] at h
  | ok u => simpa [hmatch, bind, Except.bind, pure, Except.pure] using h.symm

theorem syncServices_keeps (h : syncServices services now server data = .ok services')
    (hs : s ∈ services) :
    ∃ s' ∈ services', s'.id = s.id ∧ s'.isWhitelisted = s.isWhitelisted := by
  obtain rfl := syncServices_eq_ok h
  generalize data.services = items
  clear h
  induction items generalizing services s with
  | nil => exact ⟨s, hs, rfl, rfl⟩
  | cons item items ih =>
    obtain ⟨s₁, hs₁, hid, hallowed⟩ :=
      upsertStatus_keeps now server item.serviceName item.currentStatus hs
    obtain ⟨s₂, hs₂, hid', hallowed'⟩ := ih hs₁
    exact ⟨s₂, hs₂, hid'.trans hid, hallowed'.trans hallowed⟩

theorem syncServices_lookup (h : syncServices services now server data = .ok services')
    (hs : getByServerService services serverId name = some s) :
    ∃ s', getByServerService services' serverId name = some s' ∧ s'.id = s.id ∧
      s'.isWhitelisted = s.isWhitelisted := by
  obtain rfl := syncServices_eq_ok h
  generalize data.services = items
  clear h
  induction items generalizing services s with
  | nil => exact ⟨s, hs, rfl, rfl⟩
  | cons item items ih =>
    obtain ⟨s₁, hs₁, hid, hallowed⟩ :=
      upsertStatus_lookup now server item.serviceName item.currentStatus hs
    obtain ⟨s₂, hs₂, hid', hallowed'⟩ := ih hs₁
    exact ⟨s₂, hs₂, hid'.trans hid, hallowed'.trans hallowed⟩

end Sync

theorem updateServiceWhitelist_lookup {servers : Table OpsServer} {server serviceId : ℕ}
    {data : ServiceWhitelistUpdate} {services' : Table OpsServerService}
    (h : updateServiceWhitelist servers services server serviceId data = .ok services')
    (hs : getByServerService services serverId name = some s) :
    ∃ s', getByServerService services' serverId name = some s' ∧ s'.id = s.id ∧
      s'.isWhitelisted = if s.id = serviceId then data.isWhitelisted else s.isWhitelisted := by
  unfold updateServiceWhitelist at h
  split at h
  · cases h
  · split at h
    · cases h
    · split_ifs at h
      obtain rfl := Except.ok.inj h
      refine ⟨_, getByServerService_modify (fun _ => ⟨rfl, rfl⟩) hs, ?_⟩
      split_ifs <;> exact ⟨rfl, rfl⟩

end OpsMonitor
