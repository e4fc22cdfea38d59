import OpsMonitor.Library.Loops
import OpsMonitor.Library.Runs
import OpsMonitor.Agent.Acceptance
import OpsMonitor.Agent.Service

/-! When an agent that calls is shown as alive. The address of the caller is written to its
server, and the table of servers demands that address and port are unique. -/

namespace OpsMonitor.Agent
open Library

variable {ed : Ed25519} {s : State} {now : ℚ} {ip : Option String} {servers : Table OpsServer}
  {server : OpsServer}

/-! ## The histories of the table -/

/-- The writes to the table of servers. Which agent may write is left open here. -/
inductive AssetEvent
  | create (data : ServerCreate)
  | register (id : ℕ) (now : ℚ) (data : RegisterRequest) (ip : Option String)
  | heartbeat (id : ℕ) (now : ℚ) (ip agentVersion : Option String)
  | refresh (now : Time)
  | setStatus (id status : ℕ)
  | softDelete (id : ℕ) (now : Time)

def AssetEvent.perform (servers : Table OpsServer) : AssetEvent → Except Failure (Table OpsServer)
  | create data => createServer servers data
  | register id now data ip =>
    serverSchema.modify servers id (registerServer now data ip) (key_registerServer now data ip)
  | heartbeat id now ip agentVersion =>
    serverSchema.modify servers id (updateLastHeartbeat now ip agentVersion)
      (key_updateLastHeartbeat now ip agentVersion)
  | refresh now => .ok (refreshAgentStatuses servers now)
  | setStatus id status => .ok (servers.modify id fun s => { s with status := status })
  | softDelete id now => .ok (servers.modify id fun s => { s with deletedAt := some now })

def AssetEvent.step (servers : Table OpsServer) (e : AssetEvent) : Table OpsServer :=
  (e.perform servers).toOption.getD servers

/-- The table after a history that starts without servers. -/
def assetsAfter (es : List AssetEvent) : Table OpsServer := run AssetEvent.step .empty es

/-- A write that leaves the columns of the constraints alone. -/
theorem consistent_update {f : OpsServer → OpsServer} {hf : ∀ s, Keyed.key (f s) = Keyed.key s}
    (hsame : ∀ s, (f s).overflow = s.overflow ∧ (f s).serverCode = s.serverCode ∧
      (f s).ipAddress = s.ipAddress ∧ (f s).sshPort = s.sshPort)
    (h : serverSchema.Consistent servers) : serverSchema.Consistent (servers.update f hf) := by
  refine h.update (fun s hs => (hsame s).1.trans (h.column s hs)) fun u hu a b => ?_
  obtain ⟨-, hcode, hip, hport⟩ := hsame a
  obtain ⟨-, hcode', hip', hport'⟩ := hsame b
  rcases List.mem_cons.mp hu with rfl | hu
  · simp only [ukOpsServerCode, hcode, hcode']
  · obtain rfl := List.mem_singleton.mp hu
    simp only [ukOpsServerIpPort, hip, hip', hport, hport']

theorem consistent_step (h : serverSchema.Consistent servers) (e : AssetEvent) :
    serverSchema.Consistent (e.step servers) := by
  unfold AssetEvent.step
  cases hperform : e.perform servers with
  | error => exact h
  | ok servers' =>
    change serverSchema.Consistent servers'
    cases e with
    | create => exact h.insert (insert_of_createServer hperform)
    | register => exact h.modify hperform
    | heartbeat => exact h.modify hperform
    | refresh | setStatus | softDelete =>
      obtain rfl := Except.ok.inj hperform
      refine consistent_update (fun s => ?_) h
      first | exact ⟨rfl, rfl, rfl, rfl⟩ | split_ifs <;> exact ⟨rfl, rfl, rfl, rfl⟩

theorem consistent_assetsAfter (es : List AssetEvent) :
    serverSchema.Consistent (assetsAfter es) :=
  run_induction (C := fun _ _ => True) (I := fun _ servers => serverSchema.Consistent servers)
    .empty (fun _ e _ h => consistent_step h e) es fun _ _ _ _ => trivial

/-! ## Register and heartbeat -/

/-- The call succeeded and the server shows as alive since `now`. -/
def Alive (now : ℚ) (serverId : ℕ) (result : Except Failure State) : Prop :=
  ∃ s', result = .ok s' ∧ ∃ row ∈ s'.servers, row.id = serverId ∧ row.agentStatus = "ONLINE" ∧
    row.lastHeartbeatAt = some (stored now)

/-- No other server has the address of the caller together with the port, deleted and disabled
servers included, and the address fits its column. -/
def AddressFree (servers : Table OpsServer) (server : OpsServer) (ip : Option String) : Prop :=
  ∀ a ∈ ip, a ≠ "" → a.length ≤ 64 ∧
    ∀ other ∈ servers, other.ipAddress = a → other.sshPort = server.sshPort → other.id = server.id

/-- The numbers of a registration fit their columns. -/
def RegisterRequest.NumbersFit (data : RegisterRequest) : Prop :=
  (∀ n ∈ data.cpuCores, n < 2 ^ 32) ∧ (∀ n ∈ data.memoryTotalBytes, n < 2 ^ 64) ∧
    ∀ n ∈ data.diskTotalBytes, n < 2 ^ 64

theorem forall_mem_orElse {α : Type*} {p : α → Prop} {new old : Option α} (hold : ∀ a ∈ old, p a) :
    (∀ a ∈ (new <|> old), p a) ↔ ∀ a ∈ new, p a := by
  cases new with
  | none => simpa using hold
  | some a => simp

/-- A write that sets the address is refused for its columns, or for another server that has
the address. -/
theorem refuse_address_iff (h : serverSchema.Consistent servers) (hs : server ∈ servers)
    {written : OpsServer} (hid : written.id = server.id) (hcode : written.serverCode = server.serverCode)
    (hport : written.sshPort = server.sshPort)
    (hip : written.ipAddress = orText ip server.ipAddress) :
    serverSchema.refuse servers written = none ↔ AddressFree servers server ip ∧
      (∀ n ∈ written.cpuCores, n < 2 ^ 32) ∧ (∀ n ∈ written.memoryTotalBytes, n < 2 ^ 64) ∧
        ∀ n ∈ written.diskTotalBytes, n < 2 ^ 64 := by
  have hfits : server.ipAddress.length ≤ 64 := (overflow_eq_none.mp (h.column server hs)).1
  have hunique := serverSchema_clash_eq_none.mp (Schema.clash_eq_none.mpr
    fun u hu s hs' hc => congrArg Keyed.key (h.unique u hu server hs s hs' hc).symm)
  have hfree : (orText ip server.ipAddress).length ≤ 64 ∧ (∀ s ∈ servers,
      s.ipAddress = orText ip server.ipAddress → s.sshPort = server.sshPort → s.id = server.id) ↔
        AddressFree servers server ip := by
    cases ip with
    | none => simpa [AddressFree, orText] using ⟨hfits, hunique.2⟩
    | some a =>
      by_cases ha : a = ""
      · simpa [AddressFree, orText, ha] using ⟨hfits, hunique.2⟩
      · simp [AddressFree, orText, ha]
  rw [Schema.refuse_eq_none, serverSchema_clash_eq_none, hid, hcode, hport, hip]
  change written.overflow = none ∧ _ ↔ _
  rw [overflow_eq_none, hip, ← hfree]
  constructor
  · rintro ⟨⟨hlength, hnumbers⟩, -, haddress⟩
    exact ⟨⟨hlength, haddress⟩, hnumbers⟩
  · rintro ⟨⟨hlength, haddress⟩, hnumbers⟩
    exact ⟨⟨hlength, hnumbers⟩, hunique.1, haddress⟩

theorem heartbeat_alive_iff (h : serverSchema.Consistent s.servers) (hs : server ∈ s.servers)
    {serverId : Option ℕ} {agentVersion : Option String} (hmatch : ∀ id ∈ serverId, id = server.id) :
    Alive now server.id (heartbeat s now server serverId ip agentVersion) ↔
      AddressFree s.servers server ip := by
  have hold := overflow_eq_none.mp (h.column server hs)
  have hrefuse : serverSchema.refuse s.servers (updateLastHeartbeat now ip agentVersion server) =
      none ↔ AddressFree s.servers server ip ∧ _ := refuse_address_iff h hs rfl rfl rfl rfl
  have hrefuse := hrefuse.trans (and_iff_left hold.2)
  have hmismatch : ¬ ∃ id ∈ serverId, id ≠ server.id := by
    rintro ⟨id, hid, hne⟩
    exact hne (hmatch id hid)
  rw [← hrefuse, heartbeat, if_neg hmismatch]
  constructor
  · rintro ⟨s', hok, -⟩
    obtain ⟨servers', hmodify, -⟩ := bind_eq_ok.mp hok
    exact ((Schema.modify_key_eq_ok hs).mp hmodify).1
  · intro hnone
    have hmodify : serverSchema.modify s.servers server.id (updateLastHeartbeat now ip agentVersion)
        (fun _ => rfl) = .ok _ := (Schema.modify_key_eq_ok hs).mpr ⟨hnone, rfl⟩
    exact ⟨_, bind_eq_ok.mpr ⟨_, hmodify, rfl⟩, updateLastHeartbeat now ip agentVersion server,
      Schema.mem_modify_key (f := updateLastHeartbeat now ip agentVersion) (fun _ => rfl) hs,
      rfl, rfl, rfl⟩

theorem register_alive_iff (h : serverSchema.Consistent s.servers) {data : RegisterRequest}
    {token : OpsAgentToken} (htoken : authenticate s.tokens now data.token = some token)
    (hserver : getServer s.servers token.serverId = some server) (hactive : server.status = 1)
    (hcode : server.serverCode = data.serverCode) :
    Alive now server.id (register ed s now data ip) ↔
      AddressFree s.servers server ip ∧ data.NumbersFit := by
  have hs : server ∈ s.servers := (getServer_eq_some hserver).1
  obtain ⟨-, hcpu, hmemory, hdisk⟩ := overflow_eq_none.mp (h.column server hs)
  have hrefuse : serverSchema.refuse s.servers (registerServer now data ip server) = none ↔
      AddressFree s.servers server ip ∧ _ := refuse_address_iff h hs rfl rfl rfl rfl
  have hnumbers : ((∀ n ∈ (registerServer now data ip server).cpuCores, n < 2 ^ 32) ∧
      (∀ n ∈ (registerServer now data ip server).memoryTotalBytes, n < 2 ^ 64) ∧
        ∀ n ∈ (registerServer now data ip server).diskTotalBytes, n < 2 ^ 64) ↔ data.NumbersFit :=
    and_congr (forall_mem_orElse hcpu)
      (and_congr (forall_mem_orElse hmemory) (forall_mem_orElse hdisk))
  rw [hnumbers] at hrefuse
  have hfilter : (getServer s.servers token.serverId).filter (·.status = 1) = some server := by
    rw [hserver]
    exact if_pos (decide_eq_true hactive)
  rw [← hrefuse, register, htoken]
  simp only [hfilter, hcode, ne_eq, not_true_eq_false, if_false]
  constructor
  · rintro ⟨s', hok, -⟩
    obtain ⟨servers', hmodify, -⟩ := bind_eq_ok.mp hok
    exact ((Schema.modify_key_eq_ok hs).mp hmodify).1
  · intro hnone
    have hmodify : serverSchema.modify s.servers server.id (registerServer now data ip)
        (fun _ => rfl) = .ok _ := (Schema.modify_key_eq_ok hs).mpr ⟨hnone, rfl⟩
    exact ⟨_, bind_eq_ok.mpr ⟨_, hmodify, rfl⟩, registerServer now data ip server,
      Schema.mem_modify_key (f := registerServer now data ip) (fun _ => rfl) hs, rfl, rfl, rfl⟩

namespace Sample

def created (serverCode ipAddress : String) (hcode : 1 ≤ serverCode.length ∧ serverCode.length ≤ 64)
    (hip : 1 ≤ ipAddress.length ∧ ipAddress.length ≤ 64) : AssetEvent :=
  .create ⟨serverCode, serverCode, ipAddress, 22, hcode, hcode.imp_right (Nat.le_trans · (by decide)),
    hip, by decide⟩

/-- Two servers behind one router: the agent of the first has called from its address. -/
def behindRouter : List AssetEvent :=
  [created "web-01" "10.0.0.1" (by decide) (by decide),
    created "web-02" "10.0.0.2" (by decide) (by decide),
    .heartbeat 1 1700000000 (some "198.51.100.7") none]

def second : OpsServer :=
  ⟨2, "web-02", "web-02", "10.0.0.2", 22, none, none, none, none, none, none, none, none, none,
    "OFFLINE", none, none, 1, none⟩

end Sample

end OpsMonitor.Agent
