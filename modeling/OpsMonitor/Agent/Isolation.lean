import OpsMonitor.Agent.Acceptance
import OpsMonitor.Agent.Endpoints
import OpsMonitor.Library.Frames
import OpsMonitor.Library.Runs

/-! The servers are isolated from each other: a request touches the rows of the server whose token it carries, and of
the tasks that run there only the status and its times. -/

namespace OpsMonitor.Agent.Endpoints
open Library

/-! ## The task tables -/

/-- The columns of a task that a poll and a report leave alone. -/
def fixedColumns (task : Task.OpsTask) : Task.OpsTask :=
  { task with status := .created, startedAt := none, finishedAt := none }

/-- What an execution is for. -/
def placement (e : Task.OpsTaskExecution) : ℕ × ℕ × ℕ := (e.id, e.taskId, e.serverId)

/-- The execution runs on the server. -/
def RunsOn (db : Task.Db) (server : ℕ) (executionId : ℕ) : Prop :=
  ∃ e ∈ db.executions, e.id = executionId ∧ e.serverId = server

/-- The task has an execution on the server. -/
def Involves (db : Task.Db) (server : ℕ) (taskId : ℕ) : Prop :=
  ∃ e ∈ db.executions, e.taskId = taskId ∧ e.serverId = server

theorem runsOn_iff {db : Task.Db} {server executionId : ℕ} :
    RunsOn db server executionId ↔ ∃ taskId, (executionId, taskId, server) ∈ db.executions.rows.map placement := by
  constructor
  · rintro ⟨e, he, rfl, rfl⟩
    exact ⟨e.taskId, List.mem_map_of_mem he⟩
  · rintro ⟨taskId, hmem⟩
    obtain ⟨e, he, heq⟩ := List.mem_map.mp hmem
    obtain ⟨rfl, -, rfl⟩ : e.id = executionId ∧ e.taskId = taskId ∧ e.serverId = server := by
      simpa [placement] using heq
    exact ⟨e, he, rfl, rfl⟩

theorem involves_iff {db : Task.Db} {server taskId : ℕ} :
    Involves db server taskId ↔ ∃ executionId, (executionId, taskId, server) ∈ db.executions.rows.map placement := by
  constructor
  · rintro ⟨e, he, rfl, rfl⟩
    exact ⟨e.id, List.mem_map_of_mem he⟩
  · rintro ⟨executionId, hmem⟩
    obtain ⟨e, he, heq⟩ := List.mem_map.mp hmem
    obtain ⟨-, rfl, rfl⟩ : e.id = executionId ∧ e.taskId = taskId ∧ e.serverId = server := by
      simpa [placement] using heq
    exact ⟨e, he, rfl, rfl⟩

structure TaskFrame (server : ℕ) (db db' : Task.Db) : Prop where
  servers : db'.servers = db.servers
  services : db'.services = db.services
  targets : db'.targets = db.targets
  executions : Table.AgreeOff (·.serverId = server) db.executions db'.executions
  placements : Table.AgreeOn placement db.executions db'.executions
  logs : Table.AgreeOff (RunsOn db server ·.executionId) db.logs db'.logs
  tasks : Table.AgreeOff (Involves db server ·.id) db.tasks db'.tasks
  columns : Table.AgreeOn fixedColumns db.tasks db'.tasks

namespace TaskFrame
variable {server : ℕ} {db₀ db : Task.Db} {e : Task.OpsTaskExecution}

theorem refl (db : Task.Db) : TaskFrame server db db :=
  ⟨rfl, rfl, rfl, .refl _, rfl, .refl _, .refl _, rfl⟩

theorem withExecution (h : TaskFrame server db₀ db) (he : e ∈ db₀.executions) (hserver : e.serverId = server)
    {f : Task.OpsTaskExecution → Task.OpsTaskExecution} {hf : ∀ r, Keyed.key (f r) = Keyed.key r}
    (hkeeps : ∀ r, placement (f r) = placement r) : TaskFrame server db₀ (db.withExecution e.id f hf) := by
  have hexecutions : Table.AgreeOff (·.serverId = server) db.executions (db.executions.modify e.id f hf) := by
    refine .modify hf fun r hr hk => ?_
    have hmine := h.executions.mine_of_key he hserver hr hk
    have hsame : (f r).serverId = r.serverId := congrArg (·.2.2) (hkeeps r)
    exact ⟨hmine, hsame.trans hmine⟩
  exact ⟨h.servers, h.services, h.targets, h.executions.trans hexecutions,
    (Table.AgreeOn.modify hf hkeeps).trans h.placements, h.logs, h.tasks, h.columns⟩

theorem record (h : TaskFrame server db₀ db) (he : e ∈ db₀.executions) (hserver : e.serverId = server)
    (content level : String) : TaskFrame server db₀ (db.record e.id content level) :=
  ⟨h.servers, h.services, h.targets, h.executions, h.placements, h.logs.trans (.insert ⟨e, he, rfl, hserver⟩), h.tasks,
    h.columns⟩

theorem withTask (h : TaskFrame server db₀ db) (he : e ∈ db₀.executions) (hserver : e.serverId = server)
    {f : Task.OpsTask → Task.OpsTask} {hf : ∀ t, Keyed.key (f t) = Keyed.key t}
    (hkeeps : ∀ t, fixedColumns (f t) = fixedColumns t) : TaskFrame server db₀ (db.withTask e.taskId f hf) := by
  refine ⟨h.servers, h.services, h.targets, h.executions, h.placements, h.logs,
    h.tasks.trans (.modify hf fun t ht hk => ?_), (Table.AgreeOn.modify hf hkeeps).trans h.columns⟩
  exact ⟨⟨e, he, hk.symm, hserver⟩, ⟨e, he, hk.symm.trans (hf t).symm, hserver⟩⟩

theorem aggregateTaskStatus (h : TaskFrame server db₀ db) (he : e ∈ db₀.executions) (hserver : e.serverId = server)
    (now : Time) : TaskFrame server db₀ (Task.aggregateTaskStatus db now e.taskId) := by
  unfold Task.aggregateTaskStatus
  dsimp only
  split
  · refine h.withTask he hserver ?_
    exact fun _ => rfl
  · refine h.withTask he hserver ?_
    exact fun _ => rfl

end TaskFrame

section
variable {server : ℕ} {db db' : Task.Db} {now : Time}

theorem claim_frame {db₀ : Task.Db} {acc : Task.Db × List Task.PendingTask} {e : Task.OpsTaskExecution}
    (h : TaskFrame server db₀ acc.1) (he : e ∈ db₀.executions) (hserver : e.serverId = server) :
    TaskFrame server db₀ (Task.claimExecution now acc e).1 := by
  unfold Task.claimExecution
  split
  · exact h
  · rename_i task htask
    have hid : task.id = e.taskId := (Table.get?_eq_some.mp htask).2
    dsimp only
    rw [hid]
    refine (h.withExecution he hserver ?_).withTask he hserver ?_
    · exact fun _ => rfl
    · exact fun _ => rfl

/-- A poll writes to executions of its server, and hands out no others. -/
theorem fetchPending_frame (db : Task.Db) (now : Time) (server : ℕ) :
    TaskFrame server db (Task.fetchPending db now server).1 ∧
      ∀ task ∈ (Task.fetchPending db now server).2, RunsOn db server task.executionId := by
  have hturns : ∀ (l : List Task.OpsTaskExecution) (acc : Task.Db × List Task.PendingTask),
      (∀ e ∈ l, e ∈ db.executions ∧ e.serverId = server) → TaskFrame server db acc.1 →
      (∀ task ∈ acc.2, RunsOn db server task.executionId) →
      TaskFrame server db (l.foldl (Task.claimExecution now) acc).1 ∧
        ∀ task ∈ (l.foldl (Task.claimExecution now) acc).2, RunsOn db server task.executionId := by
    intro l
    induction l with
    | nil => exact fun acc _ hframe hhanded => ⟨hframe, hhanded⟩
    | cons e l ih =>
      intro acc hl hframe hhanded
      obtain ⟨he, hserver⟩ := hl e List.mem_cons_self
      refine ih _ (fun e' he' => hl e' (List.mem_cons_of_mem _ he')) (claim_frame hframe he hserver) ?_
      intro task htask
      unfold Task.claimExecution at htask
      split at htask
      · exact hhanded task htask
      · rcases List.mem_append.mp htask with htask | htask
        · exact hhanded task htask
        · obtain rfl := List.mem_singleton.mp htask
          exact ⟨e, he, rfl, hserver⟩
  refine hturns _ _ (fun e he => ?_) (.refl db) fun task htask => by cases htask
  obtain ⟨he, hclaimable⟩ := Table.mem_select.mp (List.mem_of_mem_take he)
  exact ⟨he, (of_decide_eq_true hclaimable).1⟩

theorem recordResult_frame {task : Task.OpsTask} {e : Task.OpsTaskExecution} {data : Task.TaskResultRequest}
    (he : e ∈ db.executions) (hserver : e.serverId = server) :
    TaskFrame server db (Task.recordResult db now task e data) := by
  have hstart : TaskFrame server db db := .refl db
  unfold Task.recordResult
  dsimp only
  split_ifs
  all_goals
    refine (hstart.withExecution he hserver ?_).record he hserver _ _
    exact fun _ => rfl

/-- A report writes to an execution of its server, or is refused. -/
theorem reportResult_frame {data : Task.TaskResultRequest} (h : Task.reportResult db now server data = .ok db') :
    TaskFrame server db db' ∧ RunsOn db server data.executionId := by
  unfold Task.reportResult at h
  cases hget : db.executions.get? data.executionId with
  | none =>
    rw [hget] at h
    cases h
  | some e =>
    rw [hget] at h
    obtain ⟨he, hid⟩ := Table.get?_eq_some.mp hget
    dsimp only at h
    split_ifs at h with hother hfinished
    · rw [← Except.ok.inj h]
      exact ⟨.refl db, e, he, hid, not_not.mp hother⟩
    · have hserver : e.serverId = server := not_not.mp hother
      obtain ⟨task, htask, h⟩ := bind_eq_ok.mp h
      have htaskId : task.id = e.taskId := by
        unfold Task.getTaskEntity at htask
        split at htask
        · cases htask
        · rename_i found hfound
          rw [← Except.ok.inj htask]
          exact (Table.get?_eq_some.mp hfound).2
      rw [← pure_eq_ok.mp h, htaskId]
      exact ⟨(recordResult_frame he hserver).aggregateTaskStatus he hserver now, e, he, hid, hserver⟩

end

/-! ## All tables -/

/-- What a request for the server may do: to its own rows everything, to the tasks that it runs their status. -/
structure Frame (server : ℕ) (b b' : Backend) : Prop where
  tokens : Table.AgreeOff (·.serverId = server) b.tokens b'.tokens
  servers : Table.AgreeOff (·.id = server) b.servers b'.servers
  available : b'.redis.available = b.redis.available
  keys : ∀ entry, (∀ requestId, entry.1 ≠ replayKey server requestId) →
    (entry ∈ b'.redis.keys ↔ entry ∈ b.redis.keys)
  heartbeats : Table.AgreeOff (·.serverId = server) b.heartbeats b'.heartbeats
  metrics : Table.AgreeOff (·.serverId = server) b.metrics b'.metrics
  disks : Table.AgreeOff (·.serverId = server) b.disks b'.disks
  networks : Table.AgreeOff (·.serverId = server) b.networks b'.networks
  services : Table.AgreeOff (·.serverId = server) b.services b'.services
  targets : b'.targets = b.targets
  executions : Table.AgreeOff (·.serverId = server) b.executions b'.executions
  placements : Table.AgreeOn placement b.executions b'.executions
  logs : Table.AgreeOff (RunsOn b.taskDb server ·.executionId) b.logs b'.logs
  tasks : Table.AgreeOff (Involves b.taskDb server ·.id) b.tasks b'.tasks
  columns : Table.AgreeOn fixedColumns b.tasks b'.tasks

namespace Frame
variable {server : ℕ} {b b' : Backend}

theorem refl (b : Backend) : Frame server b b where
  tokens := .refl _
  servers := .refl _
  available := rfl
  keys _ _ := Iff.rfl
  heartbeats := .refl _
  metrics := .refl _
  disks := .refl _
  networks := .refl _
  services := .refl _
  targets := rfl
  executions := .refl _
  placements := rfl
  logs := .refl _
  tasks := .refl _
  columns := rfl

theorem withTaskDb {db : Task.Db} (h : TaskFrame server b.taskDb db) : Frame server b (b.withTaskDb db) where
  __ := refl b
  servers := by
    rw [Backend.withTaskDb, h.servers]
    exact .refl _
  services := by
    rw [Backend.withTaskDb, h.services]
    exact .refl _
  targets := h.targets
  executions := h.executions
  placements := h.placements
  logs := h.logs
  tasks := h.tasks
  columns := h.columns

end Frame

/-! ## The authentication -/

section
variable {ed : Ed25519} {settings : SignatureSettings} {tokens : Table OpsAgentToken} {servers : Table OpsServer}
  {redis redis' : Redis} {now : ℚ} {request : Request} {bearer : String} {headers : SignatureHeaders}
  {token : OpsAgentToken} {server : OpsServer} {result : Except AppException (OpsAgentToken × OpsServer)}

/-- A key that is put leaves the others as they are. -/
theorem mem_keys_put {key : String} {expiry : ℚ} {entry : String × ℚ} (h : entry.1 ≠ key) :
    entry ∈ (redis.put key expiry).keys ↔ entry ∈ redis.keys := by
  show entry ∈ (key, expiry) :: redis.keys.filter _ ↔ _
  rw [List.mem_cons, or_iff_right fun heq => h (congrArg Prod.fst heq), List.mem_filter,
    and_iff_left (decide_eq_true h)]

/-- The server that the authentication reads off the token. -/
theorem resolveAgent_server
    (h : resolveAgent ed settings tokens servers redis now request bearer headers = (.ok (token, server), redis')) :
    authenticate tokens now bearer = some token ∧ server ∈ servers ∧ server.id = token.serverId := by
  obtain ⟨htoken, hget, -⟩ := resolveAgent_ok h
  obtain ⟨hmem, hid, -⟩ := getServer_eq_some hget
  exact ⟨htoken, hmem, hid⟩

/-- The authentication writes at most a key of the server of the token. -/
theorem resolveAgent_redis
    (h : resolveAgent ed settings tokens servers redis now request bearer headers = (result, redis')) :
    redis' = redis ∨ ∃ token server requestId expiry, authenticate tokens now bearer = some token ∧
      server = token.serverId ∧ redis' = redis.put (replayKey server requestId) expiry := by
  cases result with
  | error e => exact .inl (resolveAgent_error h)
  | ok accepted =>
    obtain ⟨token, server⟩ := accepted
    obtain ⟨htoken, -, hid⟩ := resolveAgent_server h
    obtain ⟨-, -, -, hverify⟩ := resolveAgent_ok h
    rcases verifyAgentSignature_ok hverify with ⟨-, hsame⟩ | ⟨requestId, -, hfresh | ⟨-, -, hsame⟩⟩
    · exact .inl hsame
    · obtain ⟨-, -, -, hput⟩ := isReplayed_eq_false.mp hfresh
      exact .inr ⟨token, server.id, requestId, _, htoken, hid, hput⟩
    · exact .inl hsame

theorem Frame.withRedis {b : Backend} {server : ℕ} {requestId : String} {expiry : ℚ}
    (h : redis = b.redis ∨ redis = b.redis.put (replayKey server requestId) expiry) :
    Frame server b { b with redis := redis } := by
  refine { Frame.refl b with available := ?_, keys := ?_ }
  · rcases h with rfl | rfl
    · rfl
    · rfl
  · intro entry hentry
    rcases h with rfl | rfl
    · exact Iff.rfl
    · exact mem_keys_put (hentry requestId)

end

/-! ## The endpoints -/

section
variable {ed : Ed25519} {ι : Type} [DecidableEq ι] {collate : String → ι} {settings : SignatureSettings}
  {b b' : Backend} {now : ℚ} {token : OpsAgentToken} {server : OpsServer} {ip : Option String} {reply : Reply}

theorem serverId_registerKey (publicKey : Option String) (token : OpsAgentToken) :
    (registerKey ed now publicKey token).serverId = token.serverId := by
  unfold registerKey
  dsimp only
  split
  · rfl
  · split_ifs
    · rfl
    · rfl

/-- A write to the row of a token stays with the server of the token. -/
theorem agreeOff_token {tokens : Table OpsAgentToken} {f : OpsAgentToken → OpsAgentToken}
    (hf : ∀ t, Keyed.key (f t) = Keyed.key t) (hmem : token ∈ tokens) (hkeeps : ∀ t, (f t).serverId = t.serverId) :
    Table.AgreeOff (·.serverId = token.serverId) tokens (tokens.modify token.id f hf) := by
  refine .modify hf fun t ht hk => ?_
  obtain rfl := Table.eq_of_key_eq ht hmem hk
  exact ⟨rfl, hkeeps t⟩

theorem agreeOff_server {servers servers' : Table OpsServer} {id : ℕ} {f : OpsServer → OpsServer}
    {hf : ∀ s, Keyed.key (f s) = Keyed.key s} (h : serverSchema.modify servers id f hf = .ok servers') :
    Table.AgreeOff (·.id = id) servers servers' :=
  Schema.agreeOff_modify (fun s _ hk => ⟨hk, (hf s).trans hk⟩) h

theorem agreeOff_recordHeartbeat {heartbeats heartbeats' : Table OpsAgentHeartbeat} {serverId : ℕ}
    {agentVersion : Option String} {collectedAt : Option ℤ}
    (h : recordHeartbeat heartbeats now serverId agentVersion ip collectedAt = .ok heartbeats') :
    Table.AgreeOff (·.serverId = serverId) heartbeats heartbeats' := by
  unfold recordHeartbeat at h
  obtain ⟨version, -, h⟩ := bind_eq_ok.mp h
  obtain ⟨address, -, h⟩ := bind_eq_ok.mp h
  rw [← pure_eq_ok.mp h]
  exact .insert rfl

theorem assertServerMatch_ok {id : ℕ} {serverId : Option ℕ} {u : Unit} (h : assertServerMatch id serverId = .ok u) :
    ∀ other ∈ serverId, other = id := by
  unfold assertServerMatch at h
  split_ifs at h with hother
  intro other hmem
  by_contra hne
  exact hother ⟨other, hmem, hne⟩

theorem ingestMetrics_frame {metrics metrics' : Table Metric.MonitorServerMetric} {id : ℕ} {data : MetricsRequest}
    (h : ingestMetrics metrics now id data = .ok metrics') :
    Table.AgreeOff (·.serverId = id) metrics metrics' ∧ ∀ other ∈ data.serverId, other = id := by
  unfold ingestMetrics at h
  obtain ⟨u, hmatch, h⟩ := bind_eq_ok.mp h
  iterate 15 obtain ⟨_, -, h⟩ := bind_eq_ok.mp h
  rw [← pure_eq_ok.mp h]
  exact ⟨.insert rfl, assertServerMatch_ok hmatch⟩

theorem upsertStatus_frame (services : Table OpsServerService) (time : Time) (id : ℕ) (name status : String) :
    Table.AgreeOff (·.serverId = id) services (upsertStatus services time id name status) := by
  unfold upsertStatus
  split
  · rename_i existing hexisting
    obtain ⟨hmem, hmine⟩ := Table.mem_select.mp (List.mem_of_mem_head? hexisting)
    refine .modify _ fun s hs hk => ?_
    obtain rfl := Table.eq_of_key_eq hs hmem hk
    exact ⟨(of_decide_eq_true hmine).1, (of_decide_eq_true hmine).1⟩
  · exact .insert rfl

theorem foldl_upsertStatus_frame (items : List ServiceStatus) (services : Table OpsServerService) (time : Time)
    (id : ℕ) : Table.AgreeOff (·.serverId = id) services (items.foldl
      (fun services item => upsertStatus services time id item.serviceName item.currentStatus) services) := by
  induction items generalizing services with
  | nil => exact .refl _
  | cons item items ih =>
    rw [List.foldl_cons]
    exact (upsertStatus_frame services time id item.serviceName item.currentStatus).trans (ih _)

theorem syncServices_frame {services services' : Table OpsServerService} {time : Time} {id : ℕ} {data : ServicesRequest}
    (h : syncServices services time id data = .ok services') :
    Table.AgreeOff (·.serverId = id) services services' ∧ ∀ other ∈ data.serverId, other = id := by
  unfold syncServices at h
  obtain ⟨u, hmatch, h⟩ := bind_eq_ok.mp h
  rw [← pure_eq_ok.mp h]
  exact ⟨foldl_upsertStatus_frame data.services services time id, assertServerMatch_ok hmatch⟩

theorem syncAssets_frame {db db' : AssetDb} {id : ℕ} {data : AssetsRequest}
    (h : syncAssets collate id db data = .ok db') :
    Table.AgreeOff (·.serverId = id) db.disks db'.disks ∧ Table.AgreeOff (·.serverId = id) db.networks db'.networks ∧
      ∀ other ∈ data.serverId, other = id := by
  have hmatch := match_of_syncAssets h
  obtain ⟨hdisks, hnetworks⟩ := (syncAssets_eq_ok hmatch).mp h
  obtain ⟨disks, hdisks, hdisks'⟩ := Inventory.sync_eq_ok.mp hdisks
  obtain ⟨networks, hnetworks, hnetworks'⟩ := Inventory.sync_eq_ok.mp hnetworks
  refine ⟨?_, ?_, hmatch⟩
  · rw [hdisks']
    exact (Inventory.agreeOff_report hdisks).trans Inventory.agreeOff_deleteMissing
  · rw [hnetworks']
    exact (Inventory.agreeOff_report hnetworks).trans Inventory.agreeOff_deleteMissing

/-- The server that the body names, and the execution. -/
def Body.namedServer : Body → Option ℕ
  | .heartbeat data _ => data.serverId
  | .metrics data => data.serverId
  | .assets data => data.serverId
  | .services data => data.serverId
  | .register .. | .signingKey _ | .tasksPending | .taskResult _ => none

def Body.execution : Body → Option ℕ
  | .taskResult data => some data.executionId
  | _ => none

/-- What a reply hands out. -/
def Reply.handed : Reply → List Task.PendingTask
  | .done => []
  | Reply.tasks handed => handed

theorem heartbeat_frame {data : HeartbeatRequest} (h : heartbeat b now server data ip = .ok b') :
    Frame server.id b b' ∧ ∀ other ∈ data.serverId, other = server.id := by
  unfold heartbeat Agent.heartbeat at h
  obtain ⟨s, hs, h⟩ := bind_eq_ok.mp h
  obtain ⟨heartbeats, hheartbeats, h⟩ := bind_eq_ok.mp h
  split_ifs at hs with hother
  obtain ⟨servers, hservers, hs⟩ := bind_eq_ok.mp hs
  obtain rfl := pure_eq_ok.mp hs
  rw [← pure_eq_ok.mp h]
  constructor
  · exact { Frame.refl b with
      servers := agreeOff_server hservers
      heartbeats := agreeOff_recordHeartbeat hheartbeats }
  · intro other hmem
    by_contra hne
    exact hother ⟨other, hmem, hne⟩

/-- What a registration that succeeds has found and written. -/
theorem register_ok {s s' : State} {data : RegisterRequest} (h : Agent.register ed s now data ip = .ok s') :
    ∃ token server servers, authenticate s.tokens now data.token = some token ∧
      getServer s.servers token.serverId = some server ∧ server.serverCode = data.serverCode ∧
      serverSchema.modify s.servers server.id (registerServer now data ip) (key_registerServer now data ip) =
        .ok servers ∧
      s' = { s with
        servers := servers
        tokens := s.tokens.modify token.id (registerKey ed now data.signingPublicKey)
          (key_registerKey ed now data.signingPublicKey) } := by
  unfold Agent.register at h
  split at h
  · cases h
  · rename_i token htoken
    split at h
    · cases h
    · rename_i server hserver
      split_ifs at h with hcode
      obtain ⟨servers, hservers, h⟩ := bind_eq_ok.mp h
      have hfound := (Option.filter_eq_some_iff.mp hserver).1
      exact ⟨token, server, servers, htoken, hfound, not_not.mp hcode, hservers, (pure_eq_ok.mp h).symm⟩

theorem register_frame {data : RegisterRequest} (h : register ed b now data ip = .ok b') :
    ∃ token, authenticate b.tokens now data.token = some token ∧ Frame token.serverId b b' := by
  unfold register at h
  obtain ⟨s, hs, h⟩ := bind_eq_ok.mp h
  obtain ⟨heartbeats, hheartbeats, h⟩ := bind_eq_ok.mp h
  obtain ⟨token, server, servers, htoken, hserver, -, hservers, rfl⟩ := register_ok hs
  have hid : server.id = token.serverId := (getServer_eq_some hserver).2.1
  have htoken' : authenticate b.tokens now data.token = some token := htoken
  rw [htoken'] at hheartbeats
  rw [hid] at hservers
  rw [← pure_eq_ok.mp h]
  refine ⟨token, htoken', ?_⟩
  exact { Frame.refl b with
    tokens := agreeOff_token (key_registerKey ed now data.signingPublicKey) (authenticate_eq_some htoken).1
      (serverId_registerKey _)
    servers := agreeOff_server hservers
    heartbeats := agreeOff_recordHeartbeat hheartbeats }

theorem rotateSigningKey_frame {publicKey : String} {s : State} (hmem : token ∈ b.tokens)
    (h : rotateSigningKey ed b.credentials now token publicKey = .ok s) :
    Frame token.serverId b (b.withCredentials s) := by
  unfold rotateSigningKey at h
  split_ifs at h
  rw [← Except.ok.inj h]
  have htokens := agreeOff_token (f := OpsAgentToken.withKey now publicKey) (fun _ => rfl) hmem fun _ => rfl
  exact { Frame.refl b with tokens := htokens }

/-- The endpoints behind the authentication: they write to rows of the server, hand out its executions, and are not for
a body that names another one. -/
theorem endpoint_frame {body : Body} (hmem : token ∈ b.tokens) (hid : server.id = token.serverId)
    (h : endpoint ed collate b now token server body = .ok (b', reply)) :
    Frame server.id b b' ∧ (∀ task ∈ reply.handed, RunsOn b.taskDb server.id task.executionId) ∧
      (∀ other ∈ body.namedServer, other = server.id) ∧
      ∀ executionId ∈ body.execution, RunsOn b.taskDb server.id executionId := by
  have hnone : ∀ {P : ℕ → Prop}, ∀ n ∈ (none : Option ℕ), P n := fun n hn => absurd hn (Option.not_mem_none n)
  cases body with
  | register data ip =>
    obtain ⟨rfl, rfl⟩ := Prod.ext_iff.mp (Except.ok.inj h)
    exact ⟨.refl b, List.forall_mem_nil _, hnone, hnone⟩
  | signingKey publicKey =>
    obtain ⟨s, hs, h⟩ := bind_eq_ok.mp h
    obtain ⟨rfl, rfl⟩ := Prod.ext_iff.mp (pure_eq_ok.mp h)
    have hframe := rotateSigningKey_frame hmem hs
    rw [← hid] at hframe
    exact ⟨hframe, List.forall_mem_nil _, hnone, hnone⟩
  | heartbeat data ip =>
    obtain ⟨b₁, hb, h⟩ := bind_eq_ok.mp h
    obtain ⟨rfl, rfl⟩ := Prod.ext_iff.mp (pure_eq_ok.mp h)
    obtain ⟨hframe, hnamed⟩ := heartbeat_frame hb
    exact ⟨hframe, List.forall_mem_nil _, hnamed, hnone⟩
  | metrics data =>
    obtain ⟨metrics, hmetrics, h⟩ := bind_eq_ok.mp h
    obtain ⟨rfl, rfl⟩ := Prod.ext_iff.mp (pure_eq_ok.mp h)
    obtain ⟨hframe, hnamed⟩ := ingestMetrics_frame hmetrics
    exact ⟨{ Frame.refl b with metrics := hframe }, List.forall_mem_nil _, hnamed, hnone⟩
  | assets data =>
    obtain ⟨assets, hassets, h⟩ := bind_eq_ok.mp h
    obtain ⟨rfl, rfl⟩ := Prod.ext_iff.mp (pure_eq_ok.mp h)
    obtain ⟨hdisks, hnetworks, hnamed⟩ := syncAssets_frame hassets
    exact ⟨{ Frame.refl b with disks := hdisks, networks := hnetworks }, List.forall_mem_nil _, hnamed,
      hnone⟩
  | services data =>
    obtain ⟨services, hservices, h⟩ := bind_eq_ok.mp h
    obtain ⟨rfl, rfl⟩ := Prod.ext_iff.mp (pure_eq_ok.mp h)
    obtain ⟨hframe, hnamed⟩ := syncServices_frame hservices
    exact ⟨{ Frame.refl b with services := hframe }, List.forall_mem_nil _, hnamed, hnone⟩
  | tasksPending =>
    obtain ⟨rfl, rfl⟩ := Prod.ext_iff.mp (Except.ok.inj h)
    obtain ⟨hframe, hhanded⟩ := fetchPending_frame b.taskDb (stored now) server.id
    exact ⟨.withTaskDb hframe, hhanded, hnone, hnone⟩
  | taskResult data =>
    obtain ⟨db, hdb, h⟩ := bind_eq_ok.mp h
    obtain ⟨rfl, rfl⟩ := Prod.ext_iff.mp (pure_eq_ok.mp h)
    obtain ⟨hframe, hruns⟩ := reportResult_frame hdb
    refine ⟨.withTaskDb hframe, List.forall_mem_nil _, hnone, ?_⟩
    rintro executionId ⟨⟩
    exact hruns

/-- A request that is confined to a server: it hands out executions of this server, it is refused when it names another
server or an execution that does not run there, and a refusal leaves at most its request id. -/
structure Confined (server : ℕ) (b : Backend) (body : Body) (result : Except Failure Reply) (b' : Backend) : Prop where
  frame : Frame server b b'
  handed : ∀ reply, result = .ok reply → ∀ task ∈ reply.handed, RunsOn b.taskDb server task.executionId
  named : ∀ reply, result = .ok reply → ∀ other ∈ body.namedServer, other = server
  execution : ∀ reply, result = .ok reply → ∀ executionId ∈ body.execution, RunsOn b.taskDb server executionId
  refused : ∀ e, result = .error e → b' = b ∨
    ∃ requestId expiry, b' = { b with redis := b.redis.put (replayKey server requestId) expiry }

theorem Confined.of_error {id : ℕ} {body : Body} {e : Failure}
    (h : b' = b ∨ ∃ requestId expiry, b' = { b with redis := b.redis.put (replayKey id requestId) expiry }) :
    Confined id b body (.error e) b' where
  frame := by
    rcases h with rfl | ⟨requestId, expiry, rfl⟩
    · exact .refl _
    · exact .withRedis (.inr rfl)
  handed := by simp
  named := by simp
  execution := by simp
  refused _ _ := h

/-- What an endpoint does is confined, also seen from before the authentication. -/
theorem confined_endpoint {body : Body} {redis : Redis} (hmem : token ∈ b.tokens) (hid : server.id = token.serverId)
    (hredis : redis = b.redis ∨ ∃ requestId expiry, redis = b.redis.put (replayKey server.id requestId) expiry)
    (h : endpoint ed collate { b with redis := redis } now token server body = .ok (b', reply)) :
    Confined server.id b body (.ok reply) b' := by
  have hmem' : token ∈ ({ b with redis := redis } : Backend).tokens := hmem
  obtain ⟨hframe, hhanded, hnamed, hexecution⟩ := endpoint_frame hmem' hid h
  constructor
  · have hkeys : Frame server.id b { b with redis := redis } := by
      rcases hredis with rfl | ⟨requestId, expiry, rfl⟩
      · exact .refl _
      · exact .withRedis (.inr rfl)
    exact { hframe with
      available := hframe.available.trans hkeys.available
      keys := fun entry hentry => (hframe.keys entry hentry).trans (hkeys.keys entry hentry) }
  · rintro _ ⟨⟩
    exact hhanded
  · rintro _ ⟨⟩
    exact hnamed
  · rintro _ ⟨⟩
    exact hexecution
  · rintro e ⟨⟩

/-- A registration. -/
theorem serve_register {r : Post} {data : RegisterRequest} (hbody : r.body = .register data ip) :
    serve ed collate settings b r = match register ed b r.now data ip with
      | .ok b' => (.ok .done, b')
      | .error e => (.error e, b) := by
  simp only [serve, hbody] <;> rfl

/-- Any other request is resolved first. -/
theorem serve_signed (ed : Ed25519) (collate : String → ι) (settings : SignatureSettings) (b : Backend) {r : Post}
    (h : ∀ data ip, r.body ≠ .register data ip) :
    r.credential = r.bearer ∧ serve ed collate settings b r =
      match resolveAgent ed settings b.tokens b.servers b.redis r.now r.request r.bearer r.headers with
      | (.error e, redis) => (.error (.app e), { b with redis := redis })
      | (.ok (token, server), redis) =>
        match endpoint ed collate { b with redis := redis } r.now token server r.body with
        | .ok (b', reply) => (.ok reply, b')
        | .error e => (.error e, { b with redis := redis }) := by
  obtain ⟨now, request, bearer, headers, body⟩ := r
  cases hresolve : resolveAgent ed settings b.tokens b.servers b.redis now request bearer headers with
  | mk result redis =>
    cases body with
    | register data ip => exact absurd rfl (h data ip)
    | _ =>
      refine ⟨rfl, ?_⟩
      unfold serve
      dsimp only
      rw [hresolve]
      cases result with
      | error e => rfl
      | ok accepted => rfl

theorem confined_register {r : Post} {data : RegisterRequest} (hbody : r.body = .register data ip)
    (htoken : authenticate b.tokens r.now r.credential = some token) :
    Confined token.serverId b r.body (serve ed collate settings b r).1 (serve ed collate settings b r).2 := by
  have hcredential : r.credential = data.token := by
    unfold Post.credential
    rw [hbody]
  rw [serve_register hbody]
  cases hregister : register ed b r.now data ip with
  | error e => exact .of_error (.inl rfl)
  | ok b' =>
    obtain ⟨found, hfound, hframe⟩ := register_frame hregister
    rw [← hcredential, htoken] at hfound
    obtain rfl := Option.some.inj hfound
    constructor
    · exact hframe
    · rintro _ ⟨⟩
      exact List.forall_mem_nil _
    · rintro _ ⟨⟩ other hother
      rw [hbody] at hother
      cases hother
    · rintro _ ⟨⟩ executionId hexecution
      rw [hbody] at hexecution
      cases hexecution
    · rintro e ⟨⟩

theorem confined_signed {r : Post} (hbody : ∀ data ip, r.body ≠ .register data ip)
    (htoken : authenticate b.tokens r.now r.credential = some token) :
    Confined token.serverId b r.body (serve ed collate settings b r).1 (serve ed collate settings b r).2 := by
  obtain ⟨hcredential, hserve⟩ := serve_signed ed collate settings b hbody
  rw [hcredential] at htoken
  rw [hserve]
  cases hresolve : resolveAgent ed settings b.tokens b.servers b.redis r.now r.request r.bearer r.headers with
  | mk result redis =>
    have hredis : redis = b.redis ∨
        ∃ requestId expiry, redis = b.redis.put (replayKey token.serverId requestId) expiry := by
      obtain hsame | ⟨found, server, requestId, expiry, hfound, rfl, hput⟩ := resolveAgent_redis hresolve
      · exact .inl hsame
      · rw [htoken] at hfound
        obtain rfl := Option.some.inj hfound
        exact .inr ⟨requestId, expiry, hput⟩
    have hstate : ({ b with redis := redis } : Backend) = b ∨ ∃ requestId expiry,
        ({ b with redis := redis } : Backend) =
          { b with redis := b.redis.put (replayKey token.serverId requestId) expiry } := by
      rcases hredis with rfl | ⟨requestId, expiry, rfl⟩
      · exact .inl rfl
      · exact .inr ⟨requestId, expiry, rfl⟩
    cases result with
    | error e => exact .of_error hstate
    | ok accepted =>
      obtain ⟨found, server⟩ := accepted
      obtain ⟨hfound, -, hid⟩ := resolveAgent_server hresolve
      rw [htoken] at hfound
      obtain rfl := Option.some.inj hfound
      dsimp only
      cases hendpoint : endpoint ed collate { b with redis := redis } r.now token server r.body with
      | error e => exact .of_error hstate
      | ok answer =>
        obtain ⟨b', reply⟩ := answer
        rw [← hid] at hredis ⊢
        exact confined_endpoint (authenticate_eq_some htoken).1 hid hredis hendpoint

/-- Without a token nothing happens. -/
theorem serve_of_unauthenticated (ed : Ed25519) (collate : String → ι) (settings : SignatureSettings) {r : Post}
    (htoken : authenticate b.tokens r.now r.credential = none) :
    (∃ e, (serve ed collate settings b r).1 = .error e) ∧ (serve ed collate settings b r).2 = b := by
  by_cases hbody : ∃ data ip, r.body = .register data ip
  · obtain ⟨data, ip, hbody⟩ := hbody
    have hcredential : r.credential = data.token := by
      unfold Post.credential
      rw [hbody]
    rw [serve_register hbody]
    cases hregister : register ed b r.now data ip with
    | error e => exact ⟨⟨e, rfl⟩, rfl⟩
    | ok b' =>
      obtain ⟨found, hfound, -⟩ := register_frame hregister
      rw [← hcredential, htoken] at hfound
      cases hfound
  · obtain ⟨hcredential, hserve⟩ := serve_signed ed collate settings b
      fun data ip h => hbody ⟨data, ip, h⟩
    rw [hcredential] at htoken
    rw [hserve]
    unfold resolveAgent
    rw [htoken]
    exact ⟨⟨_, rfl⟩, rfl⟩

theorem serve_of_authenticated (ed : Ed25519) (collate : String → ι) (settings : SignatureSettings) {r : Post}
    (htoken : authenticate b.tokens r.now r.credential = some token) :
    Confined token.serverId b r.body (serve ed collate settings b r).1 (serve ed collate settings b r).2 := by
  by_cases hbody : ∃ data ip, r.body = .register data ip
  · obtain ⟨data, ip, hbody⟩ := hbody
    exact confined_register hbody htoken
  · exact confined_signed (fun data ip h => hbody ⟨data, ip, h⟩) htoken

/-- A request without a token is refused, and leaves everything as it is. One with a token is confined to its server. -/
theorem requests_isolated (ed : Ed25519) (collate : String → ι) (settings : SignatureSettings) (b : Backend)
    (r : Post) :
    (boundTo b r = none → (∃ e, (serve ed collate settings b r).1 = .error e) ∧ (serve ed collate settings b r).2 = b) ∧
      ∀ server, boundTo b r = some server →
        Confined server b r.body (serve ed collate settings b r).1 (serve ed collate settings b r).2 := by
  constructor
  · intro hnone
    exact serve_of_unauthenticated ed collate settings (Option.map_eq_none_iff.mp hnone)
  · intro server hserver
    obtain ⟨token, htoken, rfl⟩ := Option.map_eq_some_iff.mp hserver
    exact serve_of_authenticated ed collate settings htoken

end

/-! ## Runs -/

/-- The rows of a server are as before, the shared columns of the tasks included. -/
structure Untouched (server : ℕ) (b b' : Backend) : Prop where
  tokens : Table.AgreeOff (·.serverId ≠ server) b.tokens b'.tokens
  servers : Table.AgreeOff (·.id ≠ server) b.servers b'.servers
  keys : ∀ entry requestId, entry.1 = replayKey server requestId → (entry ∈ b'.redis.keys ↔ entry ∈ b.redis.keys)
  heartbeats : Table.AgreeOff (·.serverId ≠ server) b.heartbeats b'.heartbeats
  metrics : Table.AgreeOff (·.serverId ≠ server) b.metrics b'.metrics
  disks : Table.AgreeOff (·.serverId ≠ server) b.disks b'.disks
  networks : Table.AgreeOff (·.serverId ≠ server) b.networks b'.networks
  services : Table.AgreeOff (·.serverId ≠ server) b.services b'.services
  targets : b'.targets = b.targets
  executions : Table.AgreeOff (·.serverId ≠ server) b.executions b'.executions
  placements : Table.AgreeOn placement b.executions b'.executions
  logs : Table.AgreeOff (¬RunsOn b.taskDb server ·.executionId) b.logs b'.logs
  tasks : Table.AgreeOff (fun task => ∃ other, other ≠ server ∧ Involves b.taskDb other task.id) b.tasks b'.tasks
  columns : Table.AgreeOn fixedColumns b.tasks b'.tasks

namespace Untouched
variable {server : ℕ} {b b' b'' : Backend}

theorem refl (b : Backend) : Untouched server b b where
  tokens := .refl _
  servers := .refl _
  keys _ _ _ := Iff.rfl
  heartbeats := .refl _
  metrics := .refl _
  disks := .refl _
  networks := .refl _
  services := .refl _
  targets := rfl
  executions := .refl _
  placements := rfl
  logs := .refl _
  tasks := .refl _
  columns := rfl

theorem runsOn (h : Untouched server b b') {other executionId : ℕ} :
    RunsOn b'.taskDb other executionId ↔ RunsOn b.taskDb other executionId := by
  have hplacements : b'.taskDb.executions.rows.map placement = b.taskDb.executions.rows.map placement := h.placements
  rw [runsOn_iff, runsOn_iff, hplacements]

theorem involves (h : Untouched server b b') {other taskId : ℕ} :
    Involves b'.taskDb other taskId ↔ Involves b.taskDb other taskId := by
  have hplacements : b'.taskDb.executions.rows.map placement = b.taskDb.executions.rows.map placement := h.placements
  rw [involves_iff, involves_iff, hplacements]

theorem trans (h : Untouched server b b') (h' : Untouched server b' b'') : Untouched server b b'' where
  tokens := h.tokens.trans h'.tokens
  servers := h.servers.trans h'.servers
  keys entry requestId hentry := (h'.keys entry requestId hentry).trans (h.keys entry requestId hentry)
  heartbeats := h.heartbeats.trans h'.heartbeats
  metrics := h.metrics.trans h'.metrics
  disks := h.disks.trans h'.disks
  networks := h.networks.trans h'.networks
  services := h.services.trans h'.services
  targets := h'.targets.trans h.targets
  executions := h.executions.trans h'.executions
  placements := Eq.trans h'.placements h.placements
  logs := h.logs.trans (h'.logs.mono fun log hlog hruns => hlog (h.runsOn.mpr hruns))
  tasks := by
    refine h.tasks.trans (h'.tasks.mono ?_)
    rintro task ⟨other, hne, hinvolves⟩
    exact ⟨other, hne, h.involves.mp hinvolves⟩
  columns := Eq.trans h'.columns h.columns

end Untouched

/-- An execution runs on one server. -/
theorem RunsOn.unique {db : Task.Db} {server other executionId : ℕ} (h : RunsOn db server executionId)
    (h' : RunsOn db other executionId) : server = other := by
  obtain ⟨e, he, hid, rfl⟩ := h
  obtain ⟨e', he', hid', rfl⟩ := h'
  rw [Table.eq_of_key_eq he he' (hid.trans hid'.symm)]

/-- What is confined to one server leaves the others untouched. -/
theorem Frame.untouched {server other : ℕ} {b b' : Backend} (h : Frame other b b') (hne : other ≠ server) :
    Untouched server b b' where
  tokens := h.tokens.mono fun _ hmine => hmine ▸ hne
  servers := h.servers.mono fun _ hmine => hmine ▸ hne
  keys entry requestId hentry := by
    refine h.keys entry fun requestId' hother => ?_
    have hkeys : replayKey other requestId' = replayKey server requestId := hother.symm.trans hentry
    exact hne (replayKey_inj hkeys).1
  heartbeats := h.heartbeats.mono fun _ hmine => hmine ▸ hne
  metrics := h.metrics.mono fun _ hmine => hmine ▸ hne
  disks := h.disks.mono fun _ hmine => hmine ▸ hne
  networks := h.networks.mono fun _ hmine => hmine ▸ hne
  services := h.services.mono fun _ hmine => hmine ▸ hne
  targets := h.targets
  executions := h.executions.mono fun _ hmine => hmine ▸ hne
  placements := h.placements
  logs := h.logs.mono fun _ hmine hruns => hne (hmine.unique hruns)
  tasks := h.tasks.mono fun _ hmine => ⟨other, hne, hmine⟩
  columns := h.columns

section
variable (ed : Ed25519) {ι : Type} [DecidableEq ι] (collate : String → ι) (settings : SignatureSettings)

/-- The state after some requests, in the order in which they are served. -/
def serves (b : Backend) (rs : List Post) : Backend := run (fun b r => (serve ed collate settings b r).2) b rs

/-- Nobody shows a token of the server. -/
def NoToken (server : ℕ) (b : Backend) (r : Post) : Prop :=
  ∀ token ∈ b.tokens, token.tokenHash = hashToken r.credential → token.serverId ≠ server

/-- The tokens of the server are the ones from before. -/
theorem Untouched.noToken {server : ℕ} {b b' : Backend} {r : Post} (h : Untouched server b b')
    (hnone : NoToken server b r) : NoToken server b' r := by
  intro token hmem hhash hserver
  have hbefore : token ∈ b.tokens := (h.tokens token fun hne => hne hserver).mp hmem
  exact hnone token hbefore hhash hserver

theorem serve_untouched {server : ℕ} {b : Backend} {r : Post} (h : NoToken server b r) :
    Untouched server b (serve ed collate settings b r).2 ∧ ∀ reply, (serve ed collate settings b r).1 = .ok reply →
      ∀ task ∈ reply.handed, ¬RunsOn b.taskDb server task.executionId := by
  cases htoken : authenticate b.tokens r.now r.credential with
  | none =>
    obtain ⟨⟨e, hrefused⟩, hsame⟩ := serve_of_unauthenticated ed collate settings htoken
    rw [hsame, hrefused]
    refine ⟨.refl b, ?_⟩
    rintro reply ⟨⟩
  | some token =>
    obtain ⟨hmem, hhash, -⟩ := authenticate_eq_some htoken
    have hother : token.serverId ≠ server := h token hmem hhash
    have hconfined := serve_of_authenticated ed collate settings htoken
    refine ⟨hconfined.frame.untouched hother, fun reply hreply task htask hruns => ?_⟩
    exact hother ((hconfined.handed reply hreply task htask).unique hruns)

/-- While nobody shows a token of a server, its rows stay as they are and nobody gets its executions. -/
theorem untouched_without_token {server : ℕ} {b : Backend} {rs : List Post} (h : ∀ r ∈ rs, NoToken server b r) :
    Untouched server b (serves ed collate settings b rs) ∧ ∀ pre r post, rs = pre ++ r :: post →
      ∀ reply, (serve ed collate settings (serves ed collate settings b pre) r).1 = .ok reply →
        ∀ task ∈ reply.handed, ¬RunsOn b.taskDb server task.executionId := by
  have hrun : ∀ pre, (∀ r ∈ pre, NoToken server b r) → Untouched server b (serves ed collate settings b pre) := by
    intro pre
    induction pre using List.reverseRecOn with
    | nil => exact fun _ => .refl b
    | append_singleton pre r ih =>
      intro hpre
      have hbefore := ih fun r' hr' => hpre r' (List.mem_append_left _ hr')
      have hnow := hbefore.noToken (hpre r (List.mem_append_right _ List.mem_cons_self))
      rw [serves, run_concat]
      exact hbefore.trans (serve_untouched ed collate settings hnow).1
  refine ⟨hrun rs h, ?_⟩
  rintro pre r post rfl reply hreply task htask hruns
  have hbefore := hrun pre fun r' hr' => h r' (List.mem_append_left _ hr')
  have hnow := hbefore.noToken (h r (List.mem_append_right _ List.mem_cons_self))
  exact (serve_untouched ed collate settings hnow).2 reply hreply task htask (hbefore.runsOn.mpr hruns)

end

/-! ## Two servers -/

namespace Sample

/-- A poll of the first server. -/
def post : Post := ⟨1700000000, Agent.Sample.poll, Agent.Sample.bearer, Agent.Sample.headers, .tasksPending⟩

/-- An execution of the second server. -/
def execution : Task.OpsTaskExecution :=
  ⟨0, 1, 1, 2, .pending, 1, none, none, none, none, none, none, none, none⟩

def backend : Backend :=
  ⟨Agent.Sample.tokens, Agent.Sample.servers.insert { Agent.Sample.server with serverCode := "web-02" },
    Agent.Sample.redis, .empty, .empty, .empty, .empty, .empty, .empty, .empty, Table.empty.insert execution, .empty⟩

end Sample

/-- The second server has no token at all. -/
theorem second_server_untouched :
    Untouched 2 Sample.backend
      (serves Agent.Sample.ed25519 (fun name => name) ⟨true, 300⟩ Sample.backend [Sample.post]) := by
  have hno : ∀ r ∈ [Sample.post], NoToken 2 Sample.backend r := by
    rintro r - token htoken - hserver
    rcases Table.mem_insert.mp htoken with hold | rfl
    · cases hold
    · cases hserver
  exact (untouched_without_token Agent.Sample.ed25519 (fun name => name) ⟨true, 300⟩ hno).1

end OpsMonitor.Agent.Endpoints
