import OpsMonitor.Server.Service
import OpsMonitor.Task.Origins

/-! The whitelist of controlled operations. It is checked when a task is created; afterwards
only an administrator can take the permission back, and a poll does not look at it again. -/

namespace OpsMonitor.Task
open Library

variable {croniter : CronIter} {now : Time} {db db' : Db}

/-! ## The check at creation -/

theorem forM_eq_ok {α ε : Type} {f : α → Except ε Unit} {l : List α} (h : l.forM f = .ok ()) :
    ∀ a ∈ l, f a = .ok () := by
  induction l with
  | nil => exact nofun
  | cons a l ih =>
    obtain ⟨u, ha, h⟩ := bind_eq_ok.mp h
    exact List.forall_mem_cons.mpr ⟨ha, ih h⟩

theorem validateServiceWhitelist_eq_ok {servers : List OpsServer} {serviceName : Option String}
    {action : Action} (h : validateServiceWhitelist db servers serviceName action = .ok ())
    (hcontrolled : action.confirmRequired = true) :
    ∃ name ∈ serviceName, ∀ server ∈ servers, ∃ s,
      getByServerService db.services server.id name = some s ∧ s.isWhitelisted = 1 := by
  unfold validateServiceWhitelist at h
  rw [if_neg] at h
  · split at h
    · cases h
    · cases h
    · refine ⟨_, rfl, fun server hserver => ?_⟩
      have hone := forM_eq_ok h server hserver
      split_ifs at hone with hallowed
      exact hallowed
  · rintro (rfl | rfl) <;> cases hcontrolled

/-- The targets that a creation adds had the permission. -/
theorem insertTask_allowed {data : TaskCreate} {creatorId : ℕ} {key : Option String} {t : OpsTask}
    (h : insertTask db now data creatorId key = .ok (db', t))
    (hcontrolled : t.action.confirmRequired = true) :
    ∃ name ∈ t.serviceName, ∀ g ∈ db'.targets, g ∈ db.targets ∨ ∃ s,
      getByServerService db.services g.serverId name = some s ∧ s.isWhitelisted = 1 := by
  obtain ⟨action, -, h⟩ := bind_eq_ok.mp h
  obtain ⟨servers, -, h⟩ := bind_eq_ok.mp h
  obtain ⟨u, hallowed, h⟩ := bind_eq_ok.mp h
  obtain ⟨⟨d, t'⟩, hrow, h⟩ := bind_eq_ok.mp h
  unfold Db.createTaskRow at hrow
  split_ifs at hrow
  obtain ⟨rfl, rfl⟩ := Prod.ext_iff.mp (Except.ok.inj hrow)
  have hdone : t = { newTask now data action creatorId key with id := db.tasks.next } ∧
      db'.targets = db.targets.insertAll ((servers.map (·.id)).dedup.map fun sid =>
        ⟨0, db.tasks.next, sid, .pending⟩) := by
    dsimp only at h
    split_ifs at h
    · obtain ⟨d', hexec, h⟩ := bind_eq_ok.mp h
      obtain ⟨rfl, rfl⟩ := Prod.ext_iff.mp (pure_eq_ok.mp h)
      obtain rfl := createExecutions_eq hexec
      exact ⟨rfl, rfl⟩
    · obtain ⟨rfl, rfl⟩ := Prod.ext_iff.mp (pure_eq_ok.mp h)
      exact ⟨rfl, rfl⟩
  obtain ⟨rfl, htargets⟩ := hdone
  obtain ⟨name, hname, hservers⟩ := validateServiceWhitelist_eq_ok hallowed hcontrolled
  refine ⟨name, hname, fun g hg => ?_⟩
  rw [htargets] at hg
  refine (Table.mem_insertAll.mp hg).imp_right fun hg => ?_
  obtain ⟨a, ha, k, -, rfl⟩ := Table.exists_of_mem_keyed hg
  obtain ⟨sid, hsid, rfl⟩ := List.mem_map.mp ha
  obtain ⟨server, hserver, rfl⟩ := List.mem_map.mp (List.mem_dedup.mp hsid)
  exact hservers server hserver

/-! ## What the moves keep -/

theorem Move.services_eq {act : Act} (hm : Move croniter now db act db') :
    db'.services = db.services := by
  cases hm with
  | insert hinsert =>
    obtain ⟨action, serverIds, -, rfl, rfl⟩ := insertTask_created hinsert
    rfl
  | cancel | report | expire | retry =>
    rw [aggregateTaskStatus_eq]
    rfl
  | confirm | claim | archive | fire | purge => rfl

/-- A target after a move is an old one, perhaps with another status, or one of a new task. -/
theorem Move.target {act : Act} (hm : Move croniter now db act db') {g' : OpsTaskTarget}
    (hg' : g' ∈ db'.targets) :
    (∃ g ∈ db.targets, g.taskId = g'.taskId ∧ g.serverId = g'.serverId) ∨
      g'.taskId = db.tasks.next ∧ ∃ t, act = .insert t ∧ t.id = db.tasks.next := by
  cases hm with
  | insert hinsert =>
    obtain ⟨action, serverIds, -, rfl, rfl⟩ := insertTask_created hinsert
    rcases Table.mem_insertAll.mp hg' with hg' | hg'
    · exact .inl ⟨g', hg', rfl, rfl⟩
    · obtain ⟨a, ha, k, -, rfl⟩ := Table.exists_of_mem_keyed hg'
      obtain ⟨sid, -, rfl⟩ := List.mem_map.mp ha
      exact .inr ⟨rfl, _, rfl, rfl⟩
  | confirm | claim | archive | fire => exact .inl ⟨g', hg', rfl, rfl⟩
  | cancel | report | expire =>
    rw [aggregateTaskStatus_eq] at hg'
    exact .inl ⟨g', hg', rfl, rfl⟩
  | retry =>
    rw [aggregateTaskStatus_eq] at hg'
    obtain ⟨g, hg, rfl⟩ := List.mem_map.mp hg'
    refine .inl ⟨g, hg, ?_⟩
    split_ifs <;> exact ⟨rfl, rfl⟩
  | purge => exact .inl ⟨g', (Table.mem_remove.mp hg').1, rfl, rfl⟩

/-- Every target is one of a task with a number given out. -/
theorem Move.target_lt {act : Act} (hm : Move croniter now db act db')
    (h : ∀ g ∈ db.targets, g.taskId < db.tasks.next) : ∀ g ∈ db'.targets, g.taskId < db'.tasks.next := by
  intro g' hg'
  have hle := hm.tasks_next_le
  rcases hm.target hg' with ⟨g, hg, htask, -⟩ | ⟨htask, t, rfl, -⟩
  · have hlt := h g hg
    omega
  · cases hm with
    | insert hinsert =>
      obtain ⟨action, serverIds, -, rfl, rfl⟩ := insertTask_created hinsert
      rw [htask]
      exact Nat.lt_succ_self _

/-- Two rows are for one target of one task. -/
structure SameTarget (s r : OpsTaskExecution) : Prop where
  taskId : s.taskId = r.taskId
  targetId : s.targetId = r.targetId
  serverId : s.serverId = r.serverId

/-- The target that the row is for. -/
structure TargetOf (g : OpsTaskTarget) (r : OpsTaskExecution) : Prop where
  taskId : g.taskId = r.taskId
  id : g.id = r.targetId
  serverId : g.serverId = r.serverId

/-- A row after a move is for the task, the target and the server of an old row, or for a target. -/
theorem Move.row_source {act : Act} (hm : Move croniter now db act db') {r : OpsTaskExecution}
    (hr : r ∈ db'.executions) :
    (∃ s ∈ db.executions, SameTarget s r) ∨ ∃ g ∈ db'.targets, TargetOf g r := by
  have hold : (∃ s ∈ db.executions, SameRow s r) →
      (∃ s ∈ db.executions, SameTarget s r) ∨ ∃ g ∈ db'.targets, TargetOf g r :=
    fun ⟨s, hs, hrow⟩ => .inl ⟨s, hs, hrow.taskId.symm, hrow.targetId.symm, hrow.serverId.symm⟩
  cases hm with
  | insert hinsert =>
    obtain ⟨action, serverIds, -, rfl, rfl⟩ := insertTask_created hinsert
    split_ifs at hr
    · rcases Table.mem_insertAll.mp hr with hr | hr
      · exact hold ⟨r, hr, .rfl' r⟩
      · obtain ⟨a, ha, k, -, rfl⟩ := Table.exists_of_mem_keyed hr
        obtain ⟨g, hg, rfl⟩ := List.mem_map.mp ha
        have htask : g.taskId = db.tasks.next := by
          obtain ⟨b, hb, k', -, rfl⟩ := Table.exists_of_mem_keyed hg
          obtain ⟨sid, -, rfl⟩ := List.mem_map.mp hb
          rfl
        exact .inr ⟨g, Table.mem_insertAll.mpr (.inr hg), htask, rfl, rfl⟩
    · exact hold ⟨r, hr, .rfl' r⟩
  | confirm => exact hold ⟨r, hr, .rfl' r⟩
  | cancel _ _ w =>
    rw [executions_aggregate] at hr
    exact hold (w.exists_sameRow _ hr)
  | claim _ _ he hpending => exact hold ((claimEdit now he hpending).exists_sameRow db.logs hr)
  | report _ _ _ w logs | expire _ _ _ w logs =>
    rw [executions_aggregate] at hr
    exact hold (w.exists_sameRow _ hr)
  | archive _ _ _ _ w => exact hold (w.exists_sameRow _ hr)
  | retry _ _ he _ _ _ w _ _ logs =>
    rw [executions_aggregate] at hr
    rcases Table.mem_insert.mp hr with hr | rfl
    · exact hold (w.exists_sameRow _ hr)
    · exact .inl ⟨_, he.1, rfl, rfl, rfl⟩
  | fire =>
    rcases Table.mem_insertAll.mp hr with hr | hr
    · exact hold ⟨r, hr, .rfl' r⟩
    · obtain ⟨a, ha, k, -, rfl⟩ := Table.exists_of_mem_keyed hr
      obtain ⟨g, hg, rfl⟩ := List.mem_map.mp ha
      obtain ⟨hg, htask⟩ := Table.mem_select.mp hg
      exact .inr ⟨g, hg, of_decide_eq_true htask, rfl, rfl⟩
  | purge => exact hold ⟨r, (mem_purged.mp hr).1, .rfl' r⟩

/-! ## Runs with changes of the whitelist -/

/-- A call of the engine, or one that writes the service assets. -/
inductive AssetCall
  | engine (call : Call)
  | updateServiceWhitelist (serverId serviceId : ℕ) (data : ServiceWhitelistUpdate)
  | syncServices (serverId : ℕ) (data : ServicesRequest)

structure AssetEvent where
  now : Time
  call : AssetCall

/-- A call that raises changes nothing. -/
def Db.withServices (db : Db) (services : Except Failure (Table OpsServerService)) : Db :=
  match services with
  | .ok services => { db with services := services }
  | .error _ => db

theorem Db.withServices_cases (db : Db) (r : Except Failure (Table OpsServerService)) :
    (∃ assets, r = .ok assets ∧ db.withServices r = { db with services := assets }) ∨
      db.withServices r = db := by
  cases r with
  | ok assets => exact .inl ⟨assets, rfl, rfl⟩
  | error x => exact .inr rfl

def assetStep (croniter : CronIter) (db : Db) (ev : AssetEvent) : Db :=
  match ev.call with
  | .engine call => step croniter db ⟨ev.now, call⟩
  | .updateServiceWhitelist serverId serviceId data =>
    db.withServices (updateServiceWhitelist db.servers db.services serverId serviceId data)
  | .syncServices serverId data =>
    db.withServices (syncServices db.services ev.now serverId data)

section Run
variable (croniter : CronIter) (servers : Table OpsServer) (services : Table OpsServerService)

def afterAssets (es : List AssetEvent) : Db :=
  run (assetStep croniter) (.fresh servers services) es

/-- An administrator took the permission of the service back after the task was created. -/
def Revoked (serviceId taskId : ℕ) : List AssetEvent → Prop :=
  Happened fun pre ev => ∃ serverId data services', data.isWhitelisted ≠ 1 ∧
    ev.call = .updateServiceWhitelist serverId serviceId data ∧
    updateServiceWhitelist servers (afterAssets croniter servers services pre).services serverId
      serviceId data = .ok services' ∧
    taskId < (afterAssets croniter servers services pre).tasks.next

/-- The service of a controlled operation exists, with the permission unless it was revoked. -/
def Permits (es : List AssetEvent) (assets : Table OpsServerService) (t : OpsTask)
    (serverId : ℕ) : Prop :=
  t.action.confirmRequired = true → ∃ name ∈ t.serviceName, ∃ s,
    getByServerService assets serverId name = some s ∧
      (s.isWhitelisted = 1 ∨ Revoked croniter servers services s.id t.id es)

structure Vetted (es : List AssetEvent) (db : Db) : Prop where
  servers_eq : db.servers = servers
  target_lt : ∀ g ∈ db.targets, g.taskId < db.tasks.next
  row_lt : ∀ e ∈ db.executions, e.taskId < db.tasks.next
  targets : ∀ g ∈ db.targets, ∀ t ∈ db.tasks, t.id = g.taskId →
    Permits croniter servers services es db.services t g.serverId
  rows : ∀ e ∈ db.executions, ∀ t ∈ db.tasks, t.id = e.taskId →
    Permits croniter servers services es db.services t e.serverId

variable {croniter servers services} {es : List AssetEvent}

theorem Permits.congr {assets : Table OpsServerService} {t t' : OpsTask} {serverId : ℕ}
    (h : Permits croniter servers services es assets t serverId) (hsame : SameOrder t t') :
    Permits croniter servers services es assets t' serverId := by
  unfold Permits at h ⊢
  rwa [← hsame.action, ← hsame.serviceName, ← hsame.id]

theorem Move.servers_eq {act : Act} (hm : Move croniter now db act db') :
    db'.servers = db.servers := by
  cases hm with
  | insert hinsert =>
    obtain ⟨action, serverIds, -, rfl, rfl⟩ := insertTask_created hinsert
    rfl
  | cancel | report | expire | retry =>
    rw [aggregateTaskStatus_eq]
    rfl
  | confirm | claim | archive | fire | purge => rfl

theorem Vetted.move {act : Act} (h : Vetted croniter servers services es db)
    (hm : Move croniter now db act db') : Vetted croniter servers services es db' := by
  have hle := hm.tasks_next_le
  have htargets : ∀ g ∈ db'.targets, ∀ t ∈ db'.tasks, t.id = g.taskId →
      Permits croniter servers services es db'.services t g.serverId := by
    intro g' hg' t' ht' hid
    rw [hm.services_eq]
    rcases hm.order ht' with ⟨t, ht, hsame⟩ | ⟨hnew, rfl⟩
    · rcases hm.target hg' with ⟨g, hg, htask, hserver⟩ | ⟨hnew, -⟩
      · rw [← hserver]
        exact (h.targets g hg t ht (by rw [hsame.id, hid, htask])).congr hsame
      · have hlt : t.id < db.tasks.next := Table.key_lt ht
        have hsid := hsame.id
        omega
    · -- the creation checked the targets of the new task
      intro hcontrolled
      generalize hact : Act.insert t' = act at hm
      cases hm with
      | insert hinsert =>
        obtain rfl := Act.insert.inj hact
        obtain ⟨name, hname, hall⟩ := insertTask_allowed hinsert hcontrolled
        refine ⟨name, hname, ?_⟩
        rcases hall g' hg' with hg | ⟨s, hs, hone⟩
        · have hlt := h.target_lt g' hg
          omega
        · exact ⟨s, hs, .inl hone⟩
      | _ => cases hact
  have htarget_lt : ∀ g ∈ db'.targets, g.taskId < db'.tasks.next := hm.target_lt h.target_lt
  refine ⟨hm.servers_eq.trans h.servers_eq, htarget_lt, ?_, htargets, ?_⟩
  · intro r hr
    rcases hm.row_source hr with ⟨s, hs, htask, -, -⟩ | ⟨g, hg, htask, -, -⟩
    · have hlt := h.row_lt s hs
      omega
    · rw [← htask]
      exact htarget_lt g hg
  · intro r hr t' ht' hid
    rcases hm.row_source hr with ⟨s, hs, htask, -, hserver⟩ | ⟨g, hg, htask, -, hserver⟩
    · rw [hm.services_eq, ← hserver]
      rcases hm.order ht' with ⟨t, ht, hsame⟩ | ⟨hnew, -⟩
      · exact (h.rows s hs t ht (by rw [hsame.id, hid, htask])).congr hsame
      · have hlt := h.row_lt s hs
        omega
    · rw [← hserver]
      exact htargets g hg t' ht' (hid.trans htask.symm)

theorem Vetted.moves {P : Act → Prop} (h : Vetted croniter servers services es db)
    (hm : Moves croniter now P db db') : Vetted croniter servers services es db' := by
  induction hm with
  | refl => exact h
  | tail _ hmove ih =>
    obtain ⟨act, -, hmove⟩ := hmove
    exact ih.move hmove

/-- A write of the assets keeps the invariant when it keeps every service with its permission,
or records that it took the permission back. -/
theorem Vetted.withServices {ev : AssetEvent} {assets : Table OpsServerService}
    (h : Vetted croniter servers services es db)
    (hlookup : ∀ t ∈ db.tasks, ∀ serverId name s,
      getByServerService db.services serverId name = some s →
      ∃ s', getByServerService assets serverId name = some s' ∧ s'.id = s.id ∧
        (s'.isWhitelisted = s.isWhitelisted ∨ s'.isWhitelisted = 1 ∨
          Revoked croniter servers services s.id t.id (es ++ [ev]))) :
    Vetted croniter servers services (es ++ [ev]) { db with services := assets } := by
  have hpermits : ∀ t ∈ db.tasks, ∀ serverId,
      Permits croniter servers services es db.services t serverId →
        Permits croniter servers services (es ++ [ev]) assets t serverId := by
    intro t ht serverId hold hcontrolled
    obtain ⟨name, hname, s, hs, hallowed⟩ := hold hcontrolled
    obtain ⟨s', hs', hid, hnew⟩ := hlookup t ht serverId name s hs
    refine ⟨name, hname, s', hs', ?_⟩
    rw [hid]
    rcases hallowed with hone | hrevoked
    · rcases hnew with hsame | hone' | hrevoked
      · exact .inl (hsame.trans hone)
      · exact .inl hone'
      · exact .inr hrevoked
    · exact .inr (hrevoked.concat ev)
  exact ⟨h.servers_eq, h.target_lt, h.row_lt,
    fun g hg t ht hid => hpermits t ht g.serverId (h.targets g hg t ht hid),
    fun e he t ht hid => hpermits t ht e.serverId (h.rows e he t ht hid)⟩

theorem Vetted.mono {ev : AssetEvent} (h : Vetted croniter servers services es db) :
    Vetted croniter servers services (es ++ [ev]) db :=
  h.withServices fun _ _ _ _ s hs => ⟨s, hs, rfl, .inl rfl⟩

theorem afterAssets_concat (croniter : CronIter) (servers : Table OpsServer)
    (services : Table OpsServerService) (es : List AssetEvent) (ev : AssetEvent) :
    afterAssets croniter servers services (es ++ [ev]) =
      assetStep croniter (afterAssets croniter servers services es) ev :=
  run_concat _ _ _ _

theorem vetted_after : Vetted croniter servers services es
    (afterAssets croniter servers services es) := by
  induction es using List.reverseRecOn with
  | nil =>
    exact ⟨rfl, fun g hg => absurd hg (Table.notMem_empty g),
      fun e he => absurd he (Table.notMem_empty e), fun g hg => absurd hg (Table.notMem_empty g),
      fun e he => absurd he (Table.notMem_empty e)⟩
  | append_singleton es ev ih =>
    obtain ⟨now, call⟩ := ev
    rw [afterAssets_concat]
    cases call with
    | engine call =>
      change Vetted croniter servers services _ (step croniter _ ⟨now, call⟩)
      rcases step_cases croniter (afterAssets croniter servers services es) ⟨now, call⟩ with
        ⟨heq, -⟩ | ⟨reply, -, hm⟩
      · rw [heq]
        exact ih.mono
      · exact ih.mono.moves hm
    | updateServiceWhitelist serverId serviceId data =>
      change Vetted croniter servers services _ (Db.withServices _ _)
      rcases Db.withServices_cases (afterAssets croniter servers services es)
        (updateServiceWhitelist (afterAssets croniter servers services es).servers
          (afterAssets croniter servers services es).services serverId serviceId data) with
        ⟨assets, hok, heq⟩ | heq
      · rw [heq]
        refine ih.withServices fun t ht sid name s hs => ?_
        obtain ⟨s', hs', hid, hvalue⟩ := updateServiceWhitelist_lookup hok hs
        refine ⟨s', hs', hid, ?_⟩
        split_ifs at hvalue with hservice
        · by_cases hone : data.isWhitelisted = 1
          · exact .inr (.inl (hvalue.trans hone))
          · rw [ih.servers_eq] at hok
            refine .inr (.inr (happened_concat.mpr (.inr ?_)))
            exact ⟨serverId, data, assets, hone, by rw [hservice], by rw [hservice]; exact hok,
              Table.key_lt ht⟩
        · exact .inl hvalue
      · rw [heq]
        exact ih.mono
    | syncServices serverId data =>
      change Vetted croniter servers services _ (Db.withServices _ _)
      rcases Db.withServices_cases (afterAssets croniter servers services es)
        (syncServices (afterAssets croniter servers services es).services now serverId data) with
        ⟨assets, hok, heq⟩ | heq
      · rw [heq]
        refine ih.withServices fun t ht sid name s hs => ?_
        obtain ⟨s', hs', hid, hsame⟩ := syncServices_lookup hok hs
        exact ⟨s', hs', hid, .inl hsame⟩
      · rw [heq]
        exact ih.mono

variable (croniter servers services es)

/-- When a poll hands out a controlled operation, its service exists and has the permission,
unless an administrator took it back after the task was created. A status report never changes
the permission of a service that exists. -/
theorem whitelisted_when_created :
    (∀ now serverId, ∀ item ∈ (fetchPending (afterAssets croniter servers services es) now serverId).2,
      item.action.confirmRequired = true → ∃ name ∈ item.serviceName, ∃ s,
        getByServerService (afterAssets croniter servers services es).services serverId name = some s ∧
          (s.isWhitelisted = 1 ∨ Revoked croniter servers services s.id item.taskId es)) ∧
    ∀ now serverId data, ∀ s ∈ (afterAssets croniter servers services es).services,
      ∃ s' ∈ (afterAssets croniter servers services
        (es ++ [⟨now, .syncServices serverId data⟩])).services,
          s'.id = s.id ∧ s'.isWhitelisted = s.isWhitelisted := by
  constructor
  · intro now serverId item hitem hcontrolled
    obtain ⟨e, he, t, ht, hid, rfl⟩ := mem_fetchPending_task hitem
    obtain ⟨hclaim, rfl⟩ := mem_fetchPendingByServer he
    exact vetted_after.rows e hclaim.1 t ht hid hcontrolled
  · intro now serverId data s hs
    rw [afterAssets_concat]
    change ∃ s' ∈ (Db.withServices _ _).services, _
    rcases Db.withServices_cases (afterAssets croniter servers services es)
      (syncServices (afterAssets croniter servers services es).services now serverId data) with
      ⟨assets, hok, heq⟩ | heq
    · rw [heq]
      exact syncServices_keeps hok hs
    · rw [heq]
      exact ⟨s, hs, rfl, rfl⟩

end Run

section Runs
open Sample

/-- A restart of the service that needs no second confirmation. -/
def restart : TaskCreate :=
  { check "ONCE" with
    taskType := "SERVICE_ACTION"
    action := some "RESTART"
    confirmationRequired := some false }

/-- The permission is taken back between the creation of a restart and the poll. -/
theorem revoked_restart_handed_out :
    ¬ ∀ (croniter : CronIter) (servers : Table OpsServer) (services : Table OpsServerService)
      (es : List AssetEvent) (now : Time) (serverId : ℕ),
      ∀ item ∈ (fetchPending (afterAssets croniter servers services es) now serverId).2,
        item.action.confirmRequired = true → ∃ name ∈ item.serviceName, ∃ s,
          getByServerService (afterAssets croniter servers services es).services serverId name =
            some s ∧ s.isWhitelisted = 1 := by
  intro h
  obtain ⟨item, hitem, haction, hname⟩ : ∃ item ∈ (fetchPending (afterAssets everyMinute servers
      services [⟨0, .engine (.createTask restart 1 none)⟩,
        ⟨1000, .updateServiceWhitelist 1 1 ⟨0, by decide⟩⟩]) 2000 1).2,
      item.action.confirmRequired = true ∧ item.serviceName = some "nginx" := by decide
  obtain ⟨name, hmem, s, hs, hone⟩ := h everyMinute servers services
    [⟨0, .engine (.createTask restart 1 none)⟩,
      ⟨1000, .updateServiceWhitelist 1 1 ⟨0, by decide⟩⟩] 2000 1 item hitem haction
  rw [hname] at hmem
  obtain rfl := Option.mem_some_iff.mp hmem
  have hzero : (getByServerService (afterAssets everyMinute servers services
      [⟨0, .engine (.createTask restart 1 none)⟩,
        ⟨1000, .updateServiceWhitelist 1 1 ⟨0, by decide⟩⟩]).services 1 "nginx").map
          (·.isWhitelisted) = some 0 := by decide
  rw [hs, Option.map_some, hone] at hzero
  cases hzero

end Runs

end OpsMonitor.Task
