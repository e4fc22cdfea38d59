import OpsMonitor.Task.Creation
import OpsMonitor.Task.Whitelist

/-! What `create_task` accepts. The validators look at the type, the action, the servers and the
whitelist; the schedule is a free text that only its consumers look at. -/

namespace OpsMonitor.Task
open Library

variable {croniter : CronIter} {kept : Prop} {db db' : Db} {c : Creation} {t : OpsTask}

/-! ## What is asked for -/

/-- The schedule is one that the engine runs at some time. -/
def Creation.RunsSometime (croniter : CronIter) (c : Creation) : Prop :=
  c.data.scheduleType = "ONCE" ∨ c.data.scheduleType = "CRON" ∧
    ∃ expression ∈ c.data.cronExpression, expression ≠ "" ∧ (croniter expression c.now).isSome

/-- A body that may create a task: a type with its action, the service of a controlled operation,
and a schedule. -/
def Creation.Proper (croniter : CronIter) (c : Creation) : Prop :=
  (∃ action, normalizeAction c.data = .ok action ∧
    (action.confirmRequired = true → ∃ name ∈ c.data.serviceName, name ≠ "")) ∧
      c.RunsSometime croniter

/-- The servers are there, and have the service of a controlled operation on their whitelist. -/
def Creation.Admissible (c : Creation) (db : Db) : Prop :=
  ∃ action, normalizeAction c.data = .ok action ∧
    (∀ sid ∈ c.data.serverIds, ∃ server, getServer db.servers sid = some server) ∧
    (action.confirmRequired = true → ∃ name ∈ c.data.serviceName, name ≠ "" ∧
      ∀ sid ∈ c.data.serverIds, ∃ s ∈ getByServerService db.services sid name, s.isWhitelisted = 1)

/-- The new task runs at once: one unclaimed first attempt for each server. -/
structure RunsNow (c : Creation) (db : Db) (t : OpsTask) : Prop where
  once : c.data.scheduleType = "ONCE"
  one : ∀ sid ∈ c.data.serverIds, ∃! e, e ∈ db.rowsOf t.id ∧ e.serverId = sid
  rows : ∀ e ∈ db.rowsOf t.id, e.status = .pending ∧ e.attempt = 1 ∧ e.serverId ∈ c.data.serverIds

/-- The new task waits for its schedule: one target for each server, and no rows. -/
structure RunsLater (croniter : CronIter) (c : Creation) (db : Db) (t : OpsTask) : Prop where
  fires : ∃ next, Fireable croniter t next
  one : ∀ sid ∈ c.data.serverIds, ∃! g, (g ∈ db.targets ∧ g.taskId = t.id) ∧ g.serverId = sid
  targets : ∀ g ∈ db.targets, g.taskId = t.id → g.serverId ∈ c.data.serverIds
  rows : db.rowsOf t.id = ∅

/-- A call that returns a new task makes one that runs, and every other body is refused. -/
structure NoneInert (croniter : CronIter) (db : Db) (c : Creation) : Prop where
  accepted : ∀ db' t, createTask db c.now c.data c.creatorId c.key = .ok (db', t) → t ∉ db.tasks →
    RunsNow c db' t ∨ RunsLater croniter c db' t
  refused : c.lookUp db = none → ¬ c.Proper croniter →
    (∃ e, createTask db c.now c.data c.creatorId c.key = .error (.app e)) ∧
      step croniter db ⟨c.now, .createTask c.data c.creatorId c.key⟩ = db

/-! ## The validators -/

theorem mapM_isOk {α β ε : Type} {f : α → Except ε β} {l : List α} :
    (∃ bs, l.mapM f = .ok bs) ↔ ∀ a ∈ l, ∃ b, f a = .ok b := by
  constructor
  · rintro ⟨bs, h⟩
    induction l generalizing bs with
    | nil => simp
    | cons a l ih =>
      rw [List.mapM_cons] at h
      obtain ⟨b, hb, h⟩ := bind_eq_ok.mp h
      obtain ⟨bs', hbs, -⟩ := bind_eq_ok.mp h
      exact List.forall_mem_cons.mpr ⟨⟨b, hb⟩, ih bs' hbs⟩
  · intro hall
    rcases error_or_ok (l.mapM f) with ⟨x, herr⟩ | hok
    · obtain ⟨a, ha, hx⟩ := mapM_error herr
      obtain ⟨b, hb⟩ := hall a ha
      cases hb.symm.trans hx
    · exact hok

theorem forM_isOk {α ε : Type} {f : α → Except ε Unit} {l : List α} :
    l.forM f = .ok () ↔ ∀ a ∈ l, f a = .ok () := by
  refine ⟨forM_eq_ok, fun hall => ?_⟩
  rcases error_or_ok (l.forM f) with ⟨x, herr⟩ | ⟨u, hok⟩
  · obtain ⟨a, ha, hx⟩ := forM_error herr
    cases (hall a ha).symm.trans hx
  · exact hok

theorem validateServers_isOk {serverIds : List ℕ} :
    (∃ servers, validateServers db serverIds = .ok servers) ↔
      ∀ sid ∈ serverIds, ∃ server, getServer db.servers sid = some server := by
  rw [validateServers, mapM_isOk]
  simp only [List.mem_dedup]
  refine forall₂_congr fun sid _ => ?_
  cases getServer db.servers sid with
  | none => simp
  | some server => simp

theorem validateServiceWhitelist_isOk {servers : List OpsServer} {serviceName : Option String}
    {action : Action} :
    validateServiceWhitelist db servers serviceName action = .ok () ↔
      (action.confirmRequired = true → ∃ name ∈ serviceName, name ≠ "" ∧
        ∀ server ∈ servers, ∃ s ∈ getByServerService db.services server.id name,
          s.isWhitelisted = 1) := by
  constructor
  · intro h hcontrolled
    obtain ⟨name, hname, hall⟩ := validateServiceWhitelist_eq_ok h hcontrolled
    refine ⟨name, hname, ?_, hall⟩
    rintro rfl
    rw [Option.mem_def.mp hname, validateServiceWhitelist, if_neg] at h
    · cases h
    · rintro (rfl | rfl) <;> cases hcontrolled
  · intro h
    by_cases hfree : action = .status ∨ action = .logs
    · exact if_pos hfree
    have hcontrolled : action.confirmRequired = true := by
      cases action with
      | status => exact absurd (.inl rfl) hfree
      | logs => exact absurd (.inr rfl) hfree
      | start | stop | restart => rfl
    obtain ⟨name, hname, hne, hall⟩ := h hcontrolled
    rw [Option.mem_def.mp hname, validateServiceWhitelist, if_neg hfree]
    · exact forM_isOk.mpr fun server hserver => if_pos (hall server hserver)
    · exact hne

theorem admissible_iff_valid : c.Admissible db ↔ c.Valid db := by
  constructor
  · rintro ⟨action, haction, hservers, hwhite⟩
    obtain ⟨servers, hservers⟩ := validateServers_isOk.mpr hservers
    refine ⟨action, servers, haction, hservers, validateServiceWhitelist_isOk.mpr fun hcontrolled => ?_⟩
    obtain ⟨name, hname, hne, hall⟩ := hwhite hcontrolled
    refine ⟨name, hname, hne, fun server hserver => hall server.id ?_⟩
    rw [← List.mem_dedup, ← validateServers_ids hservers]
    exact List.mem_map_of_mem hserver
  · rintro ⟨action, servers, haction, hservers, hwhite⟩
    refine ⟨action, haction, validateServers_isOk.mp ⟨servers, hservers⟩, fun hcontrolled => ?_⟩
    obtain ⟨name, hname, hne, hall⟩ := validateServiceWhitelist_isOk.mp hwhite hcontrolled
    refine ⟨name, hname, hne, fun sid hsid => ?_⟩
    rw [← List.mem_dedup, ← validateServers_ids hservers] at hsid
    obtain ⟨server, hserver, rfl⟩ := List.mem_map.mp hsid
    exact hall server hserver

/-! ## Refusals -/

theorem normalizeAction_error {data : TaskCreate} {x : Failure} (h : normalizeAction data = .error x)
    (hknown : taskTypeAction data.taskType ≠ none) : ∃ e, x = .app e := by
  unfold normalizeAction at h
  split at h
  · exact absurd ‹_› hknown
  · split_ifs at h
    exact ⟨_, (Except.error.inj h).symm⟩
  · split at h
    · cases h
    · cases h
    · cases h
    · exact ⟨_, (Except.error.inj h).symm⟩

theorem validateServers_error {serverIds : List ℕ} {x : Failure}
    (h : validateServers db serverIds = .error x) : ∃ e, x = .app e := by
  obtain ⟨sid, -, hsid⟩ := mapM_error h
  split at hsid
  · exact ⟨_, (Except.error.inj hsid).symm⟩
  · cases hsid

theorem validateServiceWhitelist_error {servers : List OpsServer} {serviceName : Option String}
    {action : Action} {x : Failure}
    (h : validateServiceWhitelist db servers serviceName action = .error x) : ∃ e, x = .app e := by
  unfold validateServiceWhitelist at h
  split_ifs at h
  split at h
  · exact ⟨_, (Except.error.inj h).symm⟩
  · exact ⟨_, (Except.error.inj h).symm⟩
  · obtain ⟨server, -, h⟩ := forM_error h
    split_ifs at h
    exact ⟨_, (Except.error.inj h).symm⟩

/-- A body of a known type that the validators do not pass is refused by one of them. -/
theorem Creation.insertTask_refused (hknown : taskTypeAction c.data.taskType ≠ none)
    (hvalid : ¬ c.Valid db) : ∃ e, insertTask db c.now c.data c.creatorId c.key = .error (.app e) := by
  rcases error_or_ok (normalizeAction c.data) with ⟨x, herr⟩ | ⟨action, haction⟩
  · obtain ⟨e, rfl⟩ := normalizeAction_error herr hknown
    exact ⟨e, bind_eq_error.mpr (.inl herr)⟩
  rcases error_or_ok (validateServers db c.data.serverIds) with ⟨x, herr⟩ | ⟨servers, hservers⟩
  · obtain ⟨e, rfl⟩ := validateServers_error herr
    exact ⟨e, bind_eq_error.mpr (.inr ⟨action, haction, bind_eq_error.mpr (.inl herr)⟩)⟩
  rcases error_or_ok (validateServiceWhitelist db servers c.data.serviceName action) with
    ⟨x, herr⟩ | ⟨u, hwhite⟩
  · obtain ⟨e, rfl⟩ := validateServiceWhitelist_error herr
    exact ⟨e, bind_eq_error.mpr (.inr ⟨action, haction, bind_eq_error.mpr
      (.inr ⟨servers, hservers, bind_eq_error.mpr (.inl herr)⟩)⟩)⟩
  · exact absurd ⟨action, servers, haction, hservers, hwhite⟩ hvalid

theorem Creation.insertTask_unknown (hunknown : taskTypeAction c.data.taskType = none) :
    insertTask db c.now c.data c.creatorId c.key = .error (.keyError c.data.taskType) := by
  refine bind_eq_error.mpr (.inl ?_)
  rw [normalizeAction, hunknown]

/-- What passes the validators is not refused for a schedule that nobody knows. -/
theorem Creation.Valid.not_refused (h : c.Valid db) (hsched : c.data.scheduleType ≠ "ONCE")
    (e : AppException) : insertTask db c.now c.data c.creatorId c.key ≠ .error (.app e) := by
  obtain ⟨action, servers, haction, hservers, hwhite⟩ := h
  intro herr
  rw [insertTask, haction] at herr
  change (validateServers db c.data.serverIds >>= _) = _ at herr
  rw [hservers] at herr
  change (validateServiceWhitelist db servers c.data.serviceName action >>= _) = _ at herr
  rw [hwhite] at herr
  change (db.createTaskRow _ >>= _) = _ at herr
  rcases bind_eq_error.mp herr with herr | ⟨⟨d, t⟩, -, herr⟩
  · unfold Db.createTaskRow at herr
    split_ifs at herr
    cases herr
  · dsimp only at herr
    rw [if_neg hsched] at herr
    cases herr

/-! ## Acceptance -/

/-- The targets of a new task, one for each server. -/
theorem map_serverId_targets (n taskId : ℕ) (serverIds : List ℕ) :
    (Table.keyed n (serverIds.map fun sid => (⟨0, taskId, sid, .pending⟩ : OpsTaskTarget))).map
      (·.serverId) = serverIds := by
  have htargets : ∀ as : List OpsTaskTarget,
      (Table.keyed n as).map (·.serverId) = as.map (·.serverId) := Table.map_keyed (fun _ _ => rfl) n
  rw [htargets, List.map_map]
  exact List.map_id'' (fun _ => rfl) serverIds

theorem Chains.runsNow (h : Chains db)
    (hok : insertTask db c.now c.data c.creatorId c.key = .ok (db', t))
    (honce : c.data.scheduleType = "ONCE") : RunsNow c db' t := by
  have hinserted := h.inserted hok
  refine ⟨honce, hinserted.covers.once honce, fun e he => ?_⟩
  have hserver := (hinserted.covers.servers e he).2
  obtain ⟨action, rfl, rfl⟩ := insertTask_eq hok
  have hmem := he.1
  dsimp only at hmem
  rw [if_pos honce] at hmem
  rcases Table.mem_insertAll.mp hmem with hold | hnew
  · exact absurd he.2 (h.free_next e hold)
  · exact ⟨(mem_firstAttempts hnew).2.2, (mem_firstAttempts hnew).2.1, hserver⟩

theorem Chains.runsLater (h : Chains db) (hknown : ∀ g ∈ db.targets, g.taskId < db.tasks.next)
    (hok : insertTask db c.now c.data c.creatorId c.key = .ok (db', t))
    (hsched : c.data.scheduleType = "CRON") {expression : String}
    (hexpression : expression ∈ c.data.cronExpression) (hne : expression ≠ "")
    (heval : (croniter expression c.now).isSome) : RunsLater croniter c db' t := by
  obtain ⟨next, hnext⟩ := Option.isSome_iff_exists.mp heval
  have hrows := (h.inserted hok).covers.servers
  obtain ⟨action, rfl, rfl⟩ := insertTask_eq hok
  have hids := map_serverId_targets db.targets.next db.tasks.next c.data.serverIds.dedup
  -- the targets of the task are the new ones
  have hnew : ∀ g, g ∈ db.targets.insertAll (c.data.serverIds.dedup.map fun sid =>
        (⟨0, db.tasks.next, sid, .pending⟩ : OpsTaskTarget)) ∧ g.taskId = db.tasks.next ↔
      g ∈ Table.keyed db.targets.next (c.data.serverIds.dedup.map fun sid =>
        (⟨0, db.tasks.next, sid, .pending⟩ : OpsTaskTarget)) := by
    intro g
    constructor
    · rintro ⟨hg, htask⟩
      refine (Table.mem_insertAll.mp hg).resolve_left fun hold => ?_
      exact absurd htask (hknown g hold).ne
    · intro hg
      refine ⟨Table.mem_insertAll.mpr (.inr hg), ?_⟩
      obtain ⟨a, ha, k, -, rfl⟩ := Table.exists_of_mem_keyed hg
      obtain ⟨sid, -, rfl⟩ := List.mem_map.mp ha
      rfl
  refine ⟨⟨next, hsched, expression, hexpression, hne, hnext⟩, fun sid hsid => ?_, fun g hg htask => ?_, ?_⟩
  · obtain ⟨g, hg, hserver⟩ := List.mem_map.mp (hids.symm ▸ List.mem_dedup.mpr hsid)
    refine ⟨g, ⟨(hnew g).mpr hg, hserver⟩, fun f hf => ?_⟩
    have hnodup := List.nodup_dedup c.data.serverIds
    rw [← hids] at hnodup
    exact List.inj_on_of_nodup_map hnodup ((hnew f).mp hf.1) hg (hf.2.trans hserver.symm)
  · rw [← List.mem_dedup, ← hids]
    exact List.mem_map_of_mem ((hnew g).mp ⟨hg, htask⟩)
  · refine Set.eq_empty_iff_forall_notMem.mpr fun e he => ?_
    have honce := (hrows e he).1
    rw [hsched] at honce
    exact absurd honce (by decide)

/-! ## Every call -/

theorem lookUp_replay (h : c.lookUp db = some t) :
    createTask db c.now c.data c.creatorId c.key = .ok (db, t) := by
  rw [createTask_eq_finish, h]
  rfl

theorem lookUp_insert (h : c.lookUp db = none) : createTask db c.now c.data c.creatorId c.key =
    insertTask db c.now c.data c.creatorId c.key := by
  rw [createTask_eq_finish, h]
  rfl

theorem step_refused {e : AppException}
    (h : createTask db c.now c.data c.creatorId c.key = .error (.app e)) :
    step croniter db ⟨c.now, .createTask c.data c.creatorId c.key⟩ = db :=
  step_of_error (bind_eq_error.mpr (.inl h))

theorem Creation.Admissible.proper (h : c.Admissible db) (hruns : c.RunsSometime croniter) :
    c.Proper croniter := by
  obtain ⟨action, haction, -, hwhite⟩ := h
  refine ⟨⟨action, haction, fun hcontrolled => ?_⟩, hruns⟩
  obtain ⟨name, hname, hne, -⟩ := hwhite hcontrolled
  exact ⟨name, hname, hne⟩

theorem Chains.noneInert_iff (h : Chains db) (hknown : ∀ g ∈ db.targets, g.taskId < db.tasks.next) :
    NoneInert croniter db c ↔ c.lookUp db ≠ none ∨
      taskTypeAction c.data.taskType ≠ none ∧ (c.Admissible db → c.RunsSometime croniter) := by
  cases hkey : c.lookUp db with
  | some existing =>
    refine iff_of_true ⟨fun db' t hok hnew => ?_, fun hnone => ?_⟩ (.inl nofun)
    · rw [lookUp_replay hkey] at hok
      obtain ⟨-, rfl⟩ := Prod.ext_iff.mp (Except.ok.inj hok)
      exact absurd (Creation.of_lookUp hkey).1 hnew
    · rw [hkey] at hnone
      cases hnone
  | none =>
    refine Iff.trans ?_ (or_iff_right (not_not.mpr rfl)).symm
    constructor
    · intro hinert
      have hrefused := fun hproper => (hinert.refused hkey hproper).1
      rw [lookUp_insert hkey] at hrefused
      constructor
      · intro hunknown
        obtain ⟨e, herr⟩ := hrefused fun hproper => by
          obtain ⟨⟨action, haction, -⟩, -⟩ := hproper
          rw [normalizeAction, hunknown] at haction
          cases haction
        rw [Creation.insertTask_unknown hunknown] at herr
        cases herr
      · intro hadmissible
        by_contra hruns
        obtain ⟨e, herr⟩ := hrefused fun hproper => hruns hproper.2
        exact (admissible_iff_valid.mp hadmissible).not_refused (fun honce => hruns (.inl honce)) e herr
    · rintro ⟨htype, hruns⟩
      by_cases hadmissible : c.Admissible db
      · refine ⟨fun db' t hok _ => ?_, fun _ hproper => ?_⟩
        · rw [lookUp_insert hkey] at hok
          rcases hruns hadmissible with honce | ⟨hsched, expression, hexpression, hne, heval⟩
          · exact .inl (h.runsNow hok honce)
          · exact .inr (h.runsLater hknown hok hsched hexpression hne heval)
        · exact absurd (hadmissible.proper (hruns hadmissible)) hproper
      · obtain ⟨e, herr⟩ := Creation.insertTask_refused htype (mt admissible_iff_valid.mpr hadmissible)
        rw [← lookUp_insert hkey] at herr
        refine ⟨fun db' t hok _ => ?_, fun _ _ => ⟨⟨e, herr⟩, step_refused herr⟩⟩
        cases herr.symm.trans hok

/-- The same tasks on other servers and services. -/
def Db.withAssets (db : Db) (servers : Table OpsServer) (services : Table OpsServerService) : Db :=
  { db with servers := servers, services := services }

theorem Chains.withAssets (h : Chains db) (servers : Table OpsServer)
    (services : Table OpsServerService) : Chains (db.withAssets servers services) :=
  ⟨h.task_of, h.has_target, h.budget, h.positive, h.unique, h.superseded, h.gapless⟩

theorem targets_after (croniter : CronIter) (servers : Table OpsServer)
    (services : Table OpsServerService) (es : List Event) :
    ∀ g ∈ (after croniter servers services es).targets,
      g.taskId < (after croniter servers services es).tasks.next :=
  run_of_moves (I := fun db => ∀ g ∈ db.targets, g.taskId < db.tasks.next)
    (fun _ _ _ _ h hm => hm.target_lt h) (fun g hg => absurd hg (Table.notMem_empty g)) es

section Runs
open Sample

end Runs

end OpsMonitor.Task
