import OpsMonitor.Task.Moves

/-! Every call of the engine that succeeds is a run of moves. -/

namespace OpsMonitor.Task
open Library Relation

variable {croniter : CronIter} {now : Time} {db db' : Db}

/-! ## Building blocks -/

theorem getTaskEntity_eq_ok {taskId : ℕ} {t : OpsTask} :
    getTaskEntity db taskId = .ok t ↔ t ∈ db.tasks ∧ t.id = taskId := by
  unfold getTaskEntity
  cases h : db.tasks.get? taskId with
  | none =>
    have hnone := Table.get?_eq_none.mp h
    simp only [reduceCtorEq, false_iff, not_and]
    exact fun ht => hnone t ht
  | some t' =>
    obtain ⟨ht', hid⟩ := Table.get?_eq_some.mp h
    simp only [Except.ok.injEq]
    constructor
    · rintro rfl
      exact ⟨ht', hid⟩
    · rintro ⟨ht, hid'⟩
      exact Table.eq_of_key_eq ht' ht (hid.trans hid'.symm)

/-- The status that aggregation writes. -/
def Db.aggregated (db : Db) (taskId : ℕ) : TaskStatus :=
  if db.listByTask taskId = [] then .pending
  else aggregateStatus ((latestAttempts (db.listByTask taskId)).map (·.status))

theorem aggregateTaskStatus_eq (db : Db) (now : Time) (taskId : ℕ) :
    aggregateTaskStatus db now taskId = db.withTask taskId fun t =>
      { t with
        status := db.aggregated taskId
        finishedAt := if (db.aggregated taskId).finished then some now else t.finishedAt } := by
  by_cases h : db.listByTask taskId = []
  · simp [aggregateTaskStatus, Db.aggregated, h, TaskStatus.finished]
  · simp [aggregateTaskStatus, Db.aggregated, h]

/-- A loop that changes selected rows is one change of them all. -/
theorem foldl_withExecution (db : Db) (p : OpsTaskExecution → Bool)
    (f : OpsTaskExecution → OpsTaskExecution) (hf : ∀ e, Keyed.key (f e) = Keyed.key e) :
    (db.executions.select p).foldl (fun db e => db.withExecution e.id f hf) db =
      { db with
        executions := db.executions.update (fun r => if p r then f r else r)
          fun r => by split_ifs <;> simp only [hf] } := by
  have hdb : ∀ (l : List OpsTaskExecution) (d : Db),
      l.foldl (fun db e => db.withExecution e.id f hf) d =
        { d with executions := l.foldl (fun t e => t.modify (Keyed.key e) f hf) d.executions } := by
    intro l
    induction l with
    | nil => exact fun _ => rfl
    | cons e l ih => exact fun d => ih (d.withExecution e.id f hf)
  rw [hdb, Table.foldl_modify_select]

/-- The write on the rows of `t` that meet `p`. -/
def RowEdit.when {t : OpsTask} (p : OpsTaskExecution → Prop) [DecidablePred p]
    (f : OpsTaskExecution → OpsTaskExecution) (hf : ∀ e, Keyed.key (f e) = Keyed.key e)
    (hp : ∀ s ∈ db.executions, p s → s.taskId = t.id ∧ RowStep now t s (f s)) :
    RowEdit db now t where
  edit r := if p r then f r else r
  key r := by split_ifs <;> simp only [hf]
  step := by
    intro s hs
    split_ifs with h
    · exact (hp s hs.1 h).2
    · exact .same
  other := by
    intro s hs hne
    exact if_neg fun h => hne (hp s hs h).1

/-- The write on one row. -/
def RowEdit.one {t : OpsTask} {e : OpsTaskExecution} (he : e ∈ db.rowsOf t.id)
    (f : OpsTaskExecution → OpsTaskExecution) (hf : ∀ e, Keyed.key (f e) = Keyed.key e)
    (hstep : RowStep now t e (f e)) : RowEdit db now t :=
  .when (fun r => Keyed.key r = e.id) f hf <| by
    intro s hs h
    obtain rfl : s = e := Table.eq_of_key_eq hs he.1 h
    exact ⟨he.2, hstep⟩

theorem RowEdit.one_edit_ne {t : OpsTask} {e : OpsTaskExecution} {he : e ∈ db.rowsOf t.id}
    {f : OpsTaskExecution → OpsTaskExecution} {hf : ∀ e, Keyed.key (f e) = Keyed.key e}
    {hstep : RowStep now t e (f e)} {s : OpsTaskExecution} (hs : s ∈ db.executions) (hne : s ≠ e) :
    (RowEdit.one he f hf hstep).edit s = s :=
  if_neg fun h => hne (Table.eq_of_key_eq hs he.1 h)

theorem finish_ended {t : OpsTask} {s : OpsTaskExecution} (hopen : s.status.finished = false)
    {status : ExecutionStatus} (hend : status.finished = true) {exitCode : Option ℤ}
    {resultText errorMessage errorType : Option String} :
    RowStep now t s (s.finish now status exitCode resultText errorMessage errorType) :=
  .ended hopen ⟨rfl, rfl, rfl, rfl, rfl⟩ hend rfl

theorem moves_one {P : Act → Prop} {act : Act} (hP : P act) (h : Move croniter now db act db') :
    Moves croniter now P db db' := .single ⟨act, hP, h⟩

/-! ## The calls, one by one -/

theorem confirmTask_moves {taskId operatorId : ℕ}
    (h : confirmTask db now taskId operatorId = .ok db') :
    Moves croniter now (· = .confirm taskId) db db' := by
  obtain ⟨t, hget, hdb⟩ := bind_eq_ok.mp h
  obtain ⟨ht, rfl⟩ := getTaskEntity_eq_ok.mp hget
  split_ifs at hdb with hs
  obtain rfl := pure_eq_ok.mp hdb
  exact moves_one rfl (.confirm ht (not_not.mp hs) operatorId)

/-- What the cancellation loop writes. -/
theorem key_cancel (now : Time) (s : OpsTaskExecution) :
    Keyed.key (s.finish now .cancelled none none (some "任务被取消") none) = Keyed.key s := rfl

def cancelEdit (db : Db) (now : Time) (t : OpsTask) : RowEdit db now t :=
  .when (fun r => r.taskId = t.id ∧ r.status = .pending)
    (.finish now .cancelled none none (some "任务被取消") none) (key_cancel now) <| by
      rintro s - ⟨htask, hpending⟩
      exact ⟨htask, finish_ended (by rw [hpending]; rfl) rfl⟩

theorem cancelEdit_of_pending {t : OpsTask} {s : OpsTaskExecution} (hs : s ∈ db.rowsOf t.id)
    (hpending : s.status = .pending) : ((cancelEdit db now t).edit s).status = .cancelled := by
  rw [show (cancelEdit db now t).edit s = _ from if_pos ⟨hs.2, hpending⟩]
  rfl

theorem cancelEdit_of_ne {t : OpsTask} {s : OpsTaskExecution} (hs : s.status ≠ .pending) :
    (cancelEdit db now t).edit s = s := if_neg fun h => hs h.2

theorem foldl_cancelExecution (db : Db) (now : Time) (t : OpsTask) :
    (db.listByTask t.id).foldl (cancelExecution now) db = (cancelEdit db now t).apply db.logs := by
  have hsel : (db.executions.select fun r => r.taskId = t.id ∧ r.status = .pending) =
      (db.listByTask t.id).filter fun e => e.status = .pending := by
    simp only [Db.listByTask, Table.select, List.filter_filter, Bool.decide_and, Bool.and_comm]
  have hloop := foldl_withExecution db (fun r => r.taskId = t.id ∧ r.status = .pending)
    (.finish now .cancelled none none (some "任务被取消") none) fun _ => rfl
  rw [hsel, List.foldl_filter] at hloop
  simp only [decide_eq_true_eq] at hloop
  exact hloop

theorem cancelTask_eq_ok {taskId : ℕ} :
    cancelTask db now taskId = .ok db' ↔ ∃ t ∈ db.tasks, t.id = taskId ∧
      t.status.finished = false ∧
      db' = aggregateTaskStatus ((cancelEdit db now t).apply db.logs) now taskId := by
  constructor
  · intro h
    obtain ⟨t, hget, hdb⟩ := bind_eq_ok.mp h
    obtain ⟨ht, rfl⟩ := getTaskEntity_eq_ok.mp hget
    split_ifs at hdb with hs
    obtain rfl := pure_eq_ok.mp hdb
    exact ⟨t, ht, rfl, Bool.eq_false_iff.mpr hs, by rw [foldl_cancelExecution]⟩
  · rintro ⟨t, ht, rfl, hs, rfl⟩
    refine bind_eq_ok.mpr ⟨t, getTaskEntity_eq_ok.mpr ⟨ht, rfl⟩, ?_⟩
    rw [if_neg (Bool.eq_false_iff.mp hs), foldl_cancelExecution]
    rfl

theorem cancelTask_moves {taskId : ℕ} (h : cancelTask db now taskId = .ok db') :
    Moves croniter now (· = .cancel taskId) db db' := by
  obtain ⟨t, ht, rfl, hs, rfl⟩ := cancelTask_eq_ok.mp h
  exact moves_one rfl (.cancel ht hs _ (fun _ => cancelEdit_of_pending) fun _ _ => cancelEdit_of_ne)

/-- The claim loop hands out rows that were pending, of a task that was released. -/
def Claimable (e : OpsTaskExecution) (db : Db) : Prop :=
  e ∈ db.executions ∧ e.status = .pending ∧
    ∃ t ∈ db.tasks, t.id = e.taskId ∧ (t.status = .pending ∨ t.status = .running)

theorem mem_fetchPendingByServer {serverId limit : ℕ} {e : OpsTaskExecution}
    (h : e ∈ db.fetchPendingByServer serverId limit) : Claimable e db ∧ e.serverId = serverId := by
  have hsel := Table.mem_select.mp (List.mem_of_mem_take h)
  simp only [decide_eq_true_eq, Option.mem_def] at hsel
  obtain ⟨he, hserver, hpending, t, hget, hs⟩ := hsel
  obtain ⟨ht, hid⟩ := Table.get?_eq_some.mp hget
  exact ⟨⟨he, hpending, t, ht, hid, hs⟩, hserver⟩

theorem fetchPending_sorted (db : Db) (serverId limit : ℕ) :
    (db.fetchPendingByServer serverId limit).Pairwise fun e f => e.id < f.id :=
  (Table.select_sorted db.executions _).sublist (List.take_sublist _ _)

/-- What a turn of the claim loop writes. -/
theorem key_claim (now : Time) (s : OpsTaskExecution) :
    Keyed.key (s.markRunning now) = Keyed.key s := rfl

def claimEdit (now : Time) {t : OpsTask} {e : OpsTaskExecution} (he : e ∈ db.rowsOf t.id)
    (hpending : e.status = .pending) : RowEdit db now t :=
  .one he (.markRunning now) (key_claim now) (.started hpending)

theorem claimExecution_eq {acc : Db × List PendingTask} {e : OpsTaskExecution} {t : OpsTask}
    (ht : t ∈ acc.1.tasks) (hid : t.id = e.taskId) :
    claimExecution now acc e =
      ((acc.1.withExecution e.id (.markRunning now)).withTask t.id
        (fun t => { t with status := .running, startedAt := t.startedAt <|> some now }),
        acc.2 ++ [⟨e.id, t.id, t.action, t.serviceName, t.timeoutSeconds⟩]) := by
  have hget : acc.1.tasks.get? e.taskId = some t := Table.get?_eq_some.mpr ⟨ht, hid⟩
  unfold claimExecution
  rw [hget]

theorem claimExecution_keeps {acc : Db × List PendingTask} {e f : OpsTaskExecution}
    (hlt : e.id < f.id) (he : Claimable e acc.1) (hf : Claimable f acc.1) :
    Claimable f (claimExecution now acc e).1 := by
  obtain ⟨-, -, t, ht, hid, -⟩ := he
  obtain ⟨hf, hpending, t', ht', hid', hs'⟩ := hf
  have hmem : f ∈ (acc.1.withExecution e.id (.markRunning now)).executions :=
    Db.mem_withExecution.mpr ⟨f, hf, if_neg hlt.ne'⟩
  rw [claimExecution_eq ht hid]
  refine ⟨hmem, hpending, ?_⟩
  by_cases h : t'.id = t.id
  · exact ⟨_, Db.mem_withTask.mpr ⟨t', ht', if_pos h⟩, hid', .inr rfl⟩
  · exact ⟨t', Db.mem_withTask.mpr ⟨t', ht', if_neg h⟩, hid', hs'⟩

theorem fetchPending_moves (serverId : ℕ) :
    Moves croniter now (∃ e ∈ db.fetchPendingByServer serverId 10, · = .claim e.taskId) db
      (fetchPending db now serverId).1 := by
  have hloop := loop_foldl (claimExecution now) (db.fetchPendingByServer serverId 10) (db, [])
  refine hloop.reaches (p := Prod.fst) (G := fun e acc => Claimable e acc.1) ?_ ?_
    (fetchPending_sorted db serverId 10) fun e he => (mem_fetchPendingByServer he).1
  · rintro e he acc _ ⟨hmem, hpending, t, ht, hid, hs⟩ rfl
    rw [claimExecution_eq ht hid]
    exact .single ⟨.claim t.id, ⟨e, he, by rw [hid]⟩, .claim ht hs ⟨hmem, hid.symm⟩ hpending⟩
  · rintro e f acc _ hlt he rfl hf
    exact claimExecution_keeps hlt he hf

/-- The items answered so far are rows of the query with the data of their tasks, which the
claims before do not change. -/
structure Offered (db : Db) (serverId : ℕ) (acc : Db × List PendingTask) : Prop where
  tasks : ∀ t ∈ acc.1.tasks, ∃ t₀ ∈ db.tasks, t₀.id = t.id ∧ t₀.action = t.action ∧
    t₀.serviceName = t.serviceName ∧ t₀.timeoutSeconds = t.timeoutSeconds
  items : ∀ item ∈ acc.2, ∃ e ∈ db.fetchPendingByServer serverId 10, ∃ t ∈ db.tasks,
    t.id = e.taskId ∧ item = ⟨e.id, t.id, t.action, t.serviceName, t.timeoutSeconds⟩

theorem Offered.claim {serverId : ℕ} {acc : Db × List PendingTask} {e : OpsTaskExecution}
    (h : Offered db serverId acc) (he : e ∈ db.fetchPendingByServer serverId 10) :
    Offered db serverId (claimExecution now acc e) := by
  unfold claimExecution
  cases hget : acc.1.tasks.get? e.taskId with
  | none => exact h
  | some t =>
    obtain ⟨ht, hid⟩ := Table.get?_eq_some.mp hget
    obtain ⟨t₀, ht₀, hid₀, haction, hname, htimeout⟩ := h.tasks t ht
    constructor
    · intro t' ht'
      obtain ⟨s, hs, rfl⟩ := Db.mem_withTask.mp ht'
      split_ifs <;> exact h.tasks s hs
    · intro item hitem
      rcases List.mem_append.mp hitem with hitem | hitem
      · exact h.items item hitem
      · refine ⟨e, he, t₀, ht₀, hid₀.trans hid, ?_⟩
        rw [List.mem_singleton.mp hitem, hid₀, haction, hname, htimeout]

/-- Every item handed out is a row the query returned, with its task. -/
theorem mem_fetchPending_task {serverId : ℕ} {item : PendingTask}
    (h : item ∈ (fetchPending db now serverId).2) :
    ∃ e ∈ db.fetchPendingByServer serverId 10, ∃ t ∈ db.tasks,
      t.id = e.taskId ∧ item = ⟨e.id, t.id, t.action, t.serviceName, t.timeoutSeconds⟩ := by
  have hloop : ∀ (l : List OpsTaskExecution) (acc : Db × List PendingTask),
      (∀ e ∈ l, e ∈ db.fetchPendingByServer serverId 10) → Offered db serverId acc →
        Offered db serverId (l.foldl (claimExecution now) acc) := by
    intro l
    induction l with
    | nil => exact fun _ _ h => h
    | cons e l ih =>
      intro acc hl hacc
      exact ih _ (fun f hf => hl f (List.mem_cons_of_mem _ hf)) (hacc.claim (hl e List.mem_cons_self))
  have hstart : Offered db serverId (db, []) :=
    ⟨fun t ht => ⟨t, ht, rfl, rfl, rfl, rfl⟩, by simp⟩
  exact (hloop _ _ (fun _ he => he) hstart).items item h

theorem mem_fetchPending {serverId : ℕ} {item : PendingTask}
    (h : item ∈ (fetchPending db now serverId).2) :
    ∃ e ∈ db.fetchPendingByServer serverId 10,
      item.executionId = e.id ∧ item.taskId = e.taskId := by
  obtain ⟨e, he, t, -, hid, rfl⟩ := mem_fetchPending_task h
  exact ⟨e, he, rfl, hid⟩

theorem recordResult_apply (now : Time) {t : OpsTask} {e : OpsTaskExecution} (he : e ∈ db.rowsOf t.id)
    (hopen : e.status.finished = false) (data : TaskResultRequest) :
    ∃ (w : RowEdit db now t) (logs : Table OpsTaskLog),
      recordResult db now t e data = w.apply logs := by
  unfold recordResult
  dsimp only
  split_ifs with hsuccess hretryable hbudget
  · exact ⟨.one he (.finish now .success data.exitCode data.resultText none none) (fun _ => rfl)
      (finish_ended hopen rfl), _, rfl⟩
  · exact ⟨.one he (.markRetrying now _ data.errorMessage _) (fun _ => rfl)
      (.delayed hopen hbudget _ _), _, rfl⟩
  · exact ⟨.one he (.markDead now _ _) (fun _ => rfl)
      (.ended hopen ⟨rfl, rfl, rfl, rfl, rfl⟩ rfl rfl), _, rfl⟩
  · exact ⟨.one he (.finish now .failed data.exitCode none data.errorMessage _) (fun _ => rfl)
      (finish_ended hopen rfl), _, rfl⟩

theorem reportResult_moves {serverId : ℕ} {data : TaskResultRequest}
    (h : reportResult db now serverId data = .ok db') :
    Moves croniter now
      (fun act => ∃ e ∈ db.executions, e.id = data.executionId ∧ e.serverId = serverId ∧
        act = .report e.taskId) db db' := by
  unfold reportResult at h
  cases hget : db.executions.get? data.executionId with
  | none => simp [hget] at h
  | some e =>
    obtain ⟨he, hid⟩ := Table.get?_eq_some.mp hget
    simp only [hget] at h
    split_ifs at h with hserver hfin
    · obtain rfl : db = db' := by simpa using h
      exact .refl
    · obtain ⟨t, hget, hdb⟩ := bind_eq_ok.mp h
      obtain ⟨ht, htid⟩ := getTaskEntity_eq_ok.mp hget
      have hopen := Bool.eq_false_iff.mpr hfin
      obtain ⟨w, logs, hw⟩ := recordResult_apply now ⟨he, htid.symm⟩ hopen data
      obtain rfl := pure_eq_ok.mp hdb
      rw [hw]
      exact moves_one ⟨e, he, hid, not_not.mp hserver, by rw [htid]⟩
        (.report ht ⟨he, htid.symm⟩ hopen w logs)

theorem mem_tasks_aggregate_of_ne {taskId : ℕ} {t : OpsTask} (ht : t ∈ db.tasks)
    (hne : t.id ≠ taskId) : t ∈ (aggregateTaskStatus db now taskId).tasks := by
  rw [aggregateTaskStatus_eq]
  exact Db.mem_withTask.mpr ⟨t, ht, if_neg hne⟩

@[simp] theorem executions_aggregate (taskId : ℕ) :
    (aggregateTaskStatus db now taskId).executions = db.executions := by
  rw [aggregateTaskStatus_eq]
  rfl

theorem running_of_isExpired {e : OpsTaskExecution} {timeoutSeconds : ℕ}
    (h : e.isExpired now timeoutSeconds = true) : e.status = .running := by
  unfold OpsTaskExecution.isExpired at h
  split at h
  · assumption
  · cases h

/-- What the timeout scan writes on the rows of a task. -/
theorem key_timeout (now : Time) (t : OpsTask) (s : OpsTaskExecution) :
    Keyed.key (s.markTimeout now t.timeoutSeconds) = Keyed.key s := rfl

def timeoutEdit (db : Db) (now : Time) (t : OpsTask) : RowEdit db now t :=
  .when (fun r => r.taskId = t.id ∧ r.isExpired now t.timeoutSeconds = true)
    (.markTimeout now t.timeoutSeconds) (key_timeout now t) <| by
      rintro s - ⟨htask, hexpired⟩
      refine ⟨htask, .ended ?_ ⟨rfl, rfl, rfl, rfl, rfl⟩ rfl rfl⟩
      rw [running_of_isExpired hexpired]
      rfl

theorem scanTask_eq (acc : Db × ℕ) (t : OpsTask) :
    let expired := (acc.1.listByTask t.id).filter (·.isExpired now t.timeoutSeconds)
    (scanTask now acc t).1 = if expired = [] then acc.1
      else aggregateTaskStatus ((timeoutEdit acc.1 now t).apply acc.1.logs) now t.id := by
  have hsel : (acc.1.listByTask t.id).filter (·.isExpired now t.timeoutSeconds) =
      acc.1.executions.select fun r => r.taskId = t.id ∧ r.isExpired now t.timeoutSeconds = true := by
    simp only [Db.listByTask, Table.select, List.filter_filter, Bool.decide_and,
      Bool.decide_eq_true, Bool.and_comm]
  have hloop := foldl_withExecution acc.1
    (fun r => r.taskId = t.id ∧ r.isExpired now t.timeoutSeconds = true)
    (.markTimeout now t.timeoutSeconds) fun _ => rfl
  rw [← hsel] at hloop
  simp only [decide_eq_true_eq] at hloop
  unfold scanTask
  dsimp only
  split_ifs with hempty
  · rw [hempty]
    rfl
  · rw [hloop]
    rfl

theorem scanTimeouts_moves :
    Moves croniter now (∃ taskId, · = .expire taskId) db (scanTimeouts db now).1 := by
  have hloop := loop_foldl (scanTask now) (db.tasks.select fun t => t.status = .running) (db, 0)
  refine hloop.reaches (p := Prod.fst) (G := fun t acc => t ∈ acc.1.tasks)
    (D := fun t t' => t.id < t'.id) ?_ ?_ (Table.select_sorted db.tasks _)
    fun t ht => (Table.mem_select.mp ht).1
  · rintro t - acc _ ht rfl
    rw [scanTask_eq]
    split_ifs with hempty
    · exact .refl
    · obtain ⟨e, he⟩ := List.exists_mem_of_ne_nil _ hempty
      obtain ⟨he, hexpired⟩ := List.mem_filter.mp he
      exact moves_one ⟨t.id, rfl⟩ (.expire ht (Db.mem_listByTask.mp he)
        (.inl (running_of_isExpired hexpired)) (timeoutEdit acc.1 now t) acc.1.logs)
  · rintro t t' acc _ hlt ht rfl ht'
    rw [scanTask_eq]
    split_ifs
    · exact ht'
    · exact mem_tasks_aggregate_of_ne ht' hlt.ne'

/-! ## Retries -/

theorem createExecution_eq_ok {taskId targetId serverId attempt : ℕ} :
    db.createExecution taskId targetId serverId attempt = .ok db' ↔
      (¬ ∃ e ∈ db.executions, e.taskId = taskId ∧ e.targetId = targetId ∧ e.attempt = attempt) ∧
      db' = { db with executions := db.executions.insert (.initial taskId targetId serverId attempt) } := by
  unfold Db.createExecution
  split_ifs with h
  · exact ⟨nofun, fun hno => absurd h hno.1⟩
  · exact ⟨fun hok => ⟨h, (Except.ok.inj hok).symm⟩, fun hdb => congrArg _ hdb.2.symm⟩

/-- The row is waiting for its retry, whose time has come. -/
def DueRetry (now : Time) (e : OpsTaskExecution) (db : Db) : Prop :=
  e ∈ db.executions ∧ e.status = .retrying ∧ ∃ r ∈ e.nextRetryAt, r ≤ now

theorem mem_listDueRetries {limit : ℕ} {e : OpsTaskExecution}
    (h : e ∈ db.listDueRetries now limit) : DueRetry now e db := by
  have hsel := Table.mem_select.mp ((List.mem_insertionSort _).mp (List.mem_of_mem_take h))
  exact ⟨hsel.1, of_decide_eq_true hsel.2⟩

theorem listDueRetries_distinct (db : Db) (now : Time) (limit : ℕ) :
    (db.listDueRetries now limit).Pairwise fun e f => e.id ≠ f.id := by
  have hsorted := Table.select_sorted db.executions
    fun e => e.status = .retrying ∧ ∃ r ∈ e.nextRetryAt, r ≤ now
  exact (((List.perm_insertionSort _ _).symm.pairwise (hsorted.imp fun hlt => hlt.ne)
    fun hne => hne.symm).sublist (List.take_sublist _ _))

/-- What the dispatch writes on the row whose attempt ended. -/
theorem key_archive (now : Time) (e s : OpsTaskExecution) :
    Keyed.key (s.finish now .failed none none e.errorMessage e.errorType) = Keyed.key s := rfl

def archiveEdit (now : Time) {t : OpsTask} {e : OpsTaskExecution} (he : e ∈ db.rowsOf t.id)
    (hretrying : e.status = .retrying) : RowEdit db now t :=
  .one he (.finish now .failed none none e.errorMessage e.errorType) (key_archive now e)
    (finish_ended (by rw [hretrying]; rfl) rfl)

theorem archiveEdit_failed {t : OpsTask} {e : OpsTaskExecution} (he : e ∈ db.rowsOf t.id)
    (hretrying : e.status = .retrying) :
    ((archiveEdit now he hretrying).edit e).status = .failed := by
  rw [show (archiveEdit now he hretrying).edit e = _ from if_pos rfl]
  rfl

/-- What the dispatch writes on a row that has no attempt left. -/
theorem key_dead (now : Time) (e s : OpsTaskExecution) :
    Keyed.key (s.markDead now (orText e.errorType Retry.unknownErrorType)
      (some (orText e.errorMessage "重试预算耗尽"))) = Keyed.key s := rfl

def deadEdit (now : Time) {t : OpsTask} {e : OpsTaskExecution} (he : e ∈ db.rowsOf t.id)
    (hretrying : e.status = .retrying) : RowEdit db now t :=
  .one he (.markDead now (orText e.errorType Retry.unknownErrorType)
      (some (orText e.errorMessage "重试预算耗尽"))) (key_dead now e)
    (.ended (by rw [hretrying]; rfl) ⟨rfl, rfl, rfl, rfl, rfl⟩ rfl rfl)

/-- The three ways a turn of the dispatch ends, for the task of the row. -/
theorem dispatchExecution_cases {n n' : ℕ} {e : OpsTaskExecution} (he : DueRetry now e db)
    (h : dispatchExecution now (db, n) e = .ok (db', n')) :
    ∃ t ∈ db.tasks, ∃ hrow : e ∈ db.rowsOf t.id,
      (t.status.finished = true ∧ db' = (archiveEdit now hrow he.2.1).apply db.logs) ∨
      (t.status.finished = false ∧ canRetry t e now = false ∧ ∃ logs,
        db' = aggregateTaskStatus ((deadEdit now hrow he.2.1).apply logs) now t.id) ∨
      (t.status.finished = false ∧ canRetry t e now = true ∧ ∃ logs,
        db' = aggregateTaskStatus ((((archiveEdit now hrow he.2.1).applyNext logs e).withTask t.id
          fun t => { t with attempt := e.attempt + 1 }).resetTarget e.targetId) now t.id) := by
  obtain ⟨t, hget, hdb⟩ := bind_eq_ok.mp h
  obtain ⟨ht, hid⟩ := getTaskEntity_eq_ok.mp hget
  refine ⟨t, ht, ⟨he.1, hid.symm⟩, ?_⟩
  dsimp only at hdb
  split_ifs at hdb with hfin hbudget
  · obtain rfl := (Prod.ext_iff.mp (pure_eq_ok.mp hdb)).1
    exact .inl ⟨hfin, rfl⟩
  · obtain rfl := (Prod.ext_iff.mp (pure_eq_ok.mp hdb)).1
    exact .inr (.inl ⟨Bool.eq_false_iff.mpr hfin, hbudget, _, rfl⟩)
  · obtain ⟨d, hcreate, hdb⟩ := bind_eq_ok.mp hdb
    rw [hid] at hcreate
    obtain ⟨-, rfl⟩ := createExecution_eq_ok.mp hcreate
    obtain rfl := (Prod.ext_iff.mp (pure_eq_ok.mp hdb)).1
    exact .inr (.inr ⟨Bool.eq_false_iff.mpr hfin, Bool.of_not_eq_false hbudget,
      (db.record e.id ("已创建第 " ++ toString (e.attempt + 1) ++ " 次尝试") "INFO").logs, rfl⟩)

theorem dispatchExecution_move {n n' : ℕ} {e : OpsTaskExecution} (he : DueRetry now e db)
    (h : dispatchExecution now (db, n) e = .ok (db', n')) :
    (∃ act, (act = .archive e.taskId ∨ act = .expire e.taskId ∨ act = .retry e.taskId) ∧
      Move croniter now db act db') ∧
    ∀ f ∈ db.executions, f.id ≠ e.id → f ∈ db'.executions := by
  obtain ⟨t, ht, hrow, hcases⟩ := dispatchExecution_cases he h
  rw [hrow.2]
  rcases hcases with ⟨hfin, rfl⟩ | ⟨-, -, logs, rfl⟩ | ⟨hopen, hbudget, logs, rfl⟩
  · refine ⟨⟨_, .inl rfl, .archive ht hfin hrow he.2.1 (archiveEdit now hrow he.2.1)⟩, ?_⟩
    exact fun f hf hne => List.mem_map.mpr ⟨f, hf, if_neg hne⟩
  · refine ⟨⟨_, .inr (.inl rfl), .expire ht hrow (.inr he.2.1) (deadEdit now hrow he.2.1) logs⟩, ?_⟩
    intro f hf hne
    rw [executions_aggregate]
    exact List.mem_map.mpr ⟨f, hf, if_neg hne⟩
  · refine ⟨⟨_, .inr (.inr rfl), .retry ht hopen hrow he.2.1 he.2.2 hbudget
      (archiveEdit now hrow he.2.1) (archiveEdit_failed hrow he.2.1)
      (fun s hs hne => RowEdit.one_edit_ne hs hne) logs⟩, ?_⟩
    intro f hf hne
    rw [executions_aggregate]
    exact Table.mem_insert.mpr (.inl (List.mem_map.mpr ⟨f, hf, if_neg hne⟩))

theorem dispatchExecution_keeps {n n' : ℕ} {e f : OpsTaskExecution} (hne : e.id ≠ f.id)
    (he : DueRetry now e db) (h : dispatchExecution now (db, n) e = .ok (db', n'))
    (hf : DueRetry now f db) : DueRetry now f db' := by
  obtain ⟨-, hkeep⟩ := @dispatchExecution_move (fun _ _ => none) _ _ _ _ _ _ he h
  exact ⟨hkeep f hf.1 hne.symm, hf.2⟩

theorem dispatchLoop_moves {l : List OpsTaskExecution} {acc acc' : Db × ℕ}
    (hloop : Loop (fun e s s' => dispatchExecution now s e = .ok s') l acc acc')
    (hl : l.Pairwise fun e f => e.id ≠ f.id) (hdue : ∀ e ∈ l, DueRetry now e acc.1) :
    Moves croniter now (fun act => ∃ e ∈ l,
      act = .archive e.taskId ∨ act = .expire e.taskId ∨ act = .retry e.taskId) acc.1 acc'.1 := by
  refine hloop.reaches (p := Prod.fst) (G := fun e acc => DueRetry now e acc.1)
    (D := fun e f => e.id ≠ f.id) ?_ (fun e f s s' => dispatchExecution_keeps) hl hdue
  rintro e hmem ⟨d, n⟩ ⟨d', n'⟩ he hturn
  obtain ⟨⟨act, hact, hmove⟩, -⟩ := dispatchExecution_move he hturn
  exact moves_one ⟨e, hmem, hact⟩ hmove

theorem dispatchRetries_moves {limit n : ℕ} (h : dispatchRetries db now limit = .ok (db', n)) :
    Moves croniter now (fun act => ∃ e ∈ db.listDueRetries now limit,
      act = .archive e.taskId ∨ act = .expire e.taskId ∨ act = .retry e.taskId) db db' :=
  dispatchLoop_moves (loop_foldlM h) (listDueRetries_distinct db now limit)
    fun _ he => mem_listDueRetries he

/-! ## First attempts -/

theorem createExecutions_eq {taskId : ℕ} {targets : List OpsTaskTarget}
    (h : db.createExecutions taskId targets = .ok db') :
    db' = { db with executions := db.executions.insertAll (firstAttempts taskId targets) } := by
  unfold Db.createExecutions at h
  induction targets generalizing db with
  | nil => exact (pure_eq_ok.mp h).symm
  | cons g targets ih =>
    rw [List.foldlM_cons] at h
    obtain ⟨d, hcreate, h⟩ := bind_eq_ok.mp h
    obtain ⟨-, rfl⟩ := createExecution_eq_ok.mp hcreate
    exact ih h

/-- A task without executions can get one for each of its targets. -/
theorem createExecutions_isOk {taskId : ℕ} {targets : List OpsTaskTarget}
    (hids : (targets.map (·.id)).Nodup)
    (hfree : ∀ g ∈ targets, ∀ e ∈ db.executions, e.taskId = taskId → e.targetId ≠ g.id) :
    ∃ db', db.createExecutions taskId targets = .ok db' := by
  unfold Db.createExecutions
  induction targets generalizing db with
  | nil => exact ⟨db, rfl⟩
  | cons g targets ih =>
    obtain ⟨hg, hids⟩ := List.nodup_cons.mp hids
    have hcreate : db.createExecution taskId g.id g.serverId 1 = .ok { db with
        executions := db.executions.insert (.initial taskId g.id g.serverId 1) } := by
      refine createExecution_eq_ok.mpr ⟨?_, rfl⟩
      rintro ⟨e, he, htask, htarget, -⟩
      exact hfree g List.mem_cons_self e he htask htarget
    rw [List.foldlM_cons, hcreate]
    refine ih hids fun g' hg' e he htask => ?_
    rcases Table.mem_insert.mp he with he | rfl
    · exact hfree g' (List.mem_cons_of_mem _ hg') e he htask
    · rintro (heq : g.id = g'.id)
      exact hg (List.mem_map.mpr ⟨g', hg', heq.symm⟩)

/-- The tables after `create_task`, when it makes a new task. -/
def Created (db : Db) (now : Time) (data : TaskCreate) (creatorId : ℕ) (key : Option String)
    (db' : Db) (t : OpsTask) : Prop :=
  ∃ (action : Action) (serverIds : List ℕ), serverIds ≠ [] ∧
    t = { newTask now data action creatorId key with id := db.tasks.next } ∧
    db' = { db with
      tasks := db.tasks.insert (newTask now data action creatorId key)
      targets := db.targets.insertAll (serverIds.map fun sid => ⟨0, t.id, sid, .pending⟩)
      executions := if data.scheduleType = "ONCE" then
          db.executions.insertAll (firstAttempts t.id (Table.keyed db.targets.next
            (serverIds.map fun sid => ⟨0, t.id, sid, .pending⟩)))
        else db.executions }

theorem validateServers_ids {serverIds : List ℕ} {servers : List OpsServer}
    (h : validateServers db serverIds = .ok servers) : servers.map (·.id) = serverIds.dedup := by
  unfold validateServers at h
  generalize serverIds.dedup = ids at h ⊢
  induction ids generalizing servers with
  | nil =>
    obtain rfl := pure_eq_ok.mp h
    rfl
  | cons sid ids ih =>
    rw [List.mapM_cons] at h
    obtain ⟨server, hserver, h⟩ := bind_eq_ok.mp h
    obtain ⟨rest, hrest, h⟩ := bind_eq_ok.mp h
    obtain rfl := pure_eq_ok.mp h
    have hid : server.id = sid := by
      unfold getServer at hserver
      cases hget : db.servers.get? sid with
      | none => simp [hget] at hserver
      | some s =>
        obtain ⟨-, hkey⟩ := Table.get?_eq_some.mp hget
        rw [hget] at hserver
        dsimp only at hserver
        split_ifs at hserver
        obtain rfl := Except.ok.inj hserver
        exact hkey
    rw [List.map_cons, ih hrest, hid]

/-- `create_task` inserts a target, and for a one-time task an execution, for each distinct
server of the request. -/
theorem insertTask_eq {data : TaskCreate} {creatorId : ℕ} {key : Option String} {t : OpsTask}
    (h : insertTask db now data creatorId key = .ok (db', t)) :
    ∃ action, t = { newTask now data action creatorId key with id := db.tasks.next } ∧
      db' = { db with
        tasks := db.tasks.insert (newTask now data action creatorId key)
        targets := db.targets.insertAll
          (data.serverIds.dedup.map fun sid => ⟨0, t.id, sid, .pending⟩)
        executions := if data.scheduleType = "ONCE" then
            db.executions.insertAll (firstAttempts t.id (Table.keyed db.targets.next
              (data.serverIds.dedup.map fun sid => ⟨0, t.id, sid, .pending⟩)))
          else db.executions } := by
  obtain ⟨action, -, h⟩ := bind_eq_ok.mp h
  obtain ⟨servers, hservers, h⟩ := bind_eq_ok.mp h
  obtain ⟨-, -, h⟩ := bind_eq_ok.mp h
  obtain ⟨⟨d, t'⟩, hrow, h⟩ := bind_eq_ok.mp h
  unfold Db.createTaskRow at hrow
  split_ifs at hrow
  obtain ⟨rfl, rfl⟩ := Prod.ext_iff.mp (Except.ok.inj hrow)
  have hids : (servers.map (·.id)).dedup = data.serverIds.dedup := by
    rw [validateServers_ids hservers, List.dedup_idem]
  dsimp only at h
  unfold Db.createTargets at h
  rw [hids] at h
  split_ifs at h with honce
  · obtain ⟨d', hexec, h⟩ := bind_eq_ok.mp h
    obtain ⟨rfl, rfl⟩ := Prod.ext_iff.mp (pure_eq_ok.mp h)
    refine ⟨action, rfl, ?_⟩
    rw [if_pos honce]
    exact createExecutions_eq hexec
  · obtain ⟨rfl, rfl⟩ := Prod.ext_iff.mp (pure_eq_ok.mp h)
    refine ⟨action, rfl, ?_⟩
    rw [if_neg honce]

theorem insertTask_created {data : TaskCreate} {creatorId : ℕ} {key : Option String} {t : OpsTask}
    (h : insertTask db now data creatorId key = .ok (db', t)) :
    Created db now data creatorId key db' t := by
  obtain ⟨action, ht, hdb⟩ := insertTask_eq h
  have hne : data.serverIds.dedup ≠ [] := by
    rw [Ne, List.dedup_eq_nil, ← List.length_eq_zero_iff]
    exact Nat.one_le_iff_ne_zero.mp data.serverIds_length
  exact ⟨action, data.serverIds.dedup, hne, ht, hdb⟩

/-- One turn of the CRON scan either leaves the tables or is the move of its task. -/
theorem fireTask_move {n n' : ℕ} {t : OpsTask} (ht : t ∈ db.tasks)
    (hs : t.status = .pending ∨ t.status = .created)
    (h : fireTask croniter now (db, n) t = .ok (db', n')) :
    db' = db ∨ (∃ next, Fireable croniter t next ∧ next ≤ now) ∧
      Move croniter now db (.fire t.id) db' := by
  unfold fireTask at h
  dsimp only at h
  split_ifs at h with hcron
  · exact .inl (Prod.ext_iff.mp (pure_eq_ok.mp h)).1.symm
  · split at h
    · exact .inl (Prod.ext_iff.mp (pure_eq_ok.mp h)).1.symm
    · exact .inl (Prod.ext_iff.mp (pure_eq_ok.mp h)).1.symm
    · rename_i expression hne hexpr
      split at h
      · exact .inl (Prod.ext_iff.mp (pure_eq_ok.mp h)).1.symm
      · rename_i next hnext
        split_ifs at h with hdue
        · obtain ⟨d, hcreate, h⟩ := bind_eq_ok.mp h
          obtain rfl := createExecutions_eq hcreate
          obtain rfl := (Prod.ext_iff.mp (pure_eq_ok.mp h)).1
          have hfire : Fireable croniter t next :=
            ⟨not_not.mp hcron, expression, hexpr, hne, hnext⟩
          exact .inr ⟨⟨next, hfire, hdue⟩, .fire ht hs hfire hdue⟩
        · exact .inl (Prod.ext_iff.mp (pure_eq_ok.mp h)).1.symm

theorem mem_listPendingCron {t : OpsTask} : t ∈ db.listPendingCron ↔
    t ∈ db.tasks ∧ t.scheduleType = "CRON" ∧ (t.status = .pending ∨ t.status = .created) := by
  simp [Db.listPendingCron]

theorem Move.fire_keeps {t t' : OpsTask} (h : Move croniter now db (.fire t.id) db')
    (ht' : t' ∈ db.tasks) (hne : t'.id ≠ t.id) : t' ∈ db'.tasks := by
  generalize hact : Act.fire t.id = act at h
  cases h with
  | fire ht =>
    obtain hid := Act.fire.inj hact
    exact Db.mem_withTask.mpr ⟨t', ht', if_neg (hid ▸ hne)⟩
  | _ => cases hact

/-- The task waits for its schedule. -/
def Scheduled (t : OpsTask) (db : Db) : Prop :=
  t ∈ db.tasks ∧ (t.status = .pending ∨ t.status = .created)

theorem fireTask_keeps {n n' : ℕ} {t t' : OpsTask} (hlt : t.id < t'.id) (ht : Scheduled t db)
    (h : fireTask croniter now (db, n) t = .ok (db', n')) (ht' : Scheduled t' db) :
    Scheduled t' db' := by
  rcases fireTask_move ht.1 ht.2 h with rfl | ⟨-, hmove⟩
  · exact ht'
  · exact ⟨hmove.fire_keeps ht'.1 hlt.ne', ht'.2⟩

theorem fireLoop_moves {l : List OpsTask} {acc acc' : Db × ℕ}
    (hloop : Loop (fun t s s' => fireTask croniter now s t = .ok s') l acc acc')
    (hl : l.Pairwise fun t t' => t.id < t'.id) (hs : ∀ t ∈ l, Scheduled t acc.1) :
    Moves croniter now (fun act => ∃ t ∈ l,
      (∃ next, Fireable croniter t next ∧ next ≤ now) ∧ act = .fire t.id) acc.1 acc'.1 := by
  refine hloop.reaches (p := Prod.fst) (G := fun t acc => Scheduled t acc.1)
    (D := fun t t' => t.id < t'.id) ?_ (fun t t' s s' => fireTask_keeps) hl hs
  rintro t hmem ⟨d, n⟩ ⟨d', n'⟩ ⟨ht, hs⟩ hturn
  rcases fireTask_move ht hs hturn with rfl | ⟨hfire, hmove⟩
  · exact .refl
  · exact moves_one ⟨t, hmem, hfire, rfl⟩ hmove

theorem scheduled_of_listPendingCron {t : OpsTask} (ht : t ∈ db.listPendingCron) :
    Scheduled t db :=
  ⟨(mem_listPendingCron.mp ht).1, (mem_listPendingCron.mp ht).2.2⟩

theorem fireDueCron_moves {n : ℕ} (h : fireDueCron croniter db now = .ok (db', n)) :
    Moves croniter now (fun act => ∃ t ∈ db.listPendingCron,
      (∃ next, Fireable croniter t next ∧ next ≤ now) ∧ act = .fire t.id) db db' :=
  fireLoop_moves (loop_foldlM h) (Table.select_sorted db.tasks _)
    fun _ => scheduled_of_listPendingCron

/-! ## All calls -/

/-- The kinds of move that a call may make. -/
def Call.allows (croniter : CronIter) (db : Db) (now : Time) (reply : Reply) : Call → Act → Prop
  | .createTask .., act => ∃ t, reply = .task t ∧ act = .insert t
  | .confirmTask taskId _, act => act = .confirm taskId
  | .cancelTask taskId, act => act = .cancel taskId
  | .fetchPending serverId, act =>
    ∃ e ∈ db.fetchPendingByServer serverId 10, act = .claim e.taskId
  | .reportResult serverId data, act => ∃ e ∈ db.executions,
    e.id = data.executionId ∧ e.serverId = serverId ∧ act = .report e.taskId
  | .scanTimeouts, act => ∃ taskId, act = .expire taskId
  | .dispatchRetries limit, act => ∃ e ∈ db.listDueRetries now limit,
    act = .archive e.taskId ∨ act = .expire e.taskId ∨ act = .retry e.taskId
  | .fireDueCron, act => ∃ t ∈ db.listPendingCron,
    (∃ next, Fireable croniter t next ∧ next ≤ now) ∧ act = .fire t.id
  | .cleanupHistory _, act => act = .purge

theorem perform_moves {call : Call} {reply : Reply}
    (h : perform croniter db now call = .ok (db', reply)) :
    Moves croniter now (call.allows croniter db now reply) db db' := by
  cases call with
  | createTask data creatorId key =>
    obtain ⟨⟨d, t⟩, hcreate, h⟩ := bind_eq_ok.mp h
    obtain ⟨rfl, rfl⟩ := Prod.ext_iff.mp (pure_eq_ok.mp h)
    unfold createTask at hcreate
    split at hcreate
    · obtain rfl := (Prod.ext_iff.mp (Except.ok.inj hcreate)).1
      exact .refl
    · exact moves_one ⟨t, rfl, rfl⟩ (.insert hcreate)
  | confirmTask taskId operatorId =>
    obtain ⟨d, hconfirm, h⟩ := bind_eq_ok.mp h
    obtain ⟨rfl, -⟩ := Prod.ext_iff.mp (pure_eq_ok.mp h)
    exact confirmTask_moves hconfirm
  | cancelTask taskId =>
    obtain ⟨d, hcancel, h⟩ := bind_eq_ok.mp h
    obtain ⟨rfl, -⟩ := Prod.ext_iff.mp (pure_eq_ok.mp h)
    exact cancelTask_moves hcancel
  | fetchPending serverId =>
    obtain ⟨rfl, -⟩ := Prod.ext_iff.mp (pure_eq_ok.mp h)
    exact fetchPending_moves serverId
  | reportResult serverId data =>
    obtain ⟨d, hreport, h⟩ := bind_eq_ok.mp h
    obtain ⟨rfl, -⟩ := Prod.ext_iff.mp (pure_eq_ok.mp h)
    exact reportResult_moves hreport
  | scanTimeouts =>
    obtain ⟨rfl, -⟩ := Prod.ext_iff.mp (pure_eq_ok.mp h)
    exact scanTimeouts_moves
  | dispatchRetries limit =>
    obtain ⟨⟨d, n⟩, hdispatch, h⟩ := bind_eq_ok.mp h
    obtain ⟨rfl, -⟩ := Prod.ext_iff.mp (pure_eq_ok.mp h)
    exact dispatchRetries_moves hdispatch
  | fireDueCron =>
    obtain ⟨⟨d, n⟩, hfire, h⟩ := bind_eq_ok.mp h
    obtain ⟨rfl, -⟩ := Prod.ext_iff.mp (pure_eq_ok.mp h)
    exact fireDueCron_moves hfire
  | cleanupHistory retentionDays =>
    obtain ⟨rfl, -⟩ := Prod.ext_iff.mp (pure_eq_ok.mp h)
    exact moves_one rfl (.purge _)

end OpsMonitor.Task
