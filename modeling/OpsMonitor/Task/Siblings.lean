import OpsMonitor.Task.AttemptChains

/-! What a poll and a timeout scan pass over. Both select rows through the status of the
task, and a task shows `RETRYING` as long as one of its targets waits for a retry, whatever
its other targets are doing. -/

namespace OpsMonitor.Task
open Library

variable {croniter : CronIter} {now : Time} {kept : Prop} {db : Db} {serverId : ℕ}

/-- Some execution of the task waits for its retry. -/
def Waiting (db : Db) (taskId : ℕ) : Prop := ∃ f ∈ db.rowsOf taskId, f.status = .retrying

theorem StatusOk.retrying_iff {rows : Set OpsTaskExecution} {t : OpsTask}
    (h : StatusOk kept rows t) : t.status = .retrying ↔ ∃ f ∈ rows, f.status = .retrying := by
  constructor
  · intro hs
    cases h with
    | waiting hw => rcases hw with hw | hw <;> simp [hs] at hw
    | running hr => simp [hs] at hr
    | retrying _ hrow => exact hrow
    | closed hc => simp [hs, TaskStatus.finished] at hc
  · rintro ⟨f, hf, hretrying⟩
    cases h with
    | waiting _ hrows =>
      have hpending := (hrows f hf).1
      rw [hretrying] at hpending
      cases hpending
    | running _ _ hrows => exact absurd hretrying (hrows f hf)
    | retrying hs => exact hs
    | closed _ hrows =>
      have hfin := hrows f hf
      rw [hretrying] at hfin
      cases hfin

/-! ## The poll -/

/-- The executions a poll is meant to hand out: the ten lowest ids among the pending rows of
the server whose task is released and not finished. -/
def due (db : Db) (serverId : ℕ) : List OpsTaskExecution :=
  (db.executions.select fun e => e.serverId = serverId ∧ e.status = .pending ∧
    ∃ t ∈ db.tasks.get? e.taskId, t.status ≠ .created ∧ t.status.finished = false).take 10

/-- A poll hands out what is due, in the order of the ids; the rows it hands out are running
from now on, and all other rows stay as they are. -/
structure PollComplete (now : Time) (db : Db) (serverId : ℕ) : Prop where
  handed : (fetchPending db now serverId).2.map (·.executionId) = (due db serverId).map (·.id)
  sorted : ((fetchPending db now serverId).2.map (·.executionId)).Pairwise (· < ·)
  running : ∀ item ∈ (fetchPending db now serverId).2,
    ∃ r ∈ (fetchPending db now serverId).1.executions, r.id = item.executionId ∧
      r.status = .running ∧ r.startedAt = some now
  others : ∀ r, (∀ item ∈ (fetchPending db now serverId).2, item.executionId ≠ r.id) →
    (r ∈ (fetchPending db now serverId).1.executions ↔ r ∈ db.executions)

/-- The claim loop marks its rows one by one and answers them in order. -/
theorem claims_eq (l : List OpsTaskExecution) (acc : Db × List PendingTask)
    (hl : ∀ e ∈ l, ∃ t ∈ acc.1.tasks, t.id = e.taskId) :
    (l.foldl (claimExecution now) acc).1.executions =
        l.foldl (fun t e => t.modify (Keyed.key e) (.markRunning now)) acc.1.executions ∧
      (l.foldl (claimExecution now) acc).2.map (·.executionId) =
        acc.2.map (·.executionId) ++ l.map (·.id) := by
  induction l generalizing acc with
  | nil => simp
  | cons e l ih =>
    obtain ⟨t, ht, hid⟩ := hl e List.mem_cons_self
    have hstep : claimExecution now acc e = _ := claimExecution_eq ht hid
    have htasks : ∀ f ∈ l, ∃ t ∈ (claimExecution now acc e).1.tasks, t.id = f.taskId := by
      intro f hf
      obtain ⟨s, hs, hsid⟩ := hl f (List.mem_cons_of_mem _ hf)
      rw [hstep]
      refine ⟨_, Db.mem_withTask.mpr ⟨s, hs, rfl⟩, ?_⟩
      split_ifs <;> exact hsid
    obtain ⟨hrows, hitems⟩ := ih _ htasks
    rw [List.foldl_cons, hrows, hitems, hstep]
    constructor
    · rfl
    · simp

theorem nodup_fetchPendingByServer (db : Db) (serverId limit : ℕ) :
    ((db.fetchPendingByServer serverId limit).map Keyed.key).Nodup :=
  List.pairwise_map.mpr ((fetchPending_sorted db serverId limit).imp fun hlt => hlt.ne)

/-- What a poll answers and writes, in terms of its query. -/
theorem fetchPending_spec (db : Db) (now : Time) (serverId : ℕ) :
    (fetchPending db now serverId).1.executions =
        db.executions.update (fun r => if Keyed.key r ∈
            (db.fetchPendingByServer serverId 10).map Keyed.key then r.markRunning now else r)
          (fun r => by split_ifs <;> rfl) ∧
      (fetchPending db now serverId).2.map (·.executionId) =
        (db.fetchPendingByServer serverId 10).map (·.id) := by
  have htasks : ∀ e ∈ db.fetchPendingByServer serverId 10, ∃ t ∈ db.tasks, t.id = e.taskId := by
    intro e he
    obtain ⟨⟨-, -, t, ht, hid, -⟩, -⟩ := mem_fetchPendingByServer he
    exact ⟨t, ht, hid⟩
  obtain ⟨hrows, hitems⟩ :
      ((db.fetchPendingByServer serverId 10).foldl (claimExecution now) (db, [])).1.executions = _ ∧
        _ := claims_eq _ (db, []) htasks
  have hnodup := nodup_fetchPendingByServer db serverId 10
  exact ⟨hrows.trans (Table.foldl_modify hnodup), hitems⟩

/-- Of two queries of which one asks for more, the first rows agree when the larger one
finds only rows of the smaller. -/
theorem take_filter_eq_iff {α : Type*} {p q : α → Bool} (hpq : ∀ a, p a = true → q a = true)
    (l : List α) (n : ℕ) :
    (l.filter p).take n = (l.filter q).take n ↔ ∀ a ∈ (l.filter q).take n, p a = true := by
  induction l generalizing n with
  | nil => simp
  | cons a l ih =>
    cases n with
    | zero => simp
    | succ n =>
      by_cases hq : q a = true
      · by_cases hp : p a = true
        · simp [hp, hq, ih]
        · rw [List.filter_cons_of_neg hp, List.filter_cons_of_pos hq, List.take_succ_cons]
          constructor
          · intro heq
            have hmem : a ∈ (l.filter p).take (n + 1) := by
              rw [heq]
              exact List.mem_cons_self
            exact absurd (List.mem_filter.mp (List.mem_of_mem_take hmem)).2 hp
          · exact fun hall => absurd (hall a List.mem_cons_self) hp
      · have hp : ¬ p a = true := fun h => hq (hpq a h)
        rw [List.filter_cons_of_neg hp, List.filter_cons_of_neg hq]
        exact ih (n + 1)

theorem claimable_due {db : Db} {serverId : ℕ} {e : OpsTaskExecution}
    (h : (decide (e.serverId = serverId ∧ e.status = .pending ∧
      ∃ t ∈ db.tasks.get? e.taskId, t.status = .pending ∨ t.status = .running)) = true) :
    (decide (e.serverId = serverId ∧ e.status = .pending ∧
      ∃ t ∈ db.tasks.get? e.taskId, t.status ≠ .created ∧ t.status.finished = false)) = true := by
  obtain ⟨hserver, hpending, t, ht, hs⟩ := of_decide_eq_true h
  refine decide_eq_true ⟨hserver, hpending, t, ht, ?_⟩
  rcases hs with hs | hs <;> simp [hs, TaskStatus.finished]

theorem mem_due {e : OpsTaskExecution} (h : e ∈ due db serverId) :
    e ∈ db.executions ∧ e.serverId = serverId ∧ e.status = .pending ∧
      ∃ t ∈ db.tasks, t.id = e.taskId ∧ t.status ≠ .created ∧ t.status.finished = false := by
  have hsel := Table.mem_select.mp (List.mem_of_mem_take h)
  simp only [decide_eq_true_eq, Option.mem_def] at hsel
  obtain ⟨he, hserver, hpending, t, hget, hs⟩ := hsel
  obtain ⟨ht, hid⟩ := Table.get?_eq_some.mp hget
  exact ⟨he, hserver, hpending, t, ht, hid, hs⟩

/-- The query finds everything due as long as no task of a due row waits for a retry. -/
theorem Inv.fetchPendingByServer_eq_due_iff (h : Inv kept db) :
    db.fetchPendingByServer serverId 10 = due db serverId ↔
      ∀ e ∈ due db serverId, ¬ Waiting db e.taskId := by
  have hclaimable : ∀ e ∈ due db serverId, ((decide (e.serverId = serverId ∧ e.status = .pending ∧
      ∃ t ∈ db.tasks.get? e.taskId, t.status = .pending ∨ t.status = .running)) = true ↔
        ¬ Waiting db e.taskId) := by
    intro e he
    obtain ⟨-, hserver, hpending, t, ht, hid, hcreated, hopen⟩ := mem_due he
    have hget : db.tasks.get? e.taskId = some t := Table.get?_eq_some.mpr ⟨ht, hid⟩
    have hretrying := (h.status t ht).retrying_iff
    rw [hid] at hretrying
    rw [Waiting, ← hretrying]
    simp only [hserver, hpending, hget, Option.mem_def, Option.some.injEq, exists_eq_left',
      true_and, decide_eq_true_eq]
    cases hs : t.status <;> simp_all [TaskStatus.finished]
  rw [Db.fetchPendingByServer, due, Table.select, Table.select,
    take_filter_eq_iff fun _ => claimable_due]
  exact forall₂_congr hclaimable

/-- Rows of a table are known by their keys. -/
theorem filterMap_get?_keys {α : Type*} [Keyed α] {t : Table α} {l : List α} (hl : ∀ r ∈ l, r ∈ t) :
    (l.map Keyed.key).filterMap t.get? = l := by
  induction l with
  | nil => rfl
  | cons r l ih =>
    rw [List.map_cons, List.filterMap_cons_some (Table.get?_key (hl r List.mem_cons_self)),
      ih fun s hs => hl s (List.mem_cons_of_mem _ hs)]

theorem Inv.pollComplete_iff (h : Inv kept db) :
    PollComplete now db serverId ↔ ∀ e ∈ due db serverId, ¬ Waiting db e.taskId := by
  obtain ⟨hrows, hitems⟩ := fetchPending_spec db now serverId
  have hmem : ∀ e ∈ db.fetchPendingByServer serverId 10, e ∈ db.executions :=
    fun e he => (mem_fetchPendingByServer he).1.1
  rw [← h.fetchPendingByServer_eq_due_iff]
  constructor
  · rintro ⟨hhanded, -, -, -⟩
    rw [hitems] at hhanded
    calc db.fetchPendingByServer serverId 10
        = ((db.fetchPendingByServer serverId 10).map Keyed.key).filterMap db.executions.get? :=
          (filterMap_get?_keys hmem).symm
      _ = ((due db serverId).map Keyed.key).filterMap db.executions.get? :=
          congrArg (List.filterMap _) hhanded
      _ = due db serverId := filterMap_get?_keys fun e he => (mem_due he).1
  · intro heq
    refine ⟨by rw [hitems, heq], ?_, ?_, ?_⟩
    · rw [hitems]
      exact List.pairwise_map.mpr (fetchPending_sorted db serverId 10)
    · intro item hitem
      have hid : item.executionId ∈ (db.fetchPendingByServer serverId 10).map (·.id) := by
        rw [← hitems]
        exact List.mem_map_of_mem hitem
      obtain ⟨e, he, hid⟩ := List.mem_map.mp hid
      refine ⟨e.markRunning now, ?_, hid, rfl, rfl⟩
      rw [hrows]
      exact Table.mem_update.mpr ⟨e, hmem e he, if_pos (List.mem_map_of_mem he)⟩
    · intro r hr
      have hout : r.id ∉ (db.fetchPendingByServer serverId 10).map (·.id) := by
        rw [← hitems]
        rintro hin
        obtain ⟨item, hitem, hid⟩ := List.mem_map.mp hin
        exact hr item hitem hid
      rw [hrows, Table.mem_update]
      constructor
      · rintro ⟨s, hs, rfl⟩
        split_ifs at hout ⊢ with hin
        · exact absurd hin hout
        · exact hs
      · exact fun hr => ⟨r, hr, if_neg hout⟩

section Runs
variable (croniter : CronIter) (servers : Table OpsServer) (services : Table OpsServerService)

/-- In every reachable state, a poll is complete exactly when none of the rows due belongs to
a task of which some execution waits for its retry. -/
theorem poll_complete_iff {es : List Event} (hes : Chronological es) (now : Time) (serverId : ℕ) :
    PollComplete now (after croniter servers services es) serverId ↔
      ∀ e ∈ due (after croniter servers services es) serverId,
        ∀ f ∈ (after croniter servers services es).executions, f.taskId = e.taskId →
          f.status ≠ .retrying := by
  rw [(timed_inv_after croniter servers services hes).1.pollComplete_iff]
  constructor
  · exact fun h e he f hf hid hs => h e he ⟨f, ⟨hf, hid⟩, hs⟩
  · rintro h e he ⟨f, ⟨hf, hid⟩, hs⟩
    exact h e he f hf hid hs

end Runs

namespace Sample

def pairServers : Table OpsServer :=
  servers.insert ⟨0, "web-02", "web-02", "10.0.0.2", 22, none, none, none, none, none, none,
    none, none, none, "ONLINE", none, none, 1, none⟩

/-- The check on both servers at once. -/
def pairCheck : TaskCreate :=
  { check "ONCE" with serverIds := [1, 2], serverIds_length := by decide }

/-- The first server has claimed its execution, the second has not asked yet. -/
def halfClaimed : List Event :=
  [⟨0, .createTask pairCheck 1 none⟩, ⟨1000, .fetchPending 1⟩]

/-- The first server reports a failure that is worth a retry. -/
def halfRetrying : List Event := halfClaimed ++ [⟨2000, .reportResult 1 (networkError 1)⟩]

end Sample

theorem poll_complete_iff_halfClaimed :
    PollComplete 3000 (after Sample.everyMinute Sample.pairServers Sample.services
      Sample.halfClaimed) 2 := by
  refine (poll_complete_iff Sample.everyMinute Sample.pairServers Sample.services
    (by decide : Chronological Sample.halfClaimed) 3000 2).mpr ?_
  decide

/-- While the execution of the first server waits for its retry, the second server is not
given its own. -/
theorem retrying_sibling_hides_pending :
    ¬ ∀ (croniter : CronIter) (servers : Table OpsServer) (services : Table OpsServerService)
      (es : List Event), Chronological es → ∀ (now : Time) (serverId : ℕ),
      PollComplete now (after croniter servers services es) serverId := by
  intro h
  have hpoll := (h Sample.everyMinute Sample.pairServers Sample.services Sample.halfRetrying
    (by decide) 3000 2).handed
  revert hpoll
  decide

/-! ## The timeout scan -/

/-- The execution runs for longer than its task allows. -/
def Overdue (now : Time) (db : Db) (e : OpsTaskExecution) : Prop :=
  e.status = .running ∧ ∃ t ∈ db.tasks.get? e.taskId, ∃ startedAt ∈ e.startedAt,
    startedAt < now - Clock.seconds t.timeoutSeconds

instance (now : Time) (db : Db) (e : OpsTaskExecution) : Decidable (Overdue now db e) :=
  inferInstanceAs (Decidable (e.status = .running ∧ ∃ t ∈ db.tasks.get? e.taskId,
    ∃ startedAt ∈ e.startedAt, startedAt < now - Clock.seconds t.timeoutSeconds))

/-- A scan times out what is overdue and nothing else, brings the tasks concerned up to date
and counts what it did. -/
structure ScanComplete (now : Time) (db : Db) : Prop where
  none_left : ∀ e ∈ (scanTimeouts db now).1.executions, ¬ Overdue now (scanTimeouts db now).1 e
  expired : ∀ e ∈ db.executions, Overdue now db e →
    ∃ r ∈ (scanTimeouts db now).1.executions, r.id = e.id ∧ r.status = .timeout
  others : ∀ e ∈ db.executions, ¬ Overdue now db e → e ∈ (scanTimeouts db now).1.executions
  rows : ∀ r ∈ (scanTimeouts db now).1.executions, ∃ e ∈ db.executions, e.id = r.id
  aggregated : ∀ e ∈ db.executions, Overdue now db e → ∀ t ∈ (scanTimeouts db now).1.tasks,
    t.id = e.taskId → t.status = documentedAggregate ((scanTimeouts db now).1.rowsOf t.id)
  count : (scanTimeouts db now).2 = (db.executions.select fun e => Overdue now db e).length

/-- The tasks a scan looks at. -/
def runningTasks (db : Db) : List OpsTask := db.tasks.select fun t => t.status = .running

/-- The task of the list that the row belongs to and has outrun. -/
def outrun (now : Time) (l : List OpsTask) (e : OpsTaskExecution) : Option OpsTask :=
  l.find? fun t => e.taskId = t.id ∧ e.isExpired now t.timeoutSeconds = true

/-- What the scan over the tasks of a list writes on a row. -/
def scanEdit (now : Time) (l : List OpsTask) (e : OpsTaskExecution) : OpsTaskExecution :=
  match outrun now l e with
  | some t => e.markTimeout now t.timeoutSeconds
  | none => e

theorem key_scanEdit (l : List OpsTask) (e : OpsTaskExecution) :
    Keyed.key (scanEdit now l e) = Keyed.key e := by
  unfold scanEdit
  split <;> rfl

theorem outrun_markTimeout (l : List OpsTask) (e : OpsTaskExecution) (n : ℕ) :
    outrun now l (e.markTimeout now n) = none :=
  List.find?_eq_none.mpr fun t _ h => by
    have hrunning := running_of_isExpired (of_decide_eq_true h).2
    cases hrunning

/-- A row that one task of the list has timed out is not looked at again. -/
theorem scanEdit_cons (t : OpsTask) (l : List OpsTask) (e : OpsTaskExecution) :
    scanEdit now l ((timeoutEdit db now t).edit e) = scanEdit now (t :: l) e := by
  by_cases h : e.taskId = t.id ∧ e.isExpired now t.timeoutSeconds = true
  · have hedit : (timeoutEdit db now t).edit e = e.markTimeout now t.timeoutSeconds := if_pos h
    have hcons : outrun now (t :: l) e = some t := List.find?_cons_of_pos (decide_eq_true h)
    rw [hedit, scanEdit, outrun_markTimeout, scanEdit, hcons]
  · have hedit : (timeoutEdit db now t).edit e = e := if_neg h
    have hcons : outrun now (t :: l) e = outrun now l e :=
      List.find?_cons_of_neg (by simpa using h)
    rw [hedit, scanEdit, scanEdit, hcons]

theorem count_outrun_cons (t : OpsTask) (l : List OpsTask) (rows : List OpsTaskExecution) :
    rows.countP (fun e => (outrun now (t :: l) e).isSome) =
      rows.countP (fun e => e.taskId = t.id ∧ e.isExpired now t.timeoutSeconds = true) +
        (rows.map (timeoutEdit db now t).edit).countP fun e => (outrun now l e).isSome := by
  induction rows with
  | nil => rfl
  | cons e rows ih =>
    rw [List.map_cons, List.countP_cons, List.countP_cons, List.countP_cons, ih]
    by_cases h : e.taskId = t.id ∧ e.isExpired now t.timeoutSeconds = true
    · have hedit : (timeoutEdit db now t).edit e = e.markTimeout now t.timeoutSeconds := if_pos h
      have hcons : outrun now (t :: l) e = some t := List.find?_cons_of_pos (decide_eq_true h)
      simp [hedit, hcons, h, outrun_markTimeout]
      omega
    · have hedit : (timeoutEdit db now t).edit e = e := if_neg h
      have hcons : outrun now (t :: l) e = outrun now l e :=
        List.find?_cons_of_neg (by simpa using h)
      simp [hedit, hcons, h]
      omega

theorem executions_scanTask (acc : Db × ℕ) (t : OpsTask) :
    (scanTask now acc t).1.executions =
      acc.1.executions.update (timeoutEdit acc.1 now t).edit (timeoutEdit acc.1 now t).key := by
  rw [scanTask_eq]
  split_ifs with hempty
  · refine (Table.update_eq_self fun r hr => if_neg ?_).symm
    rintro ⟨hid, hexpired⟩
    have hmem : r ∈ (acc.1.listByTask t.id).filter (·.isExpired now t.timeoutSeconds) :=
      List.mem_filter.mpr ⟨Db.mem_listByTask.mpr ⟨hr, hid⟩, hexpired⟩
    rw [hempty] at hmem
    exact absurd hmem List.not_mem_nil
  · rw [executions_aggregate]
    rfl

theorem count_scanTask (acc : Db × ℕ) (t : OpsTask) :
    (scanTask now acc t).2 = acc.2 + acc.1.executions.rows.countP fun e =>
      e.taskId = t.id ∧ e.isExpired now t.timeoutSeconds = true := by
  rw [scanTask, List.countP_eq_length_filter]
  simp only [Db.listByTask, Table.select, List.filter_filter, Bool.decide_and,
    Bool.decide_eq_true, Bool.and_comm]

/-- The rows and the count after a scan over the tasks of a list. -/
theorem scan_spec (l : List OpsTask) (acc : Db × ℕ) :
    (l.foldl (scanTask now) acc).1.executions =
        acc.1.executions.update (scanEdit now l) (key_scanEdit l) ∧
      (l.foldl (scanTask now) acc).2 =
        acc.2 + acc.1.executions.rows.countP fun e => (outrun now l e).isSome := by
  induction l generalizing acc with
  | nil =>
    refine ⟨(Table.update_eq_self fun _ _ => rfl).symm, ?_⟩
    have hnone : ∀ e : OpsTaskExecution, (outrun now [] e).isSome = false := fun _ => rfl
    simp [hnone]
  | cons t l ih =>
    obtain ⟨hrows, hcount⟩ := ih (scanTask now acc t)
    rw [List.foldl_cons, hrows, hcount]
    simp only [executions_scanTask, count_scanTask]
    constructor
    · exact Table.update_update.trans (Table.update_congr fun e _ => scanEdit_cons t l e)
    · rw [@count_outrun_cons now acc.1 t l, Nat.add_assoc]
      rfl

/-! ### The tasks after a scan -/

/-- The scan of a task leaves the other tasks and the limits of all tasks alone. -/
structure Scanned (taskId : ℕ) (db db' : Db) : Prop where
  touches : Touches taskId db db'
  chains : Chains db → Chains db'
  limits : ∀ t' ∈ db'.tasks, ∃ t ∈ db.tasks, t.id = t'.id ∧ t.timeoutSeconds = t'.timeoutSeconds

theorem scanned_scanTask (acc : Db × ℕ) (t : OpsTask) :
    Scanned t.id acc.1 (scanTask now acc t).1 := by
  rw [scanTask_eq]
  split_ifs with hempty
  · exact ⟨⟨fun _ _ => Iff.rfl, fun _ _ => rfl⟩, fun h => h, fun t' ht' => ⟨t', ht', rfl, rfl⟩⟩
  · refine ⟨(RowEdit.touches _ _).trans touches_aggregate, fun h => ?_, fun t' ht' => ?_⟩
    · exact (h.rewrites ((timeoutEdit acc.1 now t).rewrites acc.1.logs)).rewrites rewrites_aggregate
    · rw [aggregateTaskStatus_eq] at ht'
      obtain ⟨s, hs, rfl⟩ := Db.mem_withTask.mp ht'
      refine ⟨s, hs, ?_⟩
      split_ifs <;> exact ⟨rfl, rfl⟩

/-- A task of which the scan timed out a row shows the aggregate of its rows. -/
theorem scanTask_aggregated {acc : Db × ℕ} {t : OpsTask} (h : Chains acc.1)
    (hexpired : ∃ e ∈ acc.1.rowsOf t.id, e.isExpired now t.timeoutSeconds = true) :
    ∀ s ∈ (scanTask now acc t).1.tasks, s.id = t.id →
      s.status = documentedAggregate ((scanTask now acc t).1.rowsOf t.id) := by
  intro s hs hid
  obtain ⟨e, he, hexp⟩ := hexpired
  have hchains : Chains (scanTask now acc t).1 := (scanned_scanTask acc t).chains h
  have hmem : e ∈ (acc.1.listByTask t.id).filter (·.isExpired now t.timeoutSeconds) :=
    List.mem_filter.mpr ⟨Db.mem_listByTask.mpr he, hexp⟩
  have hne : ((scanTask now acc t).1.rowsOf t.id).Nonempty := by
    refine ⟨(timeoutEdit acc.1 now t).edit e, ?_, ?_⟩
    · rw [executions_scanTask]
      exact Table.mem_update.mpr ⟨e, he.1, rfl⟩
    · exact ((timeoutEdit acc.1 now t).step e he).sameRow.taskId.trans he.2
  rw [← hchains.aggregated_eq hne]
  rw [scanTask_eq, if_neg (List.ne_nil_of_mem hmem)] at hs ⊢
  rw [aggregateTaskStatus_eq] at hs ⊢
  obtain ⟨s, -, -, rfl⟩ := Db.of_mem_withTask hs hid
  rfl

theorem scanTimeouts_limits (db : Db) (now : Time) :
    ∀ t' ∈ (scanTimeouts db now).1.tasks, ∃ t ∈ db.tasks, t.id = t'.id ∧
      t.timeoutSeconds = t'.timeoutSeconds := by
  have hloop := loop_foldl (scanTask now) (runningTasks db) (db, 0)
  refine hloop.carries (G := fun _ _ => True) (D := fun t t' => t.id < t'.id)
    (P := fun acc => ∀ t' ∈ acc.1.tasks, ∃ t ∈ db.tasks, t.id = t'.id ∧
      t.timeoutSeconds = t'.timeoutSeconds) ?_ (fun _ _ _ _ _ _ _ _ => trivial)
    (Table.select_sorted db.tasks _) (fun _ _ => trivial) fun t ht => ⟨t, ht, rfl, rfl⟩
  rintro t - acc _ - rfl hP t' ht'
  obtain ⟨s, hs, hid, hlimit⟩ := (scanned_scanTask acc t).limits t' ht'
  obtain ⟨s', hs', hid', hlimit'⟩ := hP s hs
  exact ⟨s', hs', hid'.trans hid, hlimit'.trans hlimit⟩

theorem scanTimeouts_aggregated (h : Chains db) {t : OpsTask} (ht : t ∈ db.tasks)
    (hrunning : t.status = .running)
    (hexpired : ∃ e ∈ db.rowsOf t.id, e.isExpired now t.timeoutSeconds = true) :
    ∀ s ∈ (scanTimeouts db now).1.tasks, s.id = t.id →
      s.status = documentedAggregate ((scanTimeouts db now).1.rowsOf t.id) := by
  have hloop := loop_foldl (scanTask now) (runningTasks db) (db, 0)
  -- until its turn a task keeps its rows, after its turn it keeps its status as well
  refine hloop.each
    (G := fun t acc => Chains acc.1 ∧ acc.1.rowsOf t.id = db.rowsOf t.id)
    (D := fun t t' => t.id < t'.id)
    (Q := fun t acc => (∃ e ∈ db.rowsOf t.id, e.isExpired now t.timeoutSeconds = true) →
      ∀ s ∈ acc.1.tasks, s.id = t.id → s.status = documentedAggregate (acc.1.rowsOf t.id))
    ?_ ?_ ?_ (Table.select_sorted db.tasks _) (fun t _ => ⟨h, rfl⟩) t
    (Table.mem_select.mpr ⟨ht, decide_eq_true hrunning⟩) hexpired
  · rintro t - acc _ ⟨hchains, hrows⟩ rfl hexpired
    rw [← hrows] at hexpired
    exact scanTask_aggregated hchains hexpired
  · rintro t t' acc _ hlt ⟨hchains, -⟩ rfl ⟨-, hrows⟩
    have hscanned := @scanned_scanTask now acc t
    exact ⟨hscanned.chains hchains, (hscanned.touches.rows t'.id hlt.ne').trans hrows⟩
  · rintro t t' acc _ hlt - rfl hQ hexpired s hs hid
    have htouches := (@scanned_scanTask now acc t).touches
    rw [htouches.rows t'.id hlt.ne]
    exact hQ hexpired s ((htouches.tasks s (by rw [hid]; exact hlt.ne)).mp hs) hid

/-! ### Completeness -/

theorem isExpired_iff {e : OpsTaskExecution} {n : ℕ} :
    e.isExpired now n = true ↔ e.status = .running ∧
      ∃ startedAt ∈ e.startedAt, startedAt < now - Clock.seconds n := by
  unfold OpsTaskExecution.isExpired
  cases hs : e.status <;> cases ha : e.startedAt <;> simp

theorem overdue_iff {e : OpsTaskExecution} :
    Overdue now db e ↔ ∃ t ∈ db.tasks, t.id = e.taskId ∧ e.isExpired now t.timeoutSeconds = true := by
  constructor
  · rintro ⟨hrunning, t, hget, hlate⟩
    obtain ⟨ht, hid⟩ := Table.get?_eq_some.mp hget
    exact ⟨t, ht, hid, isExpired_iff.mpr ⟨hrunning, hlate⟩⟩
  · rintro ⟨t, ht, hid, hexpired⟩
    obtain ⟨hrunning, hlate⟩ := isExpired_iff.mp hexpired
    exact ⟨hrunning, t, Table.get?_eq_some.mpr ⟨ht, hid⟩, hlate⟩

theorem outrun_eq_some {e : OpsTaskExecution} {t : OpsTask}
    (h : outrun now (runningTasks db) e = some t) :
    t ∈ db.tasks ∧ t.status = .running ∧ e.taskId = t.id ∧
      e.isExpired now t.timeoutSeconds = true := by
  obtain ⟨ht, hs⟩ := Table.mem_select.mp (List.mem_of_find?_eq_some h)
  have hfound := List.find?_some (p := fun t : OpsTask =>
    decide (e.taskId = t.id ∧ e.isExpired now t.timeoutSeconds = true)) h
  obtain ⟨hid, hexpired⟩ := of_decide_eq_true hfound
  exact ⟨ht, of_decide_eq_true hs, hid, hexpired⟩

/-- The scan reaches the overdue rows of which no sibling waits for a retry. -/
theorem Inv.outrun_isSome_iff (h : Inv kept db) {e : OpsTaskExecution} (he : e ∈ db.executions) :
    (outrun now (runningTasks db) e).isSome = true ↔
      Overdue now db e ∧ ¬ Waiting db e.taskId := by
  constructor
  · intro hsome
    obtain ⟨t, hout⟩ := Option.isSome_iff_exists.mp hsome
    obtain ⟨ht, hs, hid, hexpired⟩ := outrun_eq_some hout
    refine ⟨overdue_iff.mpr ⟨t, ht, hid.symm, hexpired⟩, fun hwait => ?_⟩
    rw [hid] at hwait
    rw [(h.status t ht).retrying_iff.mpr hwait] at hs
    cases hs
  · rintro ⟨hoverdue, hwait⟩
    obtain ⟨t, ht, hid, hexpired⟩ := overdue_iff.mp hoverdue
    have hrunning := running_of_isExpired hexpired
    have hrow : e ∈ db.rowsOf t.id := ⟨he, hid.symm⟩
    have hs : t.status = .running := by
      cases h.status t ht with
      | waiting _ hrows =>
        have hpending := (hrows e hrow).1
        rw [hrunning] at hpending
        cases hpending
      | running hs => exact hs
      | retrying _ hrow =>
        rw [← hid] at hwait
        exact absurd hrow hwait
      | closed _ hrows =>
        have hfin := hrows e hrow
        rw [hrunning] at hfin
        cases hfin
    rw [outrun, List.find?_isSome]
    exact ⟨t, Table.mem_select.mpr ⟨ht, decide_eq_true hs⟩, decide_eq_true ⟨hid.symm, hexpired⟩⟩

theorem scanEdit_of_isSome {l : List OpsTask} {e : OpsTaskExecution}
    (h : (outrun now l e).isSome = true) : (scanEdit now l e).status = .timeout := by
  obtain ⟨t, ht⟩ := Option.isSome_iff_exists.mp h
  rw [scanEdit, ht]
  rfl

theorem scanEdit_of_not_isSome {l : List OpsTask} {e : OpsTaskExecution}
    (h : ¬ (outrun now l e).isSome = true) : scanEdit now l e = e := by
  rw [scanEdit, Option.not_isSome_iff_eq_none.mp h]

theorem Overdue.of_scanTimeouts {e : OpsTaskExecution} (h : Overdue now (scanTimeouts db now).1 e) :
    Overdue now db e := by
  obtain ⟨t', ht', hid', hexpired⟩ := overdue_iff.mp h
  obtain ⟨t, ht, hid, hlimit⟩ := scanTimeouts_limits db now t' ht'
  exact overdue_iff.mpr ⟨t, ht, hid.trans hid', by rwa [hlimit]⟩

theorem Inv.scanComplete_iff (h : Inv kept db) :
    ScanComplete now db ↔ ∀ e ∈ db.executions, Overdue now db e → ¬ Waiting db e.taskId := by
  obtain ⟨hrows, hcount⟩ := @scan_spec now (runningTasks db) (db, 0)
  have hmem : ∀ {r}, r ∈ (scanTimeouts db now).1.executions ↔ ∃ e ∈ db.executions,
      scanEdit now (runningTasks db) e = r := by
    intro r
    exact (congrArg (r ∈ ·) hrows).to_iff.trans Table.mem_update
  constructor
  · intro hscan e he hoverdue
    obtain ⟨r, hr, hid, htimeout⟩ := hscan.expired e he hoverdue
    obtain ⟨e', he', rfl⟩ := hmem.mp hr
    obtain rfl : e' = e := Table.eq_of_key_eq he' he ((key_scanEdit _ e').symm.trans hid)
    by_contra hwait
    have hnone : ¬ (outrun now (runningTasks db) e').isSome = true := fun hsome =>
      ((h.outrun_isSome_iff he).mp hsome).2 hwait
    rw [scanEdit_of_not_isSome hnone, hoverdue.1] at htimeout
    cases htimeout
  · intro hall
    have hreach : ∀ e ∈ db.executions, ((outrun now (runningTasks db)
        e).isSome = true ↔ Overdue now db e) := by
      intro e he
      rw [h.outrun_isSome_iff he]
      exact and_iff_left_of_imp (hall e he)
    refine ⟨?_, ?_, ?_, ?_, ?_, ?_⟩
    · intro r hr hoverdue
      obtain ⟨e, he, rfl⟩ := hmem.mp hr
      by_cases hsome : (outrun now (runningTasks db) e).isSome = true
      · have htimeout := scanEdit_of_isSome hsome
        rw [hoverdue.1] at htimeout
        cases htimeout
      · rw [scanEdit_of_not_isSome hsome] at hoverdue
        exact hsome ((hreach e he).mpr hoverdue.of_scanTimeouts)
    · intro e he hoverdue
      exact ⟨_, hmem.mpr ⟨e, he, rfl⟩, key_scanEdit _ e,
        scanEdit_of_isSome ((hreach e he).mpr hoverdue)⟩
    · intro e he hno
      exact hmem.mpr ⟨e, he, scanEdit_of_not_isSome fun hsome => hno ((hreach e he).mp hsome)⟩
    · intro r hr
      obtain ⟨e, he, rfl⟩ := hmem.mp hr
      exact ⟨e, he, (key_scanEdit _ e).symm⟩
    · intro e he hoverdue t' ht' hid'
      obtain ⟨t, hout⟩ := Option.isSome_iff_exists.mp ((hreach e he).mpr hoverdue)
      obtain ⟨ht, hs, hid, hexpired⟩ := outrun_eq_some hout
      have hrow : ∃ e ∈ db.rowsOf t.id, e.isExpired now t.timeoutSeconds = true :=
        ⟨e, ⟨he, hid⟩, hexpired⟩
      rw [hid'.trans hid]
      exact scanTimeouts_aggregated h.toChains ht hs hrow t' ht' (hid'.trans hid)
    · calc (scanTimeouts db now).2
          = db.executions.rows.countP fun e => (outrun now (runningTasks db) e).isSome :=
            hcount.trans (Nat.zero_add _)
        _ = db.executions.rows.countP fun e => Overdue now db e :=
            List.countP_congr fun e he => (hreach e he).trans decide_eq_true_iff.symm
        _ = (db.executions.select fun e => Overdue now db e).length :=
            List.countP_eq_length_filter

section Runs
variable (croniter : CronIter) (servers : Table OpsServer) (services : Table OpsServerService)

/-- In every reachable state, a scan is complete exactly when none of the overdue rows belongs
to a task of which some execution waits for its retry. -/
theorem timeout_scan_complete_iff {es : List Event} (hes : Chronological es) (now : Time) :
    ScanComplete now (after croniter servers services es) ↔
      ∀ e ∈ (after croniter servers services es).executions,
        Overdue now (after croniter servers services es) e →
        ∀ f ∈ (after croniter servers services es).executions, f.taskId = e.taskId →
          f.status ≠ .retrying := by
  rw [(timed_inv_after croniter servers services hes).1.scanComplete_iff]
  constructor
  · exact fun h e he hoverdue f hf hid hs => h e he hoverdue ⟨f, ⟨hf, hid⟩, hs⟩
  · rintro h e he hoverdue ⟨f, ⟨hf, hid⟩, hs⟩
    exact h e he hoverdue f hf hid hs

end Runs

namespace Sample

/-- Both servers run the check; nothing is reported. -/
def bothClaimed : List Event := halfClaimed ++ [⟨1000, .fetchPending 2⟩]

/-- The first server reports a failure shortly before the limit of a minute. -/
def lateRetrying : List Event := bothClaimed ++ [⟨58000, .reportResult 1 (networkError 1)⟩]

end Sample

theorem timeout_scan_complete_iff_bothClaimed :
    ScanComplete 62000 (after Sample.everyMinute Sample.pairServers Sample.services
      Sample.bothClaimed) := by
  refine (timeout_scan_complete_iff Sample.everyMinute Sample.pairServers Sample.services
    (by decide : Chronological Sample.bothClaimed) 62000).mpr ?_
  decide

/-- The second server outruns the limit while the first waits for its retry, and the scan
leaves it running. -/
theorem retrying_sibling_hides_overdue :
    ¬ ∀ (croniter : CronIter) (servers : Table OpsServer) (services : Table OpsServerService)
      (es : List Event), Chronological es → ∀ now : Time,
      ScanComplete now (after croniter servers services es) := by
  intro h
  have hscan := (h Sample.everyMinute Sample.pairServers Sample.services Sample.lateRetrying
    (by decide) 62000).none_left
  revert hscan
  decide

end OpsMonitor.Task
