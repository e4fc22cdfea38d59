import OpsMonitor.Task.AttemptChains
import OpsMonitor.Task.Aggregation
import OpsMonitor.Task.Verdicts

/-! The tables after a dispatch of the retries: the rows that were due are closed in place, and the
rows of the next attempts follow at the end. -/

namespace OpsMonitor.Task
open Library

variable {croniter : CronIter} {kept : Prop} {now : Time} {db db' base : Db} {e : OpsTaskExecution}

/-! ## What the dispatch makes of a row -/

/-- The task of the row has attempts and time left. -/
def Retriable (db : Db) (now : Time) (e : OpsTaskExecution) : Bool :=
  (db.tasks.get? e.taskId).any fun t => canRetry t e now

/-- A due row after the dispatch. -/
def dispatched (db : Db) (now : Time) (e : OpsTaskExecution) : OpsTaskExecution :=
  if Retriable db now e then e.finish now .failed none none e.errorMessage e.errorType
  else e.markDead now (orText e.errorType Retry.unknownErrorType)
    (some (orText e.errorMessage "重试预算耗尽"))

theorem sameRow_dispatched (db : Db) (now : Time) (e : OpsTaskExecution) :
    SameRow e (dispatched db now e) := by
  unfold dispatched
  split_ifs <;> exact ⟨rfl, rfl, rfl, rfl, rfl⟩

/-- A row of the table, when the due rows with these ids have been dispatched. -/
def settle (db : Db) (now : Time) (ids : List ℕ) (r : OpsTaskExecution) : OpsTaskExecution :=
  if r.id ∈ ids then dispatched db now r else r

@[simp] theorem settle_id (db : Db) (now : Time) (ids : List ℕ) (r : OpsTaskExecution) :
    (settle db now ids r).id = r.id := by
  unfold settle
  split_ifs
  · exact (sameRow_dispatched db now r).id
  · rfl

/-- The next attempts of the rows `done`, in their order. -/
def successors (db : Db) (now : Time) (done : List OpsTaskExecution) : List OpsTaskExecution :=
  (done.filter (Retriable db now)).map nextAttempt

theorem successors_concat (db : Db) (now : Time) (done : List OpsTaskExecution) (e : OpsTaskExecution) :
    successors db now (done ++ [e]) =
      successors db now done ++ if Retriable db now e then [nextAttempt e] else [] := by
  unfold successors
  rw [List.filter_append, List.map_append, List.filter_singleton]
  cases Retriable db now e <;> rfl

/-- The state of the loop after the due rows `done`. -/
structure Dispatched (base : Db) (now : Time) (done : List OpsTaskExecution) (acc : Db × ℕ) :
    Prop where
  rows : acc.1.executions.rows = base.executions.rows.map (settle base now (done.map (·.id))) ++
    Table.keyed base.executions.next (successors base now done)
  next : acc.1.executions.next = base.executions.next + (successors base now done).length
  count : acc.2 = (successors base now done).length
  untouched : ∀ t ∈ base.tasks, (∀ e ∈ done, e.taskId ≠ t.id) → t ∈ acc.1.tasks
  aggregated : ∀ t ∈ acc.1.tasks, (∃ e ∈ done, e.taskId = t.id) → t.status = acc.1.aggregated t.id

theorem Dispatched.start : Dispatched base now [] (base, 0) where
  rows := by
    have hmap : base.executions.rows.map (settle base now []) = base.executions.rows :=
      (List.map_congr_left fun r _ => if_neg List.not_mem_nil).trans (List.map_id' _)
    simp [successors, Table.keyed, hmap]
  next := rfl
  count := rfl
  untouched := fun t ht _ => ht
  aggregated := fun t _ h => by simp at h

/-! ## One turn -/

theorem retriable_eq {t : OpsTask} (ht : t ∈ base.tasks) (hid : t.id = e.taskId) :
    Retriable base now e = canRetry t e now := by
  have hget : base.tasks.get? e.taskId = some t := Table.get?_eq_some.mpr ⟨ht, hid⟩
  rw [Retriable, hget, Option.any_some]

/-- The edit of one row, on a table in which rows before it have been settled. -/
theorem map_edit_settle {f : OpsTaskExecution → OpsTaskExecution} {done : List OpsTaskExecution}
    (he : e ∈ base.executions) (hnew : e.id ∉ done.map (·.id)) (hf : f e = dispatched base now e) :
    (base.executions.rows.map (settle base now (done.map (·.id)))).map
        (fun r => if Keyed.key r = e.id then f r else r) =
      base.executions.rows.map (settle base now ((done ++ [e]).map (·.id))) := by
  rw [List.map_map]
  refine List.map_congr_left fun r hr => ?_
  have hkey : Keyed.key (settle base now (done.map (·.id)) r) = r.id := settle_id _ _ _ _
  by_cases h : r.id = e.id
  · obtain rfl := Table.eq_of_key_eq hr he h
    have hsame : settle base now (done.map (·.id)) r = r := if_neg hnew
    rw [Function.comp_apply, hsame, if_pos (show Keyed.key r = r.id from rfl), hf, settle,
      if_pos (by simp)]
  · rw [Function.comp_apply, if_neg (by rwa [hkey])]
    simp only [settle, List.map_append, List.map_cons, List.map_nil, List.mem_append,
      List.mem_singleton, h, or_false]

/-- The rows that were added come after the ids of the table. -/
theorem map_edit_keyed {f : OpsTaskExecution → OpsTaskExecution} (he : e ∈ base.executions)
    (as : List OpsTaskExecution) :
    (Table.keyed base.executions.next as).map (fun r => if Keyed.key r = e.id then f r else r) =
      Table.keyed base.executions.next as := by
  refine (List.map_congr_left fun r hr => if_neg ?_).trans (List.map_id' _)
  have hlt : e.id < base.executions.next := Table.key_lt he
  have hle := Table.le_key_of_mem_keyed hr
  omega

/-- The rows of another task are not written. -/
theorem RowEdit.listByTask_apply_of_ne {t : OpsTask} (w : RowEdit db now t) (logs : Table OpsTaskLog)
    {taskId : ℕ} (hne : taskId ≠ t.id) : (w.apply logs).listByTask taskId = db.listByTask taskId := by
  have hselect : (db.executions.update w.edit w.key).select (fun r => decide (r.taskId = taskId)) =
      (db.executions.select fun r => decide (r.taskId = taskId)).map w.edit := by
    refine Table.select_update _ fun r hr => ?_
    by_cases h : r.taskId = t.id
    · rw [(w.sameRow hr).taskId]
    · rw [w.other r hr h]
  refine hselect.trans ((List.map_congr_left fun r hr => ?_).trans (List.map_id' _))
  obtain ⟨hr, htask⟩ := Table.mem_select.mp hr
  exact w.other r hr fun h => hne ((of_decide_eq_true htask).symm.trans h)

theorem mem_withTask_of_ne {id : ℕ} {f : OpsTask → OpsTask} {hf : ∀ t, Keyed.key (f t) = Keyed.key t}
    {t : OpsTask} (hne : t.id ≠ id) : t ∈ (db.withTask id f hf).tasks ↔ t ∈ db.tasks := by
  rw [Db.mem_withTask]
  constructor
  · rintro ⟨s, hs, rfl⟩
    by_cases hid : s.id = id
    · rw [if_pos hid] at hne
      exact absurd ((hf s).trans hid) hne
    · rwa [if_neg hid]
  · exact fun ht => ⟨t, ht, if_neg hne⟩

theorem aggregated_congr {taskId : ℕ} (h : db'.listByTask taskId = db.listByTask taskId) :
    db'.aggregated taskId = db.aggregated taskId := by
  rw [Db.aggregated, Db.aggregated, h]

theorem dispatchExecution_count {n n' : ℕ} (h : dispatchExecution now (db, n) e = .ok (db', n'))
    (hopen : ∀ t ∈ db.tasks, t.id = e.taskId → t.status.finished = false) :
    ∃ t ∈ db.tasks, t.id = e.taskId ∧ n' = if canRetry t e now then n + 1 else n := by
  obtain ⟨t, hget, hdb⟩ := bind_eq_ok.mp h
  obtain ⟨ht, hid⟩ := getTaskEntity_eq_ok.mp hget
  refine ⟨t, ht, hid, ?_⟩
  dsimp only at hdb
  rw [if_neg (by simp [hopen t ht hid])] at hdb
  split_ifs at hdb with hbudget
  · rw [if_neg (by simp [hbudget])]
    exact (Prod.ext_iff.mp (pure_eq_ok.mp hdb)).2.symm
  · obtain ⟨d, -, hdb⟩ := bind_eq_ok.mp hdb
    rw [if_pos (Bool.of_not_eq_false hbudget)]
    exact (Prod.ext_iff.mp (pure_eq_ok.mp hdb)).2.symm

variable {done : List OpsTaskExecution} {n n' : ℕ}

/-- A turn writes the rows of one task and then its aggregate. -/
theorem Dispatched.aggregate (h : Dispatched base now done (db, n)) {taskId : ℕ} {d : Db}
    (htask : e.taskId = taskId)
    (hrows : d.executions.rows =
      base.executions.rows.map (settle base now ((done ++ [e]).map (·.id))) ++
        Table.keyed base.executions.next (successors base now (done ++ [e])))
    (hnext : d.executions.next = base.executions.next + (successors base now (done ++ [e])).length)
    (hcount : n' = (successors base now (done ++ [e])).length)
    (htasks : ∀ t : OpsTask, t.id ≠ taskId → (t ∈ d.tasks ↔ t ∈ db.tasks))
    (hlist : ∀ id, id ≠ taskId → d.listByTask id = db.listByTask id) :
    Dispatched base now (done ++ [e]) (aggregateTaskStatus d now taskId, n') where
  rows := by rw [executions_aggregate, hrows]
  next := by rw [executions_aggregate, hnext]
  count := hcount
  untouched := by
    intro t ht hfree
    have hne : t.id ≠ taskId := fun heq => hfree e (by simp) (htask.trans heq.symm)
    have hkept := h.untouched t ht fun e' he' => hfree e' (List.mem_append_left _ he')
    exact mem_tasks_aggregate_of_ne ((htasks t hne).mpr hkept) hne
  aggregated := by
    intro t ht hdone
    have hsame : (aggregateTaskStatus d now taskId).aggregated t.id = d.aggregated t.id :=
      aggregated_congr (by rw [Db.listByTask, executions_aggregate, Db.listByTask])
    rw [hsame]
    rw [aggregateTaskStatus_eq] at ht
    obtain ⟨s, hs, rfl⟩ := Db.mem_withTask.mp ht
    by_cases hid : s.id = taskId
    · rw [if_pos hid, ← hid]
    · rw [if_neg hid] at hdone ⊢
      obtain ⟨e', he', heq⟩ := hdone
      have hdone : e' ∈ done := by
        rcases List.mem_append.mp he' with he' | he'
        · exact he'
        · obtain rfl := List.mem_singleton.mp he'
          exact absurd (heq.symm.trans htask) hid
      rw [h.aggregated s ((htasks s hid).mp hs) ⟨e', hdone, heq⟩]
      exact (aggregated_congr (hlist s.id hid)).symm

theorem Dispatched.turn (h : Dispatched base now done (db, n)) (hG : DispatchGuard kept now base e db)
    (he : e ∈ base.executions) (hnew : e.id ∉ done.map (·.id))
    (hturn : dispatchExecution now (db, n) e = .ok (db', n')) :
    Dispatched base now (done ++ [e]) (db', n') := by
  obtain ⟨t, ht, hrow, hcases⟩ := dispatchExecution_cases hG.due hturn
  -- the task is open as long as the row waits for its retry
  have hopen : ∀ s ∈ db.tasks, s.id = e.taskId → s.status.finished = false := by
    intro s hs hid
    by_contra hfin
    have hclosed := (hG.inv.status s hs).finished_rows (by simpa using hfin) e ⟨hG.due.1, hid.symm⟩
    simp [hG.due.2.1, ExecutionStatus.finished] at hclosed
  have hbudget : Retriable base now e = canRetry t e now := by
    obtain ⟨t₀, ht₀, hsame⟩ := hG.tasks t ht
    rw [retriable_eq ht₀ (hsame.id.symm.trans hrow.2.symm), canRetry_congr hsame]
  have hcount : n' = if canRetry t e now then n + 1 else n := by
    obtain ⟨s, hs, hid, hcount⟩ := dispatchExecution_count hturn hopen
    rwa [Table.eq_of_key_eq hs ht (hid.trans hrow.2)] at hcount
  have hn : n = (successors base now done).length := h.count
  have hlength : (successors base now (done ++ [e])).length =
      (successors base now done).length + if canRetry t e now then 1 else 0 := by
    rw [successors_concat, List.length_append, hbudget]
    split_ifs <;> rfl
  rcases hcases with ⟨hfin, -⟩ | ⟨-, hno, logs, rfl⟩ | ⟨-, hyes, logs, rfl⟩
  · simp [hopen t ht hrow.2.symm] at hfin
  · have hfalse : Retriable base now e = false := hbudget.trans hno
    have hf : e.markDead now (orText e.errorType Retry.unknownErrorType)
        (some (orText e.errorMessage "重试预算耗尽")) = dispatched base now e := by
      rw [dispatched, if_neg (by simp [hfalse])]
    refine h.aggregate hrow.2 ?_ ?_ ?_ (fun _ _ => Iff.rfl)
      fun id hid => RowEdit.listByTask_apply_of_ne _ logs hid
    · rw [successors_concat, if_neg (by simp [hfalse]), List.append_nil]
      change db.executions.rows.map _ = _
      rw [h.rows, List.map_append]
      exact congrArg₂ _ (map_edit_settle he hnew hf) (map_edit_keyed he _)
    · rw [hlength, if_neg (by simp [hno])]
      exact h.next
    · rw [hcount, hlength, if_neg (by simp [hno]), if_neg (by simp [hno]), hn]
      rfl
  · have htrue : Retriable base now e = true := hbudget.trans hyes
    have hf : e.finish now .failed none none e.errorMessage e.errorType = dispatched base now e := by
      rw [dispatched, if_pos htrue]
    refine h.aggregate hrow.2 ?_ ?_ ?_ (fun s hs => ?_) fun id hid => ?_
    · rw [successors_concat, if_pos htrue, Table.keyed_concat, ← List.append_assoc, ← h.next]
      refine congrArg (· ++ [_]) ?_
      change db.executions.rows.map _ = _
      rw [h.rows, List.map_append]
      exact congrArg₂ _ (map_edit_settle he hnew hf) (map_edit_keyed he _)
    · rw [hlength, if_pos hyes, ← Nat.add_assoc, ← h.next]
      rfl
    · rw [hcount, hlength, if_pos hyes, if_pos hyes, hn]
    · rw [Db.tasks_resetTarget, mem_withTask_of_ne hs]
      rfl
    · have hother := RowEdit.listByTask_apply_of_ne (archiveEdit now hrow hG.due.2.1) logs hid
      have hnext : ∀ k, decide ((Keyed.withKey k (nextAttempt e)).taskId = id) = false :=
        fun _ => decide_eq_false fun heq => hid (heq.symm.trans hrow.2)
      refine Eq.trans ?_ hother
      change ((_ : Table OpsTaskExecution).insert (nextAttempt e)).select _ = _
      rw [Table.select_insert, hnext]
      exact List.append_nil _

/-- The whole loop, over due rows of the table. -/
theorem Inv.dispatched_loop {base : Db} (h : Inv kept base) {limit : ℕ}
    (hok : dispatchRetries base now limit = .ok (db', n')) :
    Dispatched base now (base.listDueRetries now limit) (db', n') := by
  have hdistinct := listDueRetries_distinct base now limit
  refine (foldlM_front (P := fun done acc => Dispatched base now done acc ∧
    ∀ e ∈ base.listDueRetries now limit, e.id ∉ done.map (·.id) →
      DispatchGuard kept now base e acc.1) ⟨.start, fun e he _ => h.dispatchGuard he⟩ hok ?_).1
  rintro pre e post ⟨d, n⟩ ⟨d', n'⟩ hl ⟨hdone, hguard⟩ hturn
  have he : e ∈ base.listDueRetries now limit := by
    rw [hl]
    simp
  have hnew : e.id ∉ pre.map (·.id) := by
    rw [hl, List.pairwise_append] at hdistinct
    rw [List.mem_map]
    rintro ⟨f, hf, heq⟩
    exact hdistinct.2.2 f hf e List.mem_cons_self heq
  refine ⟨hdone.turn (hguard e he hnew) (mem_listDueRetries he).1 hnew hturn, fun f hf hfnew => ?_⟩
  rw [List.map_append, List.mem_append, not_or, List.map_singleton, List.mem_singleton] at hfnew
  exact DispatchGuard.keeps (fun heq => hfnew.2 heq.symm) (hguard e he hnew) hturn
    (hguard f hf hfnew.1)

/-! ## The dispatch as a whole -/

/-- The rows whose retry is due, before the limit cuts the list off. -/
def dueRetries (db : Db) (now : Time) : List OpsTaskExecution :=
  db.executions.select fun e => e.status = .retrying ∧ ∃ r ∈ e.nextRetryAt, r ≤ now

theorem mem_dueRetries : e ∈ dueRetries db now ↔ DueRetry now e db := by
  simp [dueRetries, DueRetry]

theorem mem_listDueRetries_iff {limit : ℕ} (h : (dueRetries db now).length ≤ limit) :
    e ∈ db.listDueRetries now limit ↔ DueRetry now e db := by
  rw [← mem_dueRetries]
  have hlength : ((dueRetries db now).insertionSort
      fun a b => a.nextRetryAt.getD 0 ≤ b.nextRetryAt.getD 0).length ≤ limit := by
    rwa [List.length_insertionSort]
  have hlist : db.listDueRetries now limit = (dueRetries db now).insertionSort
      fun a b => a.nextRetryAt.getD 0 ≤ b.nextRetryAt.getD 0 := List.take_of_length_le hlength
  rw [hlist, List.mem_insertionSort]

/-- The task of the row has attempts and time left. -/
def HasBudget (t : OpsTask) (e : OpsTaskExecution) (now : Time) : Prop :=
  e.attempt < t.maxAttempts ∧ ∀ deadline ∈ t.deadlineAt, now < deadline

/-- What a dispatch leaves that came to all due rows, with the number it returns. -/
structure DispatchedAll (db : Db) (now : Time) (db' : Db) (n : ℕ) : Prop where
  none_due : ∀ r, ¬DueRetry now r db'
  retried : ∀ e, DueRetry now e db → ∀ t ∈ db.tasks, t.id = e.taskId → HasBudget t e now →
    (∃ r ∈ db'.executions, SameRow e r ∧ r.status = .failed ∧ r.errorType = e.errorType ∧
      r.errorMessage = e.errorMessage) ∧
    ∃ r ∈ db'.executions, db.executions.next ≤ r.id ∧ r.status = .pending ∧ IsNext e r ∧
      r.serverId = e.serverId ∧ ∀ s ∈ db'.executions, IsNext e s → s = r
  exhausted : ∀ e, DueRetry now e db → ∀ t ∈ db.tasks, t.id = e.taskId → ¬HasBudget t e now →
    (∃ r ∈ db'.executions, SameRow e r ∧ r.status = .dead) ∧ ∀ s ∈ db'.executions, ¬IsNext e s
  others : ∀ e ∈ db.executions, ¬DueRetry now e db → e ∈ db'.executions
  origin : ∀ r ∈ db'.executions, (∃ e ∈ db.executions, SameRow e r) ∨
    db.executions.next ≤ r.id ∧ ∃ e, DueRetry now e db ∧ IsNext e r
  tasks : ∀ t ∈ db.tasks, (∀ e, DueRetry now e db → e.taskId ≠ t.id) → t ∈ db'.tasks
  aggregate : ∀ t ∈ db'.tasks, (∃ e, DueRetry now e db ∧ e.taskId = t.id) →
    t.status = documentedAggregate (db'.rowsOf t.id)
  count : n = (db'.executions.rows.filter fun r => db.executions.next ≤ r.id).length

section Rows
variable {limit : ℕ} (hall : ∀ e, e ∈ db.listDueRetries now limit ↔ DueRetry now e db)
  (h : Dispatched db now (db.listDueRetries now limit) (db', n))
include hall h

theorem Dispatched.mem_iff {r : OpsTaskExecution} : r ∈ db'.executions ↔
    (∃ e, DueRetry now e db ∧ dispatched db now e = r) ∨
      (r ∈ db.executions ∧ ¬DueRetry now r db) ∨
        r ∈ Table.keyed db.executions.next (successors db now (db.listDueRetries now limit)) := by
  rw [← Table.mem_rows, h.rows, List.mem_append, ← or_assoc]
  refine or_congr_left ?_
  have hids : ∀ e ∈ db.executions, e.id ∈ (db.listDueRetries now limit).map (·.id) ↔
      DueRetry now e db := by
    intro e he
    rw [List.mem_map, ← hall]
    constructor
    · rintro ⟨f, hf, hid⟩
      rwa [← Table.eq_of_key_eq (mem_listDueRetries hf).1 he hid]
    · exact fun hdue => ⟨e, hdue, rfl⟩
  rw [List.mem_map]
  constructor
  · rintro ⟨e, he, rfl⟩
    unfold settle
    split_ifs with hid
    · exact .inl ⟨e, (hids e he).mp hid, rfl⟩
    · exact .inr ⟨he, mt (hids e he).mpr hid⟩
  · rintro (⟨e, hdue, rfl⟩ | ⟨hr, hdue⟩)
    · exact ⟨e, hdue.1, if_pos ((hids e hdue.1).mpr hdue)⟩
    · exact ⟨r, hr, if_neg (mt (hids r hr).mp hdue)⟩

omit h in
theorem of_mem_successors {r : OpsTaskExecution}
    (hr : r ∈ Table.keyed db.executions.next (successors db now (db.listDueRetries now limit))) :
    db.executions.next ≤ r.id ∧ r.status = .pending ∧
      ∃ e, DueRetry now e db ∧ Retriable db now e = true ∧ IsNext e r ∧ r.serverId = e.serverId := by
  have hle := Table.le_key_of_mem_keyed hr
  obtain ⟨a, ha, k, -, rfl⟩ := Table.exists_of_mem_keyed hr
  obtain ⟨e, he, rfl⟩ := List.mem_map.mp ha
  obtain ⟨he, hbudget⟩ := List.mem_filter.mp he
  exact ⟨hle, rfl, e, (hall e).mp he, hbudget, ⟨⟨rfl, rfl⟩, rfl⟩, rfl⟩

end Rows

theorem dispatched_of_retriable (h : Retriable db now e = true) :
    (dispatched db now e).status = .failed ∧ (dispatched db now e).errorType = e.errorType ∧
      (dispatched db now e).errorMessage = e.errorMessage := by
  rw [dispatched, if_pos h]
  exact ⟨rfl, by simp [OpsTaskExecution.finish], rfl⟩

theorem dispatched_of_not_retriable (h : Retriable db now e = false) :
    (dispatched db now e).status = .dead := by
  rw [dispatched, if_neg (by simp [h])]
  rfl

theorem dispatched_finished (db : Db) (now : Time) (e : OpsTaskExecution) :
    (dispatched db now e).status.finished = true := by
  unfold dispatched
  split_ifs <;> rfl

/-- Without a cut by the limit. -/
theorem Inv.dispatchedAll (h : Inv kept db) {limit n : ℕ} (hlimit : (dueRetries db now).length ≤ limit)
    (hok : dispatchRetries db now limit = .ok (db', n)) : DispatchedAll db now db' n := by
  have hall : ∀ e, e ∈ db.listDueRetries now limit ↔ DueRetry now e db :=
    fun _ => mem_listDueRetries_iff hlimit
  have hloop := h.dispatched_loop hok
  have hinv' : Chains db' := by
    have hmoves := @dispatchRetries_moves (fun _ _ => none) _ _ _ _ _ hok
    exact (h.moves (by rintro _ ⟨f, -, rfl | rfl | rfl⟩ <;> exact nofun) hmoves).toChains
  have hbudget : ∀ e, ∀ t ∈ db.tasks, t.id = e.taskId →
      (Retriable db now e = true ↔ HasBudget t e now) := fun e t ht hid => by
    rw [retriable_eq ht hid, canRetry_iff, HasBudget]
  have hclosed : ∀ e, DueRetry now e db → dispatched db now e ∈ db'.executions :=
    fun e hdue => (hloop.mem_iff hall).mpr (.inl ⟨e, hdue, rfl⟩)
  -- the attempt after a row that waits for its retry can only be the one that was added
  have hnext : ∀ e, DueRetry now e db → ∀ s ∈ db'.executions, IsNext e s →
      s ∈ Table.keyed db.executions.next (successors db now (db.listDueRetries now limit)) := by
    intro e hdue s hs hisnext
    have hold : ∀ f ∈ db.executions, SameRow f s → False := by
      intro f hf hrow
      have hchain : SameChain e f :=
        ⟨hisnext.1.1.trans hrow.taskId, hisnext.1.2.trans hrow.targetId⟩
      have hle := h.attempt_le_of_open hdue.1 hf hchain (by rw [hdue.2.1]; rfl)
      have hattempt := hrow.attempt.symm.trans hisnext.2
      omega
    rcases (hloop.mem_iff hall).mp hs with ⟨f, hf, rfl⟩ | ⟨hs, -⟩ | hs
    · exact (hold f hf.1 (sameRow_dispatched db now f)).elim
    · exact (hold s hs (.rfl' s)).elim
    · exact hs
  constructor
  · rintro r ⟨hr, hretrying, hdue⟩
    rcases (hloop.mem_iff hall).mp hr with ⟨e, -, rfl⟩ | ⟨hr, hnot⟩ | hr
    · have hfin := dispatched_finished db now e
      simp [hretrying, ExecutionStatus.finished] at hfin
    · exact hnot ⟨hr, hretrying, hdue⟩
    · have hpending := (of_mem_successors hall hr).2.1
      rw [hretrying] at hpending
      cases hpending
  · intro e hdue t ht hid hleft
    have hyes := (hbudget e t ht hid).mpr hleft
    obtain ⟨hfailed, htype, hmessage⟩ := dispatched_of_retriable hyes
    refine ⟨⟨_, hclosed e hdue, sameRow_dispatched db now e, hfailed, htype, hmessage⟩, ?_⟩
    have hmem : nextAttempt e ∈ successors db now (db.listDueRetries now limit) :=
      List.mem_map.mpr ⟨e, List.mem_filter.mpr ⟨(hall e).mpr hdue, hyes⟩, rfl⟩
    obtain ⟨k, hk⟩ := Table.exists_keyed_of_mem (n := db.executions.next) hmem
    have hr := (hloop.mem_iff hall).mpr (.inr (.inr hk))
    have hisnext : IsNext e (Keyed.withKey k (nextAttempt e)) := ⟨⟨rfl, rfl⟩, rfl⟩
    refine ⟨_, hr, Table.le_key_of_mem_keyed hk, rfl, hisnext, rfl, fun s hs hs' => ?_⟩
    exact hinv'.unique s hs _ hr ⟨hs'.1.1.symm.trans hisnext.1.1, hs'.1.2.symm.trans hisnext.1.2⟩
      (hs'.2.trans hisnext.2.symm)
  · intro e hdue t ht hid hleft
    have hno : Retriable db now e = false := Bool.eq_false_iff.mpr (mt (hbudget e t ht hid).mp hleft)
    refine ⟨⟨_, hclosed e hdue, sameRow_dispatched db now e, dispatched_of_not_retriable hno⟩, ?_⟩
    intro s hs hisnext
    obtain ⟨-, -, f, hf, hyes, hnextf, -⟩ := of_mem_successors hall (hnext e hdue s hs hisnext)
    have hchain : SameChain e f := ⟨hisnext.1.1.trans hnextf.1.1.symm, hisnext.1.2.trans hnextf.1.2.symm⟩
    obtain rfl := h.unique e hdue.1 f hf.1 hchain (by have := hisnext.2; have := hnextf.2; omega)
    rw [hno] at hyes
    cases hyes
  · exact fun e he hnot => (hloop.mem_iff hall).mpr (.inr (.inl ⟨he, hnot⟩))
  · intro r hr
    rcases (hloop.mem_iff hall).mp hr with ⟨e, hdue, rfl⟩ | ⟨hr, -⟩ | hr
    · exact .inl ⟨e, hdue.1, sameRow_dispatched db now e⟩
    · exact .inl ⟨r, hr, .rfl' r⟩
    · obtain ⟨hle, -, e, hdue, -, hisnext, -⟩ := of_mem_successors hall hr
      exact .inr ⟨hle, e, hdue, hisnext⟩
  · exact fun t ht hfree => hloop.untouched t ht fun e he => hfree e ((hall e).mp he)
  · rintro t ht ⟨e, hdue, hid⟩
    rw [hloop.aggregated t ht ⟨e, (hall e).mpr hdue, hid⟩]
    have hrow := sameRow_dispatched db now e
    exact hinv'.aggregated_eq ⟨_, hclosed e hdue, hrow.taskId.trans hid⟩
  · refine hloop.count.trans ?_
    rw [hloop.rows, List.filter_append, List.length_append]
    have hold : (db.executions.rows.map
        (settle db now ((db.listDueRetries now limit).map (·.id)))).filter
          (fun r => decide (db.executions.next ≤ r.id)) = [] := by
      rw [List.filter_eq_nil_iff]
      intro r hr
      obtain ⟨e, he, rfl⟩ := List.mem_map.mp hr
      have hlt : e.id < db.executions.next := Table.key_lt he
      simpa using hlt
    have hnew : (Table.keyed db.executions.next (successors db now (db.listDueRetries now limit))).filter
        (fun r => decide (db.executions.next ≤ r.id)) =
          Table.keyed db.executions.next (successors db now (db.listDueRetries now limit)) := by
      rw [List.filter_eq_self]
      exact fun r hr => decide_eq_true (Table.le_key_of_mem_keyed hr)
    rw [hold, hnew]
    simpa using (congrArg List.length (Table.map_keyed (f := OpsTaskExecution.status) (fun _ _ => rfl)
      db.executions.next (successors db now (db.listDueRetries now limit)))).symm

/-- A dispatch whose limit reaches all due rows does exactly what its rows, its tasks and its number
promise, in every state that the engine reaches. -/
theorem dispatchRetries_exact (croniter : CronIter) (servers : Table OpsServer)
    (services : Table OpsServerService) (es : List Event) (horder : Chronological es) (now : Time)
    (limit : ℕ)
    (hlimit : (dueRetries (after croniter servers services es) now).length ≤ limit) :
    ∃ db' n, dispatchRetries (after croniter servers services es) now limit = .ok (db', n) ∧
      DispatchedAll (after croniter servers services es) now db' n := by
  have hinv := (timed_inv_after croniter servers services horder).1
  rcases error_or_ok (dispatchRetries (after croniter servers services es) now limit) with
    ⟨x, herr⟩ | ⟨⟨db', n⟩, hok⟩
  · exact absurd herr hinv.dispatchRetries_ne
  · exact ⟨db', n, hok, hinv.dispatchedAll hlimit hok⟩

/-- The retry of a check that failed with a network error. -/
theorem dispatchRetries_exact_check : ∃ db' n, dispatchRetries
    (after Sample.everyMinute Sample.servers Sample.services Sample.retryingCheck) 7000 50 = .ok (db', n) ∧
      DispatchedAll (after Sample.everyMinute Sample.servers Sample.services Sample.retryingCheck) 7000
        db' n :=
  dispatchRetries_exact _ _ _ Sample.retryingCheck (by decide) 7000 50 (by decide)

end OpsMonitor.Task
