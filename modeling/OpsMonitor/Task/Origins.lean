import OpsMonitor.Task.Status

/-! Where the rows and the tasks after a move come from: old ones, perhaps written to, or new
ones with the reason for which they were made. -/

namespace OpsMonitor.Task
open Library

variable {croniter : CronIter} {now : Time} {db db' : Db}

/-! ## Where rows come from -/

/-- A row of the new state: an old one, perhaps written to, or a new attempt. -/
inductive Origin (croniter : CronIter) (now : Time) (db : Db) (r : OpsTaskExecution) : Act → Prop
  | old {act : Act} {s : OpsTaskExecution} (hs : s ∈ db.executions) (hrow : SameRow s r) :
      Origin croniter now db r act
  | inserted {t : OpsTask} (hnew : db.executions.next ≤ r.id) (hid : t.id = db.tasks.next)
      (hrow : r.taskId = t.id) : Origin croniter now db r (.insert t)
  | fired {t : OpsTask} {next : Time} (hnew : db.executions.next ≤ r.id) (ht : t ∈ db.tasks)
      (hs : t.status = .pending ∨ t.status = .created) (hcron : Fireable croniter t next)
      (hrow : r.taskId = t.id) : Origin croniter now db r (.fire t.id)
  | retried {t : OpsTask} {e : OpsTaskExecution} (hnew : db.executions.next ≤ r.id)
      (ht : t ∈ db.tasks) (he : e ∈ db.rowsOf t.id) (hretrying : e.status = .retrying)
      (hdue : ∃ a ∈ e.nextRetryAt, a ≤ now) (hretry : canRetry t e now = true) (hrow : r.taskId = t.id)
      (hattempt : r.attempt = e.attempt + 1) : Origin croniter now db r (.retry t.id)

theorem RowEdit.sameRow {t : OpsTask} (w : RowEdit db now t) {s : OpsTaskExecution}
    (hs : s ∈ db.executions) : SameRow s (w.edit s) := by
  by_cases h : s.taskId = t.id
  · exact (w.step s ⟨hs, h⟩).sameRow
  · rw [w.other s hs h]
    exact .rfl' s

theorem RowEdit.exists_sameRow {t : OpsTask} (w : RowEdit db now t) (logs : Table OpsTaskLog)
    {r : OpsTaskExecution} (hr : r ∈ (w.apply logs).executions) :
    ∃ s ∈ db.executions, SameRow s r := by
  obtain ⟨s, hs, rfl⟩ := List.mem_map.mp hr
  exact ⟨s, hs, w.sameRow hs⟩

theorem RowEdit.of_mem_rowsOf {t : OpsTask} (w : RowEdit db now t) {logs : Table OpsTaskLog}
    {r : OpsTaskExecution} (hr : r ∈ (w.apply logs).rowsOf t.id) :
    ∃ s ∈ db.rowsOf t.id, w.edit s = r := by
  obtain ⟨s, hs, rfl⟩ := List.mem_map.mp hr.1
  exact ⟨s, ⟨hs, (w.sameRow hs).taskId.symm.trans hr.2⟩, rfl⟩

theorem RowEdit.persists {t : OpsTask} (w : RowEdit db now t) (logs : Table OpsTaskLog)
    {s : OpsTaskExecution} (hs : s ∈ db.executions) :
    ∃ r ∈ (w.apply logs).executions, SameRow s r :=
  ⟨w.edit s, List.mem_map.mpr ⟨s, hs, rfl⟩, w.sameRow hs⟩

theorem Move.origin {act : Act} (hm : Move croniter now db act db') {r : OpsTaskExecution}
    (hr : r ∈ db'.executions) : Origin croniter now db r act := by
  have hold : (∃ s ∈ db.executions, SameRow s r) → Origin croniter now db r act :=
    fun ⟨s, hs, hrow⟩ => .old hs hrow
  cases hm with
  | insert hinsert =>
    obtain ⟨action, serverIds, -, rfl, rfl⟩ := insertTask_created hinsert
    split_ifs at hr
    · rcases Table.mem_insertAll.mp hr with hr | hr
      · exact .old hr (.rfl' r)
      · exact .inserted (Table.le_key_of_mem_keyed hr) rfl (mem_firstAttempts hr).1
    · exact .old hr (.rfl' r)
  | confirm => exact .old hr (.rfl' r)
  | cancel _ _ w =>
    rw [executions_aggregate] at hr
    exact hold (w.exists_sameRow _ hr)
  | claim _ _ he hpending => exact hold ((claimEdit now he hpending).exists_sameRow db.logs hr)
  | report _ _ _ w logs | expire _ _ _ w logs =>
    rw [executions_aggregate] at hr
    exact hold (w.exists_sameRow _ hr)
  | archive _ _ _ _ w => exact hold (w.exists_sameRow _ hr)
  | retry ht hs he hretrying hdue hretry w _ _ logs =>
    rw [executions_aggregate] at hr
    rcases Table.mem_insert.mp hr with hr | rfl
    · exact hold (w.exists_sameRow _ hr)
    · exact .retried le_rfl ht he hretrying hdue hretry he.2 rfl
  | fire ht hs hcron =>
    rcases Table.mem_insertAll.mp hr with hr | hr
    · exact .old hr (.rfl' r)
    · exact .fired (Table.le_key_of_mem_keyed hr) ht hs hcron (mem_firstAttempts hr).1
  | purge => exact .old (mem_purged.mp hr).1 (.rfl' r)

/-- A move other than a cleanup keeps every row, perhaps written to. -/
theorem Move.row_persists {act : Act} (hm : Move croniter now db act db') (hact : act ≠ .purge)
    {s : OpsTaskExecution} (hs : s ∈ db.executions) : ∃ r ∈ db'.executions, SameRow s r := by
  cases hm with
  | insert hinsert =>
    obtain ⟨action, serverIds, -, rfl, rfl⟩ := insertTask_created hinsert
    refine ⟨s, ?_, .rfl' s⟩
    split_ifs
    · exact Table.mem_insertAll.mpr (.inl hs)
    · exact hs
  | confirm => exact ⟨s, hs, .rfl' s⟩
  | cancel _ _ w =>
    rw [executions_aggregate]
    exact w.persists _ hs
  | claim _ _ he hpending => exact (claimEdit now he hpending).persists db.logs hs
  | report _ _ _ w logs | expire _ _ _ w logs =>
    rw [executions_aggregate]
    exact w.persists _ hs
  | archive _ _ _ _ w => exact w.persists _ hs
  | retry _ _ _ _ _ _ w _ _ logs =>
    rw [executions_aggregate]
    exact (w.persists logs hs).imp fun r hr => ⟨Table.mem_insert.mpr (.inl hr.1), hr.2⟩
  | fire => exact ⟨s, Table.mem_insertAll.mpr (.inl hs), .rfl' s⟩
  | purge => exact absurd rfl hact

theorem Move.executions_next_le {act : Act} (hm : Move croniter now db act db') :
    db.executions.next ≤ db'.executions.next := by
  cases hm with
  | insert hinsert =>
    obtain ⟨action, serverIds, -, rfl, rfl⟩ := insertTask_created hinsert
    split_ifs
    · exact (Nat.le_add_right _ _).trans (Table.next_insertAll _ _).ge
    · exact le_rfl
  | cancel | report | expire =>
    rw [executions_aggregate]
    exact le_rfl
  | retry =>
    rw [executions_aggregate]
    exact Nat.le_succ _
  | fire => exact (Nat.le_add_right _ _).trans (Table.next_insertAll _ _).ge
  | confirm | claim | archive | purge => exact le_rfl

theorem Moves.executions_next_le {P : Act → Prop} (hm : Moves croniter now P db db') :
    db.executions.next ≤ db'.executions.next := by
  induction hm with
  | refl => exact le_rfl
  | tail _ hmove ih =>
    obtain ⟨act, -, hmove⟩ := hmove
    exact ih.trans hmove.executions_next_le

theorem step_executions_next_le (croniter : CronIter) (db : Db) (ev : Event) :
    db.executions.next ≤ (step croniter db ev).executions.next := by
  rcases step_cases croniter db ev with ⟨heq, -⟩ | ⟨reply, -, hm⟩
  · rw [heq]
  · exact Moves.executions_next_le hm

/-- A row with a number given out before is an old one, perhaps written to. -/
theorem Moves.old_row {P : Act → Prop} (hm : Moves croniter now P db db') {r : OpsTaskExecution}
    (hr : r ∈ db'.executions) (hlt : r.id < db.executions.next) :
    ∃ s ∈ db.executions, SameRow s r := by
  induction hm generalizing r with
  | refl => exact ⟨r, hr, .rfl' r⟩
  | tail hmoves hmove ih =>
    obtain ⟨act, -, hmove⟩ := hmove
    have hle := Moves.executions_next_le hmoves
    cases hmove.origin hr with
    | old hs hrow =>
      obtain ⟨s', hs', hrow'⟩ := ih hs (hrow.id ▸ hlt)
      exact ⟨s', hs', hrow'.trans hrow⟩
    | inserted hnew | fired hnew | retried hnew => omega

/-! ## Where tasks come from -/

/-- Created directly as `PENDING`: not scheduled, and nobody has to confirm. -/
def NeedsNoConfirmation (t : OpsTask) : Prop :=
  t.scheduleType ≠ "CRON" ∧ t.confirmationRequired = false

/-- A task of the new state: an old one after a write, or a new one. -/
inductive TaskOrigin (db : Db) (t' : OpsTask) : Act → Prop
  | old {act : Act} {t : OpsTask} (ht : t ∈ db.tasks) (hsame : SameTask t t')
      (hconfirmed : t'.confirmedBy = t.confirmedBy) : TaskOrigin db t' act
  | confirmed {t : OpsTask} (ht : t ∈ db.tasks) (hsame : SameTask t t')
      (hs : t.status = .created) : TaskOrigin db t' (.confirm t.id)
  | inserted (hid : t'.id = db.tasks.next) (hconfirmed : t'.confirmedBy = none)
      (hs : t'.status = .created ∨ NeedsNoConfirmation t' ∧ t'.status = .pending)
      (hdeadline : t'.deadlineAt.isSome = true) : TaskOrigin db t' (.insert t')

theorem exists_of_mem_withTask {id : ℕ} {f : OpsTask → OpsTask}
    {hf : ∀ t, Keyed.key (f t) = Keyed.key t} {t' : OpsTask}
    (ht' : t' ∈ (db.withTask id f hf).tasks) (hsame : ∀ t, SameTask t (f t))
    (hconf : ∀ t, (f t).confirmedBy = t.confirmedBy) :
    ∃ t ∈ db.tasks, SameTask t t' ∧ t'.confirmedBy = t.confirmedBy := by
  obtain ⟨t, ht, rfl⟩ := Db.mem_withTask.mp ht'
  refine ⟨t, ht, ?_⟩
  split_ifs
  · exact ⟨hsame t, hconf t⟩
  · exact ⟨.rfl' t, rfl⟩

theorem exists_of_mem_aggregate {taskId : ℕ} {t' : OpsTask}
    (ht' : t' ∈ (aggregateTaskStatus db now taskId).tasks) :
    ∃ t ∈ db.tasks, SameTask t t' ∧ t'.confirmedBy = t.confirmedBy := by
  rw [aggregateTaskStatus_eq] at ht'
  exact exists_of_mem_withTask ht' (fun _ => ⟨rfl, rfl, rfl, rfl, rfl, rfl, rfl⟩) fun _ => rfl

theorem newTask_status (now : Time) (data : TaskCreate) (action : Action) (creatorId : ℕ)
    (key : Option String) :
    (newTask now data action creatorId key).status = .created ∨
      NeedsNoConfirmation (newTask now data action creatorId key) ∧
        (newTask now data action creatorId key).status = .pending := by
  unfold newTask NeedsNoConfirmation
  dsimp only
  split_ifs with h
  · exact .inl rfl
  · rw [not_or] at h
    exact .inr ⟨⟨h.1, Bool.eq_false_iff.mpr h.2⟩, rfl⟩

theorem Move.taskOrigin {act : Act} (hm : Move croniter now db act db') {t' : OpsTask}
    (ht' : t' ∈ db'.tasks) : TaskOrigin db t' act := by
  have hold : (∃ t ∈ db.tasks, SameTask t t' ∧ t'.confirmedBy = t.confirmedBy) →
      TaskOrigin db t' act := fun ⟨t, ht, hsame, hconf⟩ => .old ht hsame hconf
  cases hm with
  | @insert data creatorId key _ _ hinsert =>
    obtain ⟨action, serverIds, -, rfl, rfl⟩ := insertTask_created hinsert
    rcases Table.mem_insert.mp ht' with ht' | rfl
    · exact .old ht' (.rfl' t') rfl
    · exact .inserted rfl rfl (newTask_status now data action creatorId key) rfl
  | confirm ht hs =>
    obtain ⟨t, ht₁, rfl⟩ := Db.mem_withTask.mp ht'
    split_ifs with h
    · obtain rfl := Table.eq_of_key_eq ht₁ ht h
      exact .confirmed ht ⟨rfl, rfl, rfl, rfl, rfl, rfl, rfl⟩ hs
    · exact .old ht₁ (.rfl' t) rfl
  | cancel | report | expire =>
    have h := exists_of_mem_aggregate ht'
    exact hold h
  | claim | fire =>
    exact hold (exists_of_mem_withTask ht' (fun _ => ⟨rfl, rfl, rfl, rfl, rfl, rfl, rfl⟩)
      fun _ => rfl)
  | archive => exact .old ht' (.rfl' t') rfl
  | retry =>
    obtain ⟨t, ht, hsame, hconf⟩ := exists_of_mem_aggregate ht'
    rw [Db.tasks_resetTarget] at ht
    obtain ⟨s, hs, hsame', hconf'⟩ :=
      exists_of_mem_withTask ht (fun _ => ⟨rfl, rfl, rfl, rfl, rfl, rfl, rfl⟩) fun _ => rfl
    exact .old hs (hsame'.trans hsame) (hconf.trans hconf')
  | purge => exact .old (of_mem_deleteFinishedTasksBefore ht').1 (.rfl' t') rfl

theorem Move.tasks_next_le {act : Act} (hm : Move croniter now db act db') :
    db.tasks.next ≤ db'.tasks.next := by
  cases hm with
  | insert hinsert =>
    obtain ⟨action, serverIds, -, rfl, rfl⟩ := insertTask_created hinsert
    exact Nat.le_succ _
  | cancel | report | expire | retry =>
    rw [aggregateTaskStatus_eq]
    exact le_rfl
  | confirm | claim | archive | fire | purge => exact le_rfl

/-! ## What a task orders -/

/-- The columns that say what a task orders; no write changes them. -/
structure SameOrder (s r : OpsTask) : Prop where
  id : s.id = r.id
  action : s.action = r.action
  serviceName : s.serviceName = r.serviceName
  timeoutSeconds : s.timeoutSeconds = r.timeoutSeconds

theorem SameOrder.rfl' (t : OpsTask) : SameOrder t t := ⟨rfl, rfl, rfl, rfl⟩

theorem SameOrder.trans {r s t : OpsTask} (h : SameOrder r s) (h' : SameOrder s t) :
    SameOrder r t :=
  ⟨h.id.trans h'.id, h.action.trans h'.action, h.serviceName.trans h'.serviceName,
    h.timeoutSeconds.trans h'.timeoutSeconds⟩

theorem sameOrder_of_mem_withTask {id : ℕ} {f : OpsTask → OpsTask}
    {hf : ∀ t, Keyed.key (f t) = Keyed.key t} {t' : OpsTask}
    (ht' : t' ∈ (db.withTask id f hf).tasks) (hsame : ∀ t, SameOrder t (f t)) :
    ∃ t ∈ db.tasks, SameOrder t t' := by
  obtain ⟨t, ht, rfl⟩ := Db.mem_withTask.mp ht'
  refine ⟨t, ht, ?_⟩
  split_ifs
  · exact hsame t
  · exact .rfl' t

theorem Move.order {act : Act} (hm : Move croniter now db act db') {t' : OpsTask}
    (ht' : t' ∈ db'.tasks) :
    (∃ t ∈ db.tasks, SameOrder t t') ∨ t'.id = db.tasks.next ∧ act = .insert t' := by
  cases hm with
  | insert hinsert =>
    obtain ⟨action, serverIds, -, rfl, rfl⟩ := insertTask_created hinsert
    rcases Table.mem_insert.mp ht' with ht' | rfl
    · exact .inl ⟨t', ht', .rfl' t'⟩
    · exact .inr ⟨rfl, rfl⟩
  | confirm | claim | fire =>
    exact .inl (sameOrder_of_mem_withTask ht' fun _ => ⟨rfl, rfl, rfl, rfl⟩)
  | cancel | report | expire =>
    rw [aggregateTaskStatus_eq] at ht'
    exact .inl (sameOrder_of_mem_withTask ht' fun _ => ⟨rfl, rfl, rfl, rfl⟩)
  | archive => exact .inl ⟨t', ht', .rfl' t'⟩
  | retry =>
    rw [aggregateTaskStatus_eq] at ht'
    obtain ⟨t₁, ht₁, hsame₁⟩ := sameOrder_of_mem_withTask ht' fun _ => ⟨rfl, rfl, rfl, rfl⟩
    rw [Db.tasks_resetTarget] at ht₁
    obtain ⟨t, ht, hsame⟩ := sameOrder_of_mem_withTask ht₁ fun _ => ⟨rfl, rfl, rfl, rfl⟩
    exact .inl ⟨t, ht, hsame.trans hsame₁⟩
  | purge => exact .inl ⟨t', (of_mem_deleteFinishedTasksBefore ht').1, .rfl' t'⟩

/-- A task with a number given out before orders what it did. -/
theorem Moves.order {P : Act → Prop} (hm : Moves croniter now P db db') {t' : OpsTask}
    (ht' : t' ∈ db'.tasks) (hlt : t'.id < db.tasks.next) : ∃ t ∈ db.tasks, SameOrder t t' := by
  suffices hboth : db.tasks.next ≤ db'.tasks.next ∧
      ∀ t' ∈ db'.tasks, t'.id < db.tasks.next → ∃ t ∈ db.tasks, SameOrder t t' from
    hboth.2 t' ht' hlt
  clear ht' hlt
  induction hm with
  | refl => exact ⟨le_rfl, fun t ht _ => ⟨t, ht, .rfl' t⟩⟩
  | tail _ hmove ih =>
    obtain ⟨act, -, hmove⟩ := hmove
    refine ⟨ih.1.trans hmove.tasks_next_le, fun t' ht' hlt => ?_⟩
    rcases hmove.order ht' with ⟨t₁, ht₁, hsame₁⟩ | ⟨hnew, -⟩
    · obtain ⟨t, ht, hsame⟩ := ih.2 t₁ ht₁ (hsame₁.id ▸ hlt)
      exact ⟨t, ht, hsame.trans hsame₁⟩
    · have hle := ih.1
      omega

end OpsMonitor.Task
