import OpsMonitor.Task.AttemptChains

/-! A finished task is closed: its rows are finished, and no later operation writes to it. The
operations do not check this; each one is about a row or a task that is still open. -/

namespace OpsMonitor.Task
open Library

variable {croniter : CronIter} {now : Time} {kept : Prop} {db db' : Db} {t : OpsTask}
  {rows : Set OpsTaskExecution}

/-- What is left of the task is `t`, and what is left of its rows is among `rows`. -/
structure Sealed (t : OpsTask) (rows : Set OpsTaskExecution) (db : Db) : Prop where
  known : t.id < db.tasks.next
  task : ∀ t' ∈ db.tasks, t'.id = t.id → t' = t
  rows_subset : db.rowsOf t.id ⊆ rows

/-- The task with everything it consists of, when it is finished. -/
structure Finished (t : OpsTask) (rows : Set OpsTaskExecution) : Prop where
  task : t.status.finished = true
  rows : ∀ e ∈ rows, e.status.finished = true

namespace Sealed

theorem status_finished (h : Sealed t rows db) (hf : Finished t rows) {s : OpsTask}
    (hs : s ∈ db.tasks) (hid : s.id = t.id) : s.status.finished = true := by
  rw [h.task s hs hid]
  exact hf.task

theorem row_finished (h : Sealed t rows db) (hf : Finished t rows) {s : OpsTask}
    {e : OpsTaskExecution} (he : e ∈ db.rowsOf s.id) (hid : s.id = t.id) :
    e.status.finished = true := hf.rows e (h.rows_subset (hid ▸ he))

theorem open_task_ne (h : Sealed t rows db) (hf : Finished t rows) {s : OpsTask} (hs : s ∈ db.tasks)
    (hopen : s.status.finished = false) : s.id ≠ t.id := by
  intro hid
  have hfin := h.status_finished hf hs hid
  simp [hopen] at hfin

theorem open_row_ne (h : Sealed t rows db) (hf : Finished t rows) {s : OpsTask}
    {e : OpsTaskExecution} (he : e ∈ db.rowsOf s.id) (hopen : e.status.finished = false) :
    s.id ≠ t.id := by
  intro hid
  have hfin := h.row_finished hf he hid
  simp [hopen] at hfin

/-- No move but a cleanup is about the task. -/
theorem taskId_ne (h : Sealed t rows db) (hf : Finished t rows) {act : Act}
    (hm : Move croniter now db act db') (hact : act ≠ .purge) : act.taskId ≠ t.id := by
  cases hm with
  | insert hinsert =>
    obtain ⟨action, serverIds, -, hnew, -⟩ := insertTask_created hinsert
    have hid : (Act.insert _).taskId = db.tasks.next := congrArg OpsTask.id hnew
    rw [hid]
    exact h.known.ne'
  | confirm ht hs => exact h.open_task_ne hf ht (by rw [hs]; rfl)
  | cancel ht hs => exact h.open_task_ne hf ht hs
  | claim ht hs | fire ht hs =>
    refine h.open_task_ne hf ht ?_
    rcases hs with hs | hs <;> rw [hs] <;> rfl
  | report _ he hopen => exact h.open_row_ne hf he hopen
  | expire _ he hstarted =>
    refine h.open_row_ne hf he ?_
    rcases hstarted with hs | hs <;> rw [hs] <;> rfl
  | archive _ _ he hretrying => exact h.open_row_ne hf he (by rw [hretrying]; rfl)
  | retry _ _ he hretrying => exact h.open_row_ne hf he (by rw [hretrying]; rfl)
  | purge => exact absurd rfl hact

theorem purge (h : Sealed t rows db) (cutoff : Time) : Sealed t rows (db.purged cutoff) where
  known := h.known
  task := fun t' ht' => h.task t' (of_mem_deleteFinishedTasksBefore ht').1
  rows_subset := fun _ he => h.rows_subset ⟨(mem_purged.mp he.1).1, he.2⟩

theorem move (h : Sealed t rows db) (hf : Finished t rows) {act : Act}
    (hm : Move croniter now db act db') : Sealed t rows db' := by
  by_cases hact : act = .purge
  · subst hact
    cases hm with
    | purge cutoff => exact h.purge cutoff
  · have hne := (h.taskId_ne hf hm hact).symm
    have htouches := hm.touches hact
    refine ⟨h.known.trans_le hm.tasks_next_le, fun t' ht' hid => ?_, ?_⟩
    · exact h.task t' ((htouches.tasks t' (hid ▸ hne)).mp ht') hid
    · rw [htouches.rows t.id hne]
      exact h.rows_subset

theorem moves (h : Sealed t rows db) (hf : Finished t rows) {P : Act → Prop}
    (hm : Moves croniter now P db db') : Sealed t rows db' := by
  induction hm with
  | refl => exact h
  | tail _ hmove ih =>
    obtain ⟨act, -, hmove⟩ := hmove
    exact ih.move hf hmove

theorem step (h : Sealed t rows db) (hf : Finished t rows) (e : Event) :
    Sealed t rows (step croniter db e) := by
  rcases step_cases croniter db e with ⟨heq, -⟩ | ⟨reply, -, hm⟩
  · rwa [heq]
  · exact h.moves hf hm

end Sealed

theorem sealed_run (hf : Finished t rows) (h : Sealed t rows db) (es : List Event) :
    Sealed t rows (run (step croniter) db es) := by
  induction es using List.reverseRecOn with
  | nil => exact h
  | append_singleton es e ih =>
    rw [run_concat]
    exact ih.step hf e

theorem Inv.finished (h : Inv kept db) (ht : t ∈ db.tasks) (hs : t.status.finished = true) :
    Finished t (db.rowsOf t.id) := ⟨hs, (h.status t ht).finished_rows hs⟩

theorem sealed_self (ht : t ∈ db.tasks) : Sealed t (db.rowsOf t.id) db where
  known := Table.key_lt ht
  task := fun _ ht' hid => Table.eq_of_key_eq ht' ht hid
  rows_subset := subset_rfl

/-! ## Polls and retries -/

/-- A poll hands out rows of tasks that are released and not finished. -/
theorem fetchPending_open {serverId : ℕ} {item : PendingTask}
    (h : item ∈ (fetchPending db now serverId).2) :
    ∃ s ∈ db.tasks, s.id = item.taskId ∧ s.status.finished = false := by
  obtain ⟨e, he, -, htask⟩ := mem_fetchPending h
  obtain ⟨-, -, s, hs, hid, hstatus⟩ := (mem_fetchPendingByServer he).1
  refine ⟨s, hs, hid.trans htask.symm, ?_⟩
  rcases hstatus with hstatus | hstatus <;> rw [hstatus] <;> rfl

/-- A turn of the dispatch finds the task of its execution finished, so that the execution is
archived as failed. -/
def ArchivesWaiting (db : Db) (now : Time) (limit : ℕ) : Prop :=
  ∃ pre e post d n s, db.listDueRetries now limit = pre ++ e :: post ∧
    pre.foldlM (dispatchExecution now) (db, 0) = .ok (d, n) ∧
    getTaskEntity d e.taskId = .ok s ∧ s.status.finished = true

theorem Inv.not_archivesWaiting (h : Inv kept db) (limit : ℕ) : ¬ ArchivesWaiting db now limit := by
  rintro ⟨pre, e, post, d, n, s, hlist, hloop, hget, hfin⟩
  have hdistinct := listDueRetries_distinct db now limit
  have hdue : ∀ f ∈ pre ++ e :: post, DueRetry now f db := fun f hf =>
    mem_listDueRetries (hlist ▸ hf)
  rw [hlist] at hdistinct
  obtain ⟨hpre, -, hlater⟩ := List.pairwise_append.mp hdistinct
  have hdue_pre : ∀ f ∈ pre, DueRetry now f db := fun f hf => hdue f (List.mem_append_left _ hf)
  -- the turns before keep the invariant and the row of this turn
  have hinv : Inv kept d := by
    have hmoves := @dispatchLoop_moves (fun _ _ => none) _ _ _ _ (loop_foldlM hloop) hpre hdue_pre
    refine h.moves ?_ hmoves
    rintro act ⟨f, -, rfl | rfl | rfl⟩ <;> exact nofun
  have he : DueRetry now e d := by
    have hkeep := (loop_foldlM hloop).keeps (G := fun f acc => DueRetry now f acc.1)
      (D := fun f g => f.id ≠ g.id) (b := e)
    exact hkeep (fun f g s s' => dispatchExecution_keeps) hpre hdue_pre
      (fun f hf => hlater f hf e List.mem_cons_self) (hdue e (by simp))
  obtain ⟨hs, hid⟩ := getTaskEntity_eq_ok.mp hget
  have hrow := (hinv.finished hs hfin).rows e ⟨he.1, hid.symm⟩
  rw [he.2.1] at hrow
  cases hrow

/-! ## Runs -/

/-- A one-time check that is claimed and succeeds. -/
def Sample.succeededCheck : List Event :=
  [⟨0, .createTask (check "ONCE") 1 none⟩, ⟨1000, .fetchPending 1⟩,
    ⟨2000, .reportResult 1 ⟨1, "SUCCESS", some 0, some "ok", none, none, none⟩⟩]

/-- Once a task is finished all its rows are finished, and from then on its status and its rows
stay as they are, as far as a cleanup leaves them: no row is added, no poll returns one, and
the dispatch never meets a waiting row of a finished task. -/
theorem finished_task_closed (croniter : CronIter) (servers : Table OpsServer)
    (services : Table OpsServerService) (es later : List Event)
    (horder : Chronological (es ++ later)) (t : OpsTask)
    (ht : t ∈ (after croniter servers services es).tasks) (hfin : t.status.finished = true) :
    let db := after croniter servers services es
    let db' := after croniter servers services (es ++ later)
    (∀ e ∈ db.rowsOf t.id, e.status.finished = true) ∧
      (∀ t' ∈ db'.tasks, t'.id = t.id → t'.status = t.status) ∧
      (∀ e' ∈ db'.rowsOf t.id, ∃ e ∈ db.rowsOf t.id, e.id = e'.id ∧ e'.status = e.status) ∧
      (∀ now serverId, ∀ item ∈ (fetchPending db' now serverId).2, item.taskId ≠ t.id) ∧
      ∀ now limit, ¬ ArchivesWaiting db' now limit := by
  intro db db'
  have hpre : Chronological es := (List.pairwise_append.mp horder).1
  have hinv : Inv False db := (timed_inv_after croniter servers services hpre).1
  have hf := hinv.finished ht hfin
  have hsealed : Sealed t (db.rowsOf t.id) db' := by
    have hrun : db' = run (step croniter) db later := run_append _ _ es later
    rw [hrun]
    exact sealed_run hf (sealed_self ht) later
  refine ⟨hf.rows, fun t' ht' hid => congrArg _ (hsealed.task t' ht' hid), ?_, ?_, ?_⟩
  · exact fun e he => ⟨e, hsealed.rows_subset he, rfl, rfl⟩
  · intro now serverId item hitem hid
    obtain ⟨s, hs, hsid, hopen⟩ := fetchPending_open hitem
    have hclosed := hsealed.status_finished hf hs (hsid.trans hid)
    rw [hopen] at hclosed
    cases hclosed
  · intro now limit
    exact (timed_inv_after croniter servers services horder).1.not_archivesWaiting limit

/-- A check that succeeded is not touched by the poll and the cleanup after it. -/
theorem finished_task_closed_success :
    ∃ t ∈ (after Sample.everyMinute Sample.servers Sample.services Sample.succeededCheck).tasks,
      t.status = .success ∧ ∀ t' ∈ (after Sample.everyMinute Sample.servers Sample.services
          (Sample.succeededCheck ++ [⟨3000, .fetchPending 1⟩, ⟨4000, .cleanupHistory 30⟩])).tasks,
        t'.id = t.id → t'.status = t.status := by
  obtain ⟨t, ht, hs⟩ : ∃ t ∈ (after Sample.everyMinute Sample.servers Sample.services
      Sample.succeededCheck).tasks.rows, t.status = .success := by decide
  have hclosed := finished_task_closed Sample.everyMinute Sample.servers Sample.services
    Sample.succeededCheck [⟨3000, .fetchPending 1⟩, ⟨4000, .cleanupHistory 30⟩]
    (by decide) t ht (by rw [hs]; rfl)
  exact ⟨t, ht, hs, hclosed.2.1⟩

end OpsMonitor.Task
