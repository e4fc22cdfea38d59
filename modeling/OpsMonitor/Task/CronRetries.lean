import OpsMonitor.Task.Rows
import OpsMonitor.Task.Schedule

/-! The retry budget of a CRON batch. The deadline of a task counts from its creation, while the
batch runs when the schedule fires. -/

namespace OpsMonitor.Task
open Library

variable {croniter : CronIter} {now : Time} {kept : Prop} {db db' : Db} {ev : Event}

/-! ## The deadline of a task -/

/-- The deadline is as the creation set it. -/
def Budgeted (t : OpsTask) : Prop :=
  t.deadlineAt = some (t.createdAt + Clock.seconds (t.timeoutSeconds * t.maxAttempts))

theorem Budgeted.congr {t t' : OpsTask} (h : Budgeted t) (hsame : SameTask t t')
    (horder : SameOrder t t') : Budgeted t' := by
  unfold Budgeted at h ⊢
  rw [hsame.deadlineAt, hsame.createdAt, hsame.maxAttempts, ← horder.timeoutSeconds]
  exact h

/-- A task of the new state is an old one, or the one that was inserted. -/
theorem Move.sameTask {act : Act} (hm : Move croniter now db act db') {t' : OpsTask}
    (ht' : t' ∈ db'.tasks) :
    (∃ t ∈ db.tasks, SameTask t t' ∧ SameOrder t t') ∨ t'.id = db.tasks.next ∧ act = .insert t' := by
  refine (hm.order ht').imp_left fun ⟨t, ht, horder⟩ => ?_
  have hlt : t.id < db.tasks.next := Table.key_lt ht
  cases hm.taskOrigin ht' with
  | old hs hsame =>
    obtain rfl := Table.eq_of_key_eq hs ht (hsame.id.symm.trans horder.id.symm)
    exact ⟨_, hs, hsame, horder⟩
  | confirmed hs hsame =>
    obtain rfl := Table.eq_of_key_eq hs ht (hsame.id.symm.trans horder.id.symm)
    exact ⟨_, hs, hsame, horder⟩
  | inserted hid =>
    have heq := horder.id
    omega

theorem Move.budgeted {act : Act} (h : ∀ t ∈ db.tasks, Budgeted t) (hm : Move croniter now db act db') :
    ∀ t ∈ db'.tasks, Budgeted t := by
  intro t' ht'
  rcases hm.sameTask ht' with ⟨t, ht, hsame, horder⟩ | ⟨-, rfl⟩
  · exact (h t ht).congr hsame horder
  · generalize hact : Act.insert t' = act at hm
    cases hm with
    | insert hinsert =>
      obtain rfl := Act.insert.inj hact
      obtain ⟨action, serverIds, -, rfl, -⟩ := insertTask_created hinsert
      rfl
    | _ => cases hact

theorem budgeted_after (servers : Table OpsServer) (services : Table OpsServerService)
    (es : List Event) : ∀ t ∈ (after croniter servers services es).tasks, Budgeted t :=
  run_of_moves (fun _ _ _ _ h hm => hm.budgeted h) (fun t ht => absurd ht (Table.notMem_empty t)) es

/-! ## Tasks and rows along a run -/

/-- The tasks with a number given out before are old ones. -/
def TasksFrom (base db : Db) : Prop :=
  base.tasks.next ≤ db.tasks.next ∧
    ∀ t' ∈ db.tasks, t'.id < base.tasks.next → ∃ t ∈ base.tasks, SameTask t t'

theorem tasksFrom_run (base : Db) (es : List Event) : TasksFrom base (run (step croniter) base es) := by
  refine run_of_moves (I := TasksFrom base) ?_ ⟨le_rfl, fun t ht _ => ⟨t, ht, .rfl' t⟩⟩ es
  rintro now act db db' ⟨hle, hold⟩ hm
  refine ⟨hle.trans hm.tasks_next_le, fun t' ht' hlt => ?_⟩
  rcases hm.sameTask ht' with ⟨t, ht, hsame, -⟩ | ⟨hnew, -⟩
  · obtain ⟨t₀, ht₀, hsame₀⟩ := hold t ht (by rw [← hsame.id]; exact hlt)
    exact ⟨t₀, ht₀, hsame₀.trans hsame⟩
  · omega

/-- A task after some more events, read before them. -/
theorem after_append_sameTask {servers : Table OpsServer} {services : Table OpsServerService}
    {es fs : List Event} {t t' : OpsTask} (ht : t ∈ (after croniter servers services es).tasks)
    (ht' : t' ∈ (after croniter servers services (es ++ fs)).tasks) (hid : t'.id = t.id) :
    SameTask t t' := by
  rw [after, run_append] at ht'
  have hlt : t.id < (after croniter servers services es).tasks.next := Table.key_lt ht
  obtain ⟨s, hs, hsame⟩ := (tasksFrom_run _ fs).2 t' ht' (by rw [hid]; exact hlt)
  rwa [Table.eq_of_key_eq hs ht (hsame.id.symm.trans hid)] at hsame

theorem step_sameRow {e r : OpsTaskExecution} (he : e ∈ db.executions)
    (hr : r ∈ (step croniter db ev).executions) (hid : r.id = e.id) : SameRow e r := by
  have hlt : e.id < db.executions.next := Table.key_lt he
  rcases step_cases croniter db ev with ⟨heq, -⟩ | ⟨reply, -, hm⟩
  · rw [heq] at hr
    rw [Table.eq_of_key_eq hr he hid]
    exact .rfl' e
  · obtain ⟨s, hs, hrow⟩ := hm.old_row hr (by rw [hid]; exact hlt)
    rwa [Table.eq_of_key_eq hs he (hrow.id.symm.trans hid)] at hrow

/-! ## A report and the dispatch of its retry -/

theorem canRetry_first {t : OpsTask} {e : OpsTaskExecution} (ht : Budgeted t)
    (hmax : 2 ≤ t.maxAttempts) (hfirst : e.attempt = 1) : canRetry t e now = true ↔
      now < t.createdAt + Clock.seconds (t.timeoutSeconds * t.maxAttempts) := by
  rw [Budgeted] at ht
  rw [canRetry, if_neg (by omega), ht]
  exact decide_eq_true_iff

/-- Reported with a failure that is worth a retry, a running row waits for it when it may. -/
theorem Inv.retrying_step (h : Inv kept db) {e : OpsTaskExecution} {t : OpsTask}
    {data : TaskResultRequest} (he : e ∈ db.executions) (hopen : e.status.finished = false)
    (ht : t ∈ db.tasks) (hid : t.id = e.taskId) (hdata : data.executionId = e.id)
    (hfailed : data.status ≠ "SUCCESS")
    (hretryable : Retry.isRetryable data.errorType data.errorMessage = true)
    (hretry : canRetry t e now = true) :
    ∃ r ∈ (step croniter db ⟨now, .reportResult e.serverId data⟩).executions,
      r.id = e.id ∧ r.status = .retrying := by
  refine h.status_step he ?_
  rw [verdict, if_pos ⟨hdata.symm, rfl, hopen⟩, getTask_eq ht hid, Option.map_some, reportStatus,
    if_neg hfailed, if_pos hretryable, if_pos hretry]

/-- The dispatch makes the second attempt of a waiting first one when its list has it in time. -/
theorem Inv.second_attempt_iff (h : Inv kept db) {e : OpsTaskExecution} {limit : ℕ}
    (he : e ∈ db.executions) (hretrying : e.status = .retrying) (hfirst : e.attempt = 1) :
    (∃ r ∈ (step croniter db ⟨now, .dispatchRetries limit⟩).executions,
        SameChain e r ∧ r.attempt = 2) ↔ Retries db now limit e := by
  have hopen : e.status.finished = false := by
    rw [hretrying]
    rfl
  constructor
  · rintro ⟨r, hr, hchain, hsecond⟩
    have hlast : ∀ s ∈ db.executions, SameRow s r → False := by
      intro s hs hrow
      have hle := h.attempt_le_of_open he hs
        ⟨hchain.1.trans hrow.taskId, hchain.2.trans hrow.targetId⟩ hopen
      have hattempt := hrow.attempt
      omega
    rcases h.rowOrigin hr with ⟨hr', -⟩ | ⟨hs, hrow, -⟩ | hone | ⟨hcall, -, hs, -, hnext⟩
    · exact (hlast r hr' (.rfl' r)).elim
    · exact (hlast _ hs hrow).elim
    · have hattempt := hone.2.2
      omega
    · obtain rfl := Call.dispatchRetries.inj hcall
      have hattempt := hnext.2
      rwa [← h.unique _ hs.mem e he ⟨hnext.1.1.trans hchain.1.symm, hnext.1.2.trans hchain.2.symm⟩
        (by omega)]
  · intro hretries
    rcases error_or_ok (dispatchRetries db now limit) with ⟨x, herr⟩ | ⟨⟨d, n⟩, hok⟩
    · exact absurd herr h.dispatchRetries_ne
    have hperform : perform croniter db now (.dispatchRetries limit) = .ok (d, .count n) := by
      rw [perform, hok]
      rfl
    obtain ⟨r, hr, hchain, hattempt⟩ := h.exists_inserted hperform hretries
    rw [step_of_ok hperform]
    exact ⟨r, (Table.mem_inserted.mp hr).1, hchain, by rw [hattempt, hfirst]⟩

/-! ## A batch and the retry of one of its executions -/

/-- The run of a CRON batch whose first attempt on some target fails soon, up to the dispatch of
its retry. Between the report and the dispatch nothing is written to the execution. -/
structure FailedBatch (croniter : CronIter) (servers : Table OpsServer)
    (services : Table OpsServerService) where
  before : List Event
  firedAt : Time
  running : List Event
  reportedAt : Time
  data : TaskResultRequest
  waiting : List Event
  dispatchedAt : Time
  limit : ℕ
  task : OpsTask
  execution : OpsTaskExecution
  cron : task ∈ (after croniter servers services before).tasks ∧ task.scheduleType = "CRON" ∧
    2 ≤ task.maxAttempts
  fired : ∃ r ∈ (after croniter servers services (before ++ [⟨firedAt, .fireDueCron⟩])).executions,
    (after croniter servers services before).executions.next ≤ r.id ∧ r.id = execution.id
  claimed : execution ∈ (after croniter servers services
      (before ++ ⟨firedAt, .fireDueCron⟩ :: running)).rowsOf task.id ∧
    execution.status = .running ∧ execution.attempt = 1
  failed : data.executionId = execution.id ∧ data.status ≠ "SUCCESS" ∧
    Retry.isRetryable data.errorType data.errorMessage = true
  soon : reportedAt ≤ firedAt + Clock.seconds task.timeoutSeconds
  due : reportedAt + Clock.seconds (Retry.backoffSeconds 1) ≤ dispatchedAt
  within : dispatchedAt < firedAt + Clock.seconds (task.timeoutSeconds * task.maxAttempts)
  untouched : ∀ r ∈ (after croniter servers services (before ++ ⟨firedAt, .fireDueCron⟩ :: running ++
      [⟨reportedAt, .reportResult execution.serverId data⟩])).executions, r.id = execution.id →
    r ∈ (after croniter servers services (before ++ ⟨firedAt, .fireDueCron⟩ :: running ++
      [⟨reportedAt, .reportResult execution.serverId data⟩] ++ waiting)).executions
  chronological : Chronological (before ++ ⟨firedAt, .fireDueCron⟩ :: running ++
    [⟨reportedAt, .reportResult execution.serverId data⟩] ++ waiting ++
      [⟨dispatchedAt, .dispatchRetries limit⟩])

namespace FailedBatch
variable {servers : Table OpsServer} {services : Table OpsServerService}

section
variable (b : FailedBatch croniter servers services)

def upToReport : List Event := b.before ++ ⟨b.firedAt, .fireDueCron⟩ :: b.running

def report : Event := ⟨b.reportedAt, .reportResult b.execution.serverId b.data⟩

def upToDispatch : List Event := b.upToReport ++ [b.report] ++ b.waiting

def dispatch : Event := ⟨b.dispatchedAt, .dispatchRetries b.limit⟩

/-- The report leaves the execution waiting for a retry. -/
def PutRetrying : Prop :=
  ∃ r ∈ (after croniter servers services (b.upToReport ++ [b.report])).executions,
    r.id = b.execution.id ∧ r.status = .retrying

/-- The dispatch makes the second attempt. -/
def SecondAttempt : Prop :=
  ∃ r ∈ (after croniter servers services (b.upToDispatch ++ [b.dispatch])).executions,
    SameChain b.execution r ∧ r.attempt = 2

/-- The execution is among the due ones that the dispatch reads, `limit` at most. -/
def Listed : Prop :=
  ∃ r ∈ (after croniter servers services b.upToDispatch).listDueRetries b.dispatchedAt b.limit,
    r.id = b.execution.id

end

variable (b : FailedBatch croniter servers services)

theorem reportedAt_le : b.reportedAt ≤ b.dispatchedAt := by
  refine le_trans ?_ b.due
  exact le_add_of_nonneg_right (by unfold Clock.seconds; positivity)

theorem chronological_dispatch : Chronological b.upToDispatch :=
  (List.pairwise_append.mp b.chronological).1

theorem chronological_report : Chronological b.upToReport :=
  (List.pairwise_append.mp (List.pairwise_append.mp b.chronological_dispatch).1).1

/-- The task when the report comes in, or when the dispatch runs. -/
theorem sameTask {es : List Event} {t : OpsTask} {r : OpsTaskExecution}
    (hes : ∃ fs, es = b.before ++ fs) (ht : t ∈ (after croniter servers services es).tasks)
    (hid : t.id = r.taskId) (hrow : SameRow b.execution r) : SameTask b.task t := by
  obtain ⟨fs, rfl⟩ := hes
  exact after_append_sameTask b.cron.1 ht ((hid.trans hrow.taskId).trans b.claimed.1.2)

theorem canRetry_iff {t : OpsTask} {r : OpsTaskExecution} (hsame : SameTask b.task t)
    (hrow : SameRow b.execution r) : canRetry t r now = true ↔
      now < b.task.createdAt + Clock.seconds (b.task.timeoutSeconds * b.task.maxAttempts) := by
  rw [canRetry_congr hsame]
  exact canRetry_first (budgeted_after servers services b.before _ b.cron.1) b.cron.2.2
    (hrow.attempt.trans b.claimed.2.2)

/-- The row that the report leaves is the one that the dispatch finds. -/
theorem stays {r : OpsTaskExecution}
    (hr : r ∈ (after croniter servers services (b.upToReport ++ [b.report])).executions)
    (hid : r.id = b.execution.id) :
    SameRow b.execution r ∧ r ∈ (after croniter servers services b.upToDispatch).executions := by
  have hstep := hr
  rw [after_concat] at hstep
  exact ⟨step_sameRow b.claimed.1.1 hstep hid, b.untouched r hr hid⟩

theorem putRetrying (hlt : b.reportedAt <
      b.task.createdAt + Clock.seconds (b.task.timeoutSeconds * b.task.maxAttempts)) :
    b.PutRetrying := by
  have hinv := (timed_inv_after croniter servers services b.chronological_report).1
  obtain ⟨t, ht, hid, -⟩ := hinv.task_of _ b.claimed.1.1
  have hsame := b.sameTask ⟨_, rfl⟩ ht hid (.rfl' _)
  rw [PutRetrying, after_concat]
  exact hinv.retrying_step b.claimed.1.1 (by rw [b.claimed.2.1]; rfl) ht hid b.failed.1 b.failed.2.1
    b.failed.2.2 ((b.canRetry_iff hsame (.rfl' _)).mpr hlt)

theorem upToDispatch_eq : ∃ fs, b.upToDispatch = b.before ++ fs := by
  refine ⟨⟨b.firedAt, .fireDueCron⟩ :: b.running ++ [b.report] ++ b.waiting, ?_⟩
  simp only [upToDispatch, upToReport, List.append_assoc]

theorem retries_iff {r : OpsTaskExecution} (hrow : SameRow b.execution r)
    (hr : r ∈ (after croniter servers services b.upToDispatch).executions) :
    Retries (after croniter servers services b.upToDispatch) b.dispatchedAt b.limit r ↔
      b.dispatchedAt < b.task.createdAt + Clock.seconds (b.task.timeoutSeconds * b.task.maxAttempts) ∧
        b.Listed := by
  have hinv := (timed_inv_after croniter servers services b.chronological_dispatch).1
  constructor
  · rintro ⟨hlisted, t, hget, hretry⟩
    obtain ⟨ht, hid⟩ := Table.get?_eq_some.mp hget
    exact ⟨(b.canRetry_iff (b.sameTask b.upToDispatch_eq ht hid hrow) hrow).mp hretry,
      r, hlisted, hrow.id⟩
  · rintro ⟨hlt, s, hlisted, hsid⟩
    obtain rfl := Table.eq_of_key_eq (mem_listDueRetries hlisted).1 hr (hsid.trans hrow.id.symm)
    obtain ⟨t, ht, hid, -⟩ := hinv.task_of s hr
    exact ⟨hlisted, t, getTask_eq ht hid,
      (b.canRetry_iff (b.sameTask b.upToDispatch_eq ht hid hrow) hrow).mpr hlt⟩

theorem secondAttempt_iff {r : OpsTaskExecution}
    (hr : r ∈ (after croniter servers services (b.upToReport ++ [b.report])).executions)
    (hid : r.id = b.execution.id) (hretrying : r.status = .retrying) : b.SecondAttempt ↔
      b.dispatchedAt < b.task.createdAt + Clock.seconds (b.task.timeoutSeconds * b.task.maxAttempts) ∧
        b.Listed := by
  have hinv := (timed_inv_after croniter servers services b.chronological_dispatch).1
  obtain ⟨hrow, hstays⟩ := b.stays hr hid
  rw [← b.retries_iff hrow hstays, ← hinv.second_attempt_iff hstays hretrying
    (hrow.attempt.trans b.claimed.2.2), SecondAttempt, after_concat]
  simp only [SameChain, hrow.taskId, hrow.targetId]
  rfl

end FailedBatch

/-- The failed execution of a batch waits for its retry and gets its second attempt exactly when
the dispatch lists it before the deadline, which counts from the creation of the task. -/
theorem cron_batch_retries (croniter : CronIter) (servers : Table OpsServer)
    (services : Table OpsServerService) (b : FailedBatch croniter servers services) :
    b.PutRetrying ∧ b.SecondAttempt ↔
      b.dispatchedAt < b.task.createdAt + Clock.seconds (b.task.timeoutSeconds * b.task.maxAttempts) ∧
        b.Listed := by
  constructor
  · rintro ⟨⟨r, hr, hid, hretrying⟩, hsecond⟩
    exact (b.secondAttempt_iff hr hid hretrying).mp hsecond
  · intro hin
    have hput := b.putRetrying (b.reportedAt_le.trans_lt hin.1)
    obtain ⟨r, hr, hid, hretrying⟩ := hput
    exact ⟨⟨r, hr, hid, hretrying⟩, (b.secondAttempt_iff hr hid hretrying).mpr hin⟩

section Runs
open Sample

/-- A batch that is fired four minutes after the creation of a check with a budget of three. -/
def lateBatch : FailedBatch everyMinute servers services where
  before := [⟨0, .createTask (check "CRON") 1 none⟩, ⟨200000, .confirmTask 1 1⟩]
  firedAt := 240000
  running := [⟨241000, .fetchPending 1⟩]
  reportedAt := 242000
  data := networkError 1
  waiting := []
  dispatchedAt := 247000
  limit := 50
  task := { newTask 0 (check "CRON") .status 1 none with
    id := 1, status := .pending, confirmedBy := some 1, confirmedAt := some 200000 }
  execution := { OpsTaskExecution.initial 1 1 1 1 with
    id := 1, status := .running, startedAt := some 241000 }
  cron := ⟨Table.mem_rows.mp (by decide), rfl, by decide⟩
  fired := by decide
  claimed := ⟨⟨Table.mem_rows.mp (by decide), rfl⟩, rfl, rfl⟩
  failed := ⟨rfl, by decide, by decide +kernel⟩
  soon := by decide
  due := by decide
  within := by decide
  untouched := fun r hr _ => by rwa [List.append_nil]
  chronological := by decide

/-- The first failure of the batch is the end of it. -/
theorem late_batch_not_retried :
    ¬ ∀ (croniter : CronIter) (servers : Table OpsServer) (services : Table OpsServerService)
      (b : FailedBatch croniter servers services), b.PutRetrying ∧ b.SecondAttempt := by
  intro h
  obtain ⟨r, hr, hid, hretrying⟩ := (h everyMinute servers services lateBatch).1
  have hdead : ∀ r ∈ (after everyMinute servers services
      (lateBatch.upToReport ++ [lateBatch.report])).executions, r.id = 1 → r.status = .dead := by
    decide +kernel
  rw [hdead r hr hid] at hretrying
  cases hretrying

end Runs

end OpsMonitor.Task
