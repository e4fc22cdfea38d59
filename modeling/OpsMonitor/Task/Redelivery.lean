import OpsMonitor.Task.Rows

/-! The same report delivered twice. The guards of `report_result` do not read the clock, so
the second delivery meets the row that the first one left: finished, or waiting for a retry. -/

namespace OpsMonitor.Task
open Library

variable {croniter : CronIter} {now : Time} {db db' : Db} {serverId : ℕ} {data : TaskResultRequest}
  {t : OpsTask} {e : OpsTaskExecution}

/-- What the guards of `report_result` let through: nothing, for a finished execution, or the
execution with its task. -/
def reportTarget (db : Db) (serverId : ℕ) (data : TaskResultRequest) :
    Except Failure (Option (OpsTask × OpsTaskExecution)) :=
  match db.executions.get? data.executionId with
  | none => .error (.app ⟨.taskExecutionNotFound, "执行记录不存在", 404⟩)
  | some execution =>
    if execution.serverId ≠ serverId then
      .error (.app ⟨.taskExecutionNotFound, "执行记录不存在", 404⟩)
    else if execution.status.finished then .ok none
    else do
      let task ← getTaskEntity db execution.taskId
      pure (some (task, execution))

/-- The tables after a report that the guards let through. -/
def reported (db : Db) (now : Time) (data : TaskResultRequest) :
    Option (OpsTask × OpsTaskExecution) → Db
  | none => db
  | some (task, execution) =>
    aggregateTaskStatus (recordResult db now task execution data) now task.id

theorem reportResult_eq (db : Db) (now : Time) (serverId : ℕ) (data : TaskResultRequest) :
    reportResult db now serverId data = (reportTarget db serverId data).map (reported db now data) := by
  unfold reportResult reportTarget
  cases db.executions.get? data.executionId with
  | none => rfl
  | some execution =>
    dsimp only
    split_ifs
    · rfl
    · rfl
    · cases getTaskEntity db execution.taskId <;> rfl

theorem reportTarget_eq_some : reportTarget db serverId data = .ok (some (t, e)) ↔
    e ∈ db.executions ∧ e.id = data.executionId ∧ e.serverId = serverId ∧
      e.status.finished = false ∧ t ∈ db.tasks ∧ t.id = e.taskId := by
  constructor
  · intro h
    unfold reportTarget at h
    cases hget : db.executions.get? data.executionId with
    | none => simp [hget] at h
    | some x =>
      obtain ⟨hx, hid⟩ := Table.get?_eq_some.mp hget
      simp only [hget] at h
      split_ifs at h with hserver hfin
      · simp at h
      · obtain ⟨task, htask, h⟩ := bind_eq_ok.mp h
        obtain ⟨rfl, rfl⟩ := Prod.ext_iff.mp (Option.some.inj (pure_eq_ok.mp h))
        obtain ⟨ht, htid⟩ := getTaskEntity_eq_ok.mp htask
        exact ⟨hx, hid, not_not.mp hserver, Bool.eq_false_iff.mpr hfin, ht, htid⟩
  · rintro ⟨he, hid, rfl, hopen, ht, htid⟩
    have hget : db.executions.get? data.executionId = some e := Table.get?_eq_some.mpr ⟨he, hid⟩
    have htask := getTaskEntity_eq_ok.mpr ⟨ht, htid⟩
    simp [reportTarget, hget, hopen, htask, bind, Except.bind, pure, Except.pure]

theorem reportTarget_eq_none : reportTarget db serverId data = .ok none ↔
    ∃ e ∈ db.executions, e.id = data.executionId ∧ e.serverId = serverId ∧
      e.status.finished = true := by
  constructor
  · intro h
    unfold reportTarget at h
    cases hget : db.executions.get? data.executionId with
    | none => simp [hget] at h
    | some x =>
      obtain ⟨hx, hid⟩ := Table.get?_eq_some.mp hget
      simp only [hget] at h
      split_ifs at h with hserver hfin
      · exact ⟨x, hx, hid, not_not.mp hserver, hfin⟩
      · obtain ⟨task, -, h⟩ := bind_eq_ok.mp h
        cases pure_eq_ok.mp h
  · rintro ⟨e, he, hid, rfl, hfin⟩
    have hget : db.executions.get? data.executionId = some e := Table.get?_eq_some.mpr ⟨he, hid⟩
    simp [reportTarget, hget, hfin]

theorem logs_next_recordResult : (recordResult db now t e data).logs.next = db.logs.next + 1 := by
  unfold recordResult
  dsimp only
  split_ifs <;> rfl

theorem logs_next_reported :
    (reported db now data (some (t, e))).logs.next = db.logs.next + 1 := by
  rw [reported, aggregateTaskStatus_eq]
  exact logs_next_recordResult

/-- The first delivery schedules a retry. -/
def Postpones (db : Db) (now : Time) (serverId : ℕ) (data : TaskResultRequest) : Prop :=
  data.status ≠ "SUCCESS" ∧ Retry.isRetryable data.errorType data.errorMessage = true ∧
    ∃ e ∈ db.executions, e.id = data.executionId ∧ e.serverId = serverId ∧
      e.status.finished = false ∧ ∃ t ∈ db.tasks, t.id = e.taskId ∧ canRetry t e now = true

theorem reportStatus_open : (reportStatus now t e data).finished = false ↔
    data.status ≠ "SUCCESS" ∧ Retry.isRetryable data.errorType data.errorMessage = true ∧
      canRetry t e now = true := by
  unfold reportStatus
  split_ifs <;> simp_all [ExecutionStatus.finished]

theorem postpones_iff (h : reportTarget db serverId data = .ok (some (t, e))) :
    Postpones db now serverId data ↔ (reportStatus now t e data).finished = false := by
  obtain ⟨he, hid, hserver, hopen, ht, htid⟩ := reportTarget_eq_some.mp h
  rw [reportStatus_open]
  constructor
  · rintro ⟨hfail, hretryable, e', he', hid', -, -, t', ht', htid', hretry⟩
    obtain rfl := Table.eq_of_key_eq he' he (hid'.trans hid.symm)
    obtain rfl := Table.eq_of_key_eq ht' ht (htid'.trans htid.symm)
    exact ⟨hfail, hretryable, hretry⟩
  · rintro ⟨hfail, hretryable, hretry⟩
    exact ⟨hfail, hretryable, e, he, hid, hserver, hopen, t, ht, htid, hretry⟩

/-- What the guards find after the report was written. -/
theorem reportTarget_reported (h : reportTarget db serverId data = .ok (some (t, e))) :
    ∃ target, reportTarget (reported db now data (some (t, e))) serverId data = .ok target ∧
      (target = none ↔ (reportStatus now t e data).finished = true) := by
  obtain ⟨he, hid, rfl, hopen, ht, htid⟩ := reportTarget_eq_some.mp h
  have hok : reportResult db now e.serverId data = .ok (reported db now data (some (t, e))) := by
    rw [reportResult_eq, h]
    rfl
  have hmoves := @reportResult_moves (fun _ _ => none) _ _ _ _ _ hok
  obtain ⟨r, hr, hrid, hstatus⟩ := (reportResult_settles hok he).hasStatus
  rw [verdict, if_pos ⟨hid, rfl, hopen⟩, getTask_eq ht htid] at hstatus
  obtain ⟨s, hs, hrow⟩ := hmoves.old_row hr (hrid ▸ Table.key_lt he)
  obtain rfl := Table.eq_of_key_eq hs he (hrow.id.symm.trans hrid)
  obtain ⟨t', ht', htid'⟩ : ∃ t' ∈ (reported db now data (some (t, s))).tasks, t'.id = t.id := by
    rw [reported, aggregateTaskStatus_eq]
    obtain ⟨f, hf, logs, heq, -⟩ := recordResult_eq db now t s data
    rw [heq]
    exact ⟨_, Db.mem_withTask.mpr ⟨t, ht, if_pos rfl⟩, rfl⟩
  cases hfin : (reportStatus now t s data).finished with
  | true =>
    refine ⟨none, reportTarget_eq_none.mpr ⟨r, hr, hrid.trans hid, hrow.serverId, ?_⟩, by simp⟩
    rw [hstatus]
    exact hfin
  | false =>
    refine ⟨some (t', r), reportTarget_eq_some.mpr ⟨hr, hrid.trans hid, hrow.serverId, ?_, ht', ?_⟩,
      by simp⟩
    · rw [hstatus]
      exact hfin
    · rw [htid', htid, hrow.taskId]

/-! ## The second delivery -/

theorem step_report (croniter : CronIter) (db : Db) (now : Time) (serverId : ℕ)
    (data : TaskResultRequest) : step croniter db ⟨now, .reportResult serverId data⟩ =
      match reportTarget db serverId data with
      | .ok target => reported db now data target
      | .error _ => db := by
  rw [step, perform, reportResult_eq]
  cases reportTarget db serverId data <;> rfl

theorem perform_report_error :
    (∃ x, perform croniter db now (.reportResult serverId data) = .error x) ↔
      ∃ x, reportTarget db serverId data = .error x := by
  rw [perform, reportResult_eq]
  cases reportTarget db serverId data with
  | error x => exact ⟨fun _ => ⟨x, rfl⟩, fun _ => ⟨x, rfl⟩⟩
  | ok target =>
    constructor
    · rintro ⟨_, h⟩
      exact absurd h pure_ne_error
    · rintro ⟨_, h⟩
      cases h

/-- The state after a report was delivered. -/
def deliver (croniter : CronIter) (serverId : ℕ) (data : TaskResultRequest) (db : Db) (now : Time) :
    Db :=
  step croniter db ⟨now, .reportResult serverId data⟩

/-- A second delivery changes no execution, no task and no line of the log, and raises only if
the first one did. -/
structure RepeatIsSilent (croniter : CronIter) (db : Db) (t₁ t₂ : Time) (serverId : ℕ)
    (data : TaskResultRequest) : Prop where
  executions : (deliver croniter serverId data (deliver croniter serverId data db t₁) t₂).executions =
    (deliver croniter serverId data db t₁).executions
  tasks : (deliver croniter serverId data (deliver croniter serverId data db t₁) t₂).tasks =
    (deliver croniter serverId data db t₁).tasks
  logs : (deliver croniter serverId data (deliver croniter serverId data db t₁) t₂).logs =
    (deliver croniter serverId data db t₁).logs
  raises : (∃ x, perform croniter (deliver croniter serverId data db t₁) t₂
      (.reportResult serverId data) = .error x) →
    ∃ x, perform croniter db t₁ (.reportResult serverId data) = .error x

theorem deliver_eq_self (h : ∀ p, reportTarget db serverId data ≠ .ok (some p)) (now : Time) :
    deliver croniter serverId data db now = db := by
  rw [deliver, step_report]
  rcases error_or_ok (reportTarget db serverId data) with ⟨x, hx⟩ | ⟨_ | p, hx⟩
  · rw [hx]
  · rw [hx]
    rfl
  · exact absurd hx (h p)

/-- Exactly a report that schedules a retry is not idempotent: the second delivery puts the
retry off and writes another line to the log. -/
theorem repeated_report_silent (croniter : CronIter) (db : Db) (t₁ t₂ : Time) (serverId : ℕ)
    (data : TaskResultRequest) :
    RepeatIsSilent croniter db t₁ t₂ serverId data ↔ ¬ Postpones db t₁ serverId data := by
  by_cases hwrites : ∃ p, reportTarget db serverId data = .ok (some p)
  · obtain ⟨⟨t, e⟩, hfirst⟩ := hwrites
    obtain ⟨target, hsecond, hnone⟩ := @reportTarget_reported t₁ _ _ _ _ _ hfirst
    have hdone : deliver croniter serverId data db t₁ = reported db t₁ data (some (t, e)) := by
      rw [deliver, step_report, hfirst]
    have hagain : deliver croniter serverId data (deliver croniter serverId data db t₁) t₂ =
        reported (deliver croniter serverId data db t₁) t₂ data target := by
      rw [hdone, deliver, step_report, hsecond]
    rw [postpones_iff hfirst, Bool.not_eq_false, ← hnone]
    constructor
    · intro h
      -- a second write would have added a second line to the log
      cases target with
      | none => rfl
      | some p =>
        have hnext := congrArg Table.next h.logs
        rw [hagain, logs_next_reported] at hnext
        omega
    · rintro rfl
      have hsame : deliver croniter serverId data (deliver croniter serverId data db t₁) t₂ =
          deliver croniter serverId data db t₁ := hagain
      refine ⟨by rw [hsame], by rw [hsame], by rw [hsame], fun herr => ?_⟩
      obtain ⟨x, herr⟩ := perform_report_error.mp herr
      rw [hdone, hsecond] at herr
      cases herr
  · have hno : ∀ p, reportTarget db serverId data ≠ .ok (some p) := fun p hp => hwrites ⟨p, hp⟩
    have hself := @deliver_eq_self croniter db serverId data hno
    refine ⟨fun _ hpost => ?_, fun _ => ?_⟩
    · obtain ⟨-, -, e, he, hid, hserver, hopen, t, ht, htid, -⟩ := hpost
      exact hno _ (reportTarget_eq_some.mpr ⟨he, hid, hserver, hopen, ht, htid⟩)
    · refine ⟨by rw [hself t₁, hself t₂], by rw [hself t₁, hself t₂], by rw [hself t₁, hself t₂], ?_⟩
      rw [hself t₁, perform_report_error, perform_report_error]
      exact id

/-- A network error reported twice, a second apart, for the claimed check. -/
theorem network_error_repeated :
    ¬ ∀ (croniter : CronIter) (servers : Table OpsServer) (services : Table OpsServerService)
      (es : List Event), Chronological es → ∀ (serverId : ℕ) (data : TaskResultRequest)
      (t₁ t₂ : Time), (∀ e ∈ es, e.now ≤ t₁) → t₁ ≤ t₂ →
        RepeatIsSilent croniter (after croniter servers services es) t₁ t₂ serverId data := by
  intro h
  have hlogs := (h Sample.everyMinute Sample.servers Sample.services
    [⟨0, .createTask (Sample.check "ONCE") 1 none⟩, ⟨1000, .fetchPending 1⟩] (by decide) 1
    (Sample.networkError 1) 2000 3000 (by decide) (by decide)).logs
  exact absurd (congrArg Table.next hlogs) (by decide)

end OpsMonitor.Task
