import OpsMonitor.Task.Justification

/-! One agent at work (`agent/worker.py`, `agent-go/internal/worker`). It executes what a poll
hands it one after another, but the server stamps the start of all of it at the poll, so an
execution that waits for its turn uses up its own time limit. -/

namespace OpsMonitor.Task
open Library

/-! ## The agent -/

/-- An execution that the agent was handed, with the instant at which its action finishes. -/
structure Job where
  item : PendingTask
  finishAt : Time
  deriving DecidableEq

/-- `for task in pending`: an action starts when the one before is reported. -/
def agenda (duration : ℕ → ℕ) : Time → List PendingTask → List Job
  | _, [] => []
  | now, item :: items =>
    ⟨item, now + duration item.executionId⟩ ::
      agenda duration (now + duration item.executionId) items

/-- The database and what the agent of one server still has to execute. -/
structure Site where
  db : Db
  jobs : List Job

section Agent
variable (croniter : CronIter) (duration : ℕ → ℕ) (serverId : ℕ)

def Site.step (s : Site) (ev : Event) : Site where
  db := Task.step croniter s.db ev
  jobs :=
    match ev.call with
    | .fetchPending n =>
      if n = serverId then agenda duration ev.now (fetchPending s.db ev.now n).2 else s.jobs
    | .reportResult n _ => if n = serverId then s.jobs.tail else s.jobs
    | _ => s.jobs

/-- The site after the events `es`, from a database without tasks. -/
def siteAfter (servers : Table OpsServer) (services : Table OpsServerService) (es : List Event) :
    Site := run (Site.step croniter duration serverId) ⟨.fresh servers services, []⟩ es

/-- The agent polls when it has executed everything, and reports each action when it finishes.
Nothing is assumed of the other calls. -/
structure Works (s : Site) (ev : Event) : Prop where
  poll : ev.call = .fetchPending serverId → s.jobs = []
  report : ∀ data, ev.call = .reportResult serverId data →
    ∃ job ∈ s.jobs.head?, job.item.executionId = data.executionId ∧ ev.now = job.finishAt
  punctual : ∀ job ∈ s.jobs.head?, ev.now ≤ job.finishAt

/-- Every action that a poll hands out finishes within its time limit, counted from the
moment the agent starts it. -/
def KeepsLimits (s : Site) (ev : Event) : Prop :=
  ev.call = .fetchPending serverId → ∀ item ∈ (fetchPending s.db ev.now serverId).2,
    (duration item.executionId : Time) ≤ Clock.seconds item.timeoutSeconds

/-- Every execution that a poll hands out finishes within its time limit, counted from the
poll: the actions up to it together take no longer than its own `timeout_seconds`. -/
def InTime (s : Site) (ev : Event) : Prop :=
  ev.call = .fetchPending serverId →
    ∀ job ∈ agenda duration ev.now (fetchPending s.db ev.now serverId).2,
      job.finishAt ≤ ev.now + Clock.seconds job.item.timeoutSeconds

end Agent

/-- What a report leaves as the outcome of its execution. A failure may still wait for the
dispatch of its retry, which closes it as `FAILED`. -/
def Recorded (data : TaskResultRequest) (s : ExecutionStatus) : Prop :=
  if data.status = "SUCCESS" then s = .success else s ∈ [.failed, .retrying, .dead]

section Agenda
variable {duration : ℕ → ℕ} {now : Time} {items : List PendingTask}

theorem map_item_agenda (duration : ℕ → ℕ) (now : Time) (items : List PendingTask) :
    (agenda duration now items).map (·.item) = items := by
  induction items generalizing now with
  | nil => rfl
  | cons item items ih => rw [agenda, List.map_cons, ih]

theorem le_finishAt {job : Job} (h : job ∈ agenda duration now items) : now ≤ job.finishAt := by
  induction items generalizing now with
  | nil => cases h
  | cons item items ih =>
    have hle : now ≤ now + duration item.executionId :=
      le_add_of_nonneg_right (Int.natCast_nonneg _)
    rcases List.mem_cons.mp h with rfl | h
    · exact hle
    · exact hle.trans (ih h)

theorem agenda_sorted (duration : ℕ → ℕ) (now : Time) (items : List PendingTask) :
    (agenda duration now items).Pairwise fun i j => i.finishAt ≤ j.finishAt := by
  induction items generalizing now with
  | nil => exact .nil
  | cons item items ih => exact List.pairwise_cons.mpr ⟨fun _ => le_finishAt, ih _⟩

theorem map_executionId_agenda (duration : ℕ → ℕ) (now : Time) (items : List PendingTask) :
    (agenda duration now items).map (·.item.executionId) = items.map (·.executionId) := by
  have h := congrArg (List.map (·.executionId)) (map_item_agenda duration now items)
  rwa [List.map_map] at h

end Agenda

/-! ## The executions the agent has -/

/-- The row of an execution that the agent still has to report. -/
structure Holds (serverId : ℕ) (db : Db) (job : Job) (r : OpsTaskExecution) : Prop where
  mem : r ∈ db.executions
  id : r.id = job.item.executionId
  server : r.serverId = serverId
  running : r.status = .running
  limit : ∃ a ∈ r.startedAt, job.finishAt ≤ a + Clock.seconds job.item.timeoutSeconds
  task : ∀ t ∈ db.tasks, t.id = r.taskId → t.timeoutSeconds = job.item.timeoutSeconds

/-- The agent has exactly the running executions of its server. -/
structure Busy (serverId : ℕ) (s : Site) : Prop where
  sorted : s.jobs.Pairwise fun i j => i.finishAt ≤ j.finishAt
  distinct : (s.jobs.map (·.item.executionId)).Nodup
  rows : ∀ job ∈ s.jobs, ∃ r, Holds serverId s.db job r
  running : ∀ r ∈ s.db.executions, r.serverId = serverId → r.status = .running →
    ∃ job ∈ s.jobs, Holds serverId s.db job r
  not_timeout : ∀ r ∈ s.db.executions, r.serverId = serverId → r.status ≠ .timeout

variable {croniter : CronIter} {kept : Prop} {duration : ℕ → ℕ} {serverId : ℕ} {s : Site} {ev : Event}

theorem Busy.start (servers : Table OpsServer) (services : Table OpsServerService) :
    Busy serverId ⟨.fresh servers services, []⟩ where
  sorted := .nil
  distinct := .nil
  rows := nofun
  running := fun r hr => absurd hr (Table.notMem_empty r)
  not_timeout := fun r hr => absurd hr (Table.notMem_empty r)

/-- Nothing the agent has is overdue. -/
theorem Busy.now_le (h : Busy serverId s) (hworks : Works serverId s ev) {job : Job}
    (hjob : job ∈ s.jobs) : ev.now ≤ job.finishAt := by
  have hpunctual := hworks.punctual
  have hsorted := h.sorted
  cases hjobs : s.jobs with
  | nil =>
    rw [hjobs] at hjob
    cases hjob
  | cons first rest =>
    rw [hjobs] at hjob hpunctual hsorted
    have hfirst := hpunctual first rfl
    rcases List.mem_cons.mp hjob with rfl | hjob
    · exact hfirst
    · exact hfirst.trans ((List.pairwise_cons.mp hsorted).1 job hjob)

/-- Only its own report decides about an execution of the agent. -/
theorem Busy.verdict_eq_none (h : Busy serverId s) (hworks : Works serverId s ev) {job : Job}
    (hjob : job ∈ s.jobs) {r : OpsTaskExecution} (hr : Holds serverId s.db job r)
    (hother : ¬ ReportOn r ev) : verdict s.db ev.now r ev.call = none := by
  have hne : ∀ status : ExecutionStatus, status ≠ .running → r.status ≠ status := by
    rintro status hstatus rfl
    exact hstatus hr.running
  cases hcall : ev.call with
  | reportResult n data =>
    refine if_neg ?_
    rintro ⟨hid, rfl, -⟩
    exact hother ⟨data, hcall, hid.symm⟩
  | scanTimeouts =>
    refine if_neg ?_
    rintro ⟨t, hget, -, hexpired⟩
    obtain ⟨ht, htid⟩ := Table.get?_eq_some.mp hget
    obtain ⟨a, ha, hlimit⟩ := hr.limit
    have hnow := h.now_le hworks hjob
    have hlate : a < ev.now - Clock.seconds t.timeoutSeconds := by
      have hstarted : r.startedAt = some a := ha
      rw [OpsTaskExecution.isExpired, hr.running, hstarted] at hexpired
      exact of_decide_eq_true hexpired
    rw [hr.task t ht htid] at hlate
    exact absurd (hnow.trans hlimit) (not_le.mpr (lt_sub_iff_add_lt.mp hlate))
  | cancelTask taskId => exact if_neg fun hc => hne .pending nofun hc.2.1
  | fetchPending n => exact if_neg fun hc => hne .pending nofun (mem_fetchPendingByServer hc).1.2.1
  | dispatchRetries limit => exact if_neg fun hc => hne .retrying nofun (mem_listDueRetries hc).2.1
  | createTask | confirmTask | fireDueCron | cleanupHistory => rfl

theorem Inv.timeoutSeconds_step (h : Inv kept s.db) {r : OpsTaskExecution}
    (hr : r ∈ s.db.executions) {n : ℕ}
    (hold : ∀ t ∈ s.db.tasks, t.id = r.taskId → t.timeoutSeconds = n) :
    ∀ t ∈ (step croniter s.db ev).tasks, t.id = r.taskId → t.timeoutSeconds = n := by
  intro t' ht' hid
  rcases step_cases croniter s.db ev with ⟨heq, -⟩ | ⟨reply, -, hm⟩
  · rw [heq] at ht'
    exact hold t' ht' hid
  · obtain ⟨t₀, ht₀, hid₀, -⟩ := h.task_of r hr
    have hlt : t'.id < s.db.tasks.next := by
      rw [hid, ← hid₀]
      exact Table.key_lt ht₀
    obtain ⟨t, ht, hsame⟩ := hm.order ht' hlt
    rw [← hsame.timeoutSeconds]
    exact hold t ht (hsame.id.trans hid)

theorem Holds.next {job : Job} {r : OpsTaskExecution} (hr : Holds serverId s.db job r)
    (h : Inv kept s.db) (hnone : verdict s.db ev.now r ev.call = none) :
    Holds serverId (step croniter s.db ev) job r where
  mem := h.row_stays hr.mem (by rw [hr.running]; rfl) hnone
  id := hr.id
  server := hr.server
  running := hr.running
  limit := hr.limit
  task := h.timeoutSeconds_step hr.mem hr.task

/-! ## One event -/

/-- The rows behind an agenda, before the poll. -/
theorem exists_row_of_agenda {db : Db} {now : Time} {job : Job}
    (hjob : job ∈ agenda duration now (fetchPending db now serverId).2) :
    ∃ e ∈ db.fetchPendingByServer serverId 10, e.id = job.item.executionId ∧
      ∀ t ∈ db.tasks, t.id = e.taskId → t.timeoutSeconds = job.item.timeoutSeconds := by
  have hitem : job.item ∈ (fetchPending db now serverId).2 := by
    rw [← map_item_agenda duration now (fetchPending db now serverId).2]
    exact List.mem_map_of_mem hjob
  obtain ⟨e, he, t, ht, hid, heq⟩ := mem_fetchPending_task hitem
  refine ⟨e, he, by rw [heq], fun t' ht' hid' => ?_⟩
  rw [Table.eq_of_key_eq ht' ht (hid'.trans hid.symm), heq]

theorem exists_job_of_row {db : Db} {now : Time} {e : OpsTaskExecution}
    (he : e ∈ db.fetchPendingByServer serverId 10) :
    ∃ job ∈ agenda duration now (fetchPending db now serverId).2,
      job.item.executionId = e.id := by
  have hids : e.id ∈ (agenda duration now (fetchPending db now serverId).2).map
      (·.item.executionId) := by
    rw [map_executionId_agenda, fetchPending_ids]
    exact List.mem_map_of_mem he
  exact List.mem_map.mp hids

theorem Inv.holds_of_poll (h : Inv kept s.db) (hcall : ev.call = .fetchPending serverId)
    (hin : InTime duration serverId s ev) {job : Job}
    (hjob : job ∈ agenda duration ev.now (fetchPending s.db ev.now serverId).2) :
    ∃ r, Holds serverId (step croniter s.db ev) job r := by
  obtain ⟨e, he, hid, htask⟩ := exists_row_of_agenda hjob
  obtain ⟨⟨hmem, -⟩, hserver⟩ := mem_fetchPendingByServer he
  have hstep : step croniter s.db ev = (fetchPending s.db ev.now serverId).1 := by
    rw [step, hcall]
    rfl
  refine ⟨e.markRunning ev.now, ?_, hid, hserver, rfl, ⟨ev.now, rfl, hin hcall job hjob⟩,
    h.timeoutSeconds_step hmem htask⟩
  rw [hstep]
  exact fetchPending_row he

/-- A running row of the server after an event was just handed out, or was running before and
not reported. -/
theorem Inv.running_cases (h : Inv kept s.db) {r : OpsTaskExecution}
    (hr : r ∈ (step croniter s.db ev).executions) (hserver : r.serverId = serverId)
    (hrunning : r.status = .running) :
    (ev.call = .fetchPending serverId ∧ ∃ e ∈ s.db.fetchPendingByServer serverId 10, e.id = r.id) ∨
      r ∈ s.db.executions ∧ ¬ ReportOn r ev := by
  rcases h.rowOrigin hr with ⟨hr, hnone⟩ | ⟨-, hrow, hdec⟩ | ⟨-, hpending, -⟩ | ⟨-, -, -, hpending, -⟩
  · have hother : ¬ ReportOn r ev := fun hon =>
      h.verdict_of_reportOn hr (by rw [hrunning]; rfl) hon hnone
    exact .inr ⟨hr, hother⟩
  · obtain ⟨hcall, he⟩ := hdec.of_running hrunning
    rw [← hrow.serverId, hserver] at hcall he
    exact .inl ⟨hcall, _, he, hrow.id.symm⟩
  · rw [hpending] at hrunning
    cases hrunning
  · rw [hpending] at hrunning
    cases hrunning

theorem Busy.not_timeout_step (h : Busy serverId s) (hinv : Inv kept s.db)
    (hworks : Works serverId s ev) :
    ∀ r ∈ (step croniter s.db ev).executions, r.serverId = serverId → r.status ≠ .timeout := by
  intro r hr hserver htimeout
  rcases hinv.rowOrigin hr with
    ⟨hr, -⟩ | @⟨e, hs, hrow, hdec⟩ | ⟨-, hpending, -⟩ | ⟨-, -, -, hpending, -⟩
  · exact h.not_timeout r hr hserver htimeout
  · obtain ⟨hscan, hrunning⟩ := hdec.of_timeout htimeout
    obtain ⟨job, hjob, hholds⟩ := h.running e hs (hrow.serverId.symm.trans hserver) hrunning
    have hother : ¬ ReportOn e ev := by
      rintro ⟨data, hcall, -⟩
      rw [hscan] at hcall
      cases hcall
    have hnone := h.verdict_eq_none hworks hjob hholds hother
    rw [hdec.status] at hnone
    cases hnone
  · rw [hpending] at htimeout
    cases htimeout
  · rw [hpending] at htimeout
    cases htimeout

/-- An event other than a poll leaves the agent what it had, less the execution reported. -/
theorem Busy.jobs_step (h : Busy serverId s) (hworks : Works serverId s ev)
    (hpoll : ev.call ≠ .fetchPending serverId) :
    (s.step croniter duration serverId ev).jobs.Sublist s.jobs ∧
      ∀ job ∈ s.jobs, ∀ r, Holds serverId s.db job r →
        (job ∈ (s.step croniter duration serverId ev).jobs ↔ ¬ ReportOn r ev) := by
  by_cases hreport : ∃ data, ev.call = .reportResult serverId data
  · obtain ⟨data, hcall⟩ := hreport
    obtain ⟨first, hfirst, hid, -⟩ := hworks.report data hcall
    obtain ⟨rest, hjobs⟩ := List.head?_eq_some_iff.mp hfirst
    have hstep : (s.step croniter duration serverId ev).jobs = rest := by
      simp [Site.step, hcall, hjobs]
    have hdistinct := h.distinct
    rw [hjobs, List.map_cons, List.nodup_cons] at hdistinct
    rw [hstep, hjobs]
    refine ⟨List.sublist_cons_self first rest, fun job hjob r hr => ?_⟩
    have hon : ReportOn r ev ↔ job.item.executionId = first.item.executionId := by
      rw [ReportOn, hcall, hr.server, hid, ← hr.id]
      constructor
      · rintro ⟨data', heq, hid'⟩
        cases heq
        exact hid'.symm
      · exact fun heq => ⟨data, rfl, heq.symm⟩
    rw [hon]
    rcases List.mem_cons.mp hjob with rfl | hjob
    · have hnot : job ∉ rest := fun hmem =>
        hdistinct.1 (List.mem_map_of_mem (f := (·.item.executionId)) hmem)
      simp [hnot]
    · have hne : job.item.executionId ≠ first.item.executionId := fun heq =>
        hdistinct.1 (heq ▸ List.mem_map_of_mem (f := (·.item.executionId)) hjob)
      simp [hjob, hne]
  · have hstep : (s.step croniter duration serverId ev).jobs = s.jobs := by
      unfold Site.step
      cases hcall : ev.call with
      | fetchPending n => exact if_neg fun heq => hpoll (by rw [hcall, heq])
      | reportResult n data => exact if_neg fun heq => hreport ⟨data, by rw [hcall, heq]⟩
      | createTask | confirmTask | cancelTask | scanTimeouts | dispatchRetries | fireDueCron
      | cleanupHistory => rfl
    rw [hstep]
    refine ⟨List.Sublist.refl _, fun job hjob r hr => iff_of_true hjob ?_⟩
    rintro ⟨data, hcall, -⟩
    rw [hr.server] at hcall
    exact hreport ⟨data, hcall⟩

theorem Busy.poll (h : Busy serverId s) (hinv : Inv kept s.db) (hworks : Works serverId s ev)
    (hin : InTime duration serverId s ev) (hpoll : ev.call = .fetchPending serverId) :
    Busy serverId (s.step croniter duration serverId ev) := by
  have hjobs : (s.step croniter duration serverId ev).jobs =
      agenda duration ev.now (fetchPending s.db ev.now serverId).2 := by
    simp [Site.step, hpoll]
  have hrows : ∀ job ∈ (s.step croniter duration serverId ev).jobs,
      ∃ r, Holds serverId (s.step croniter duration serverId ev).db job r := by
    rw [hjobs]
    exact fun job hjob => hinv.holds_of_poll hpoll hin hjob
  refine ⟨?_, ?_, hrows, ?_, h.not_timeout_step hinv hworks⟩
  · rw [hjobs]
    exact agenda_sorted _ _ _
  · rw [hjobs, map_executionId_agenda, fetchPending_ids]
    exact List.pairwise_map.mpr ((fetchPending_sorted _ _ _).imp fun hlt => hlt.ne)
  · intro r hr hserver hrunning
    rcases hinv.running_cases hr hserver hrunning with ⟨-, e, he, hid⟩ | ⟨hmem, hother⟩
    · obtain ⟨job, hjob, hjobid⟩ := exists_job_of_row he
      rw [← hjobs] at hjob
      obtain ⟨r', hr'⟩ := hrows job hjob
      obtain rfl := Table.eq_of_key_eq hr'.mem hr (hr'.id.trans (hjobid.trans hid))
      exact ⟨job, hjob, hr'⟩
    · obtain ⟨job, hjob, -⟩ := h.running r hmem hserver hrunning
      rw [hworks.poll hpoll] at hjob
      cases hjob

theorem Busy.next (h : Busy serverId s) (hinv : Inv kept s.db) (hworks : Works serverId s ev)
    (hin : InTime duration serverId s ev) : Busy serverId (s.step croniter duration serverId ev) := by
  by_cases hpoll : ev.call = .fetchPending serverId
  · exact h.poll hinv hworks hin hpoll
  · obtain ⟨hsub, hmem⟩ := @Busy.jobs_step croniter duration _ _ _ h hworks hpoll
    have hkept : ∀ job ∈ (s.step croniter duration serverId ev).jobs, ∀ r,
        Holds serverId s.db job r →
          Holds serverId (s.step croniter duration serverId ev).db job r := by
      intro job hjob r hr
      have hold := hsub.subset hjob
      exact hr.next hinv (h.verdict_eq_none hworks hold hr ((hmem job hold r hr).mp hjob))
    refine ⟨h.sorted.sublist hsub, h.distinct.sublist (hsub.map _), ?_, ?_,
      h.not_timeout_step hinv hworks⟩
    · intro job hjob
      obtain ⟨r, hr⟩ := h.rows job (hsub.subset hjob)
      exact ⟨r, hkept job hjob r hr⟩
    · intro r hr hserver hrunning
      rcases hinv.running_cases hr hserver hrunning with ⟨hcall, -⟩ | ⟨hr, hother⟩
      · exact absurd hcall hpoll
      · obtain ⟨job, hjob, hholds⟩ := h.running r hr hserver hrunning
        have hstays := (hmem job hjob r hholds).mpr hother
        exact ⟨job, hstays, hkept job hstays r hholds⟩

/-! ## What is recorded -/

theorem recorded_reportStatus (now : Time) (t : OpsTask) (e : OpsTaskExecution)
    (data : TaskResultRequest) : Recorded data (reportStatus now t e data) := by
  unfold Recorded reportStatus
  split_ifs <;> simp

theorem Recorded.retrying_of_open {data : TaskResultRequest} {status : ExecutionStatus}
    (h : Recorded data status) (hopen : status.finished = false) :
    data.status ≠ "SUCCESS" ∧ status = .retrying := by
  unfold Recorded at h
  split_ifs at h with hsuccess
  · rw [h] at hopen
    cases hopen
  · refine ⟨hsuccess, ?_⟩
    cases status with
    | retrying => rfl
    | failed | dead => cases hopen
    | pending | running | success | timeout | cancelled => simp at h

/-- The outcome of a reported execution of the server, while its row is there. -/
structure Outcome (serverId : ℕ) (db : Db) (data : TaskResultRequest) : Prop where
  known : data.executionId < db.executions.next
  rows : ∀ r ∈ db.executions, r.id = data.executionId →
    r.serverId = serverId ∧ Recorded data r.status

theorem Outcome.next {data : TaskResultRequest} (h : Outcome serverId s.db data)
    (hbusy : Busy serverId s) (hinv : Inv kept s.db) (hworks : Works serverId s ev) :
    Outcome serverId (step croniter s.db ev) data := by
  refine ⟨h.known.trans_le (step_executions_next_le croniter s.db ev), fun r hr hid => ?_⟩
  rcases hinv.rowOrigin hr with
    ⟨hr, -⟩ | @⟨e, he, hrow, hdec⟩ | ⟨hnew, -, -⟩ | ⟨-, hnew, -⟩
  · exact h.rows r hr hid
  · obtain ⟨hserver, hrecorded⟩ := h.rows e he (hrow.id.symm.trans hid)
    obtain ⟨hfail, hretrying⟩ := hrecorded.retrying_of_open hdec.open
    refine ⟨hrow.serverId.trans hserver, ?_⟩
    rcases hdec.was_retrying hretrying with ⟨limit, -, hclosed⟩ | ⟨data', hcall, hid'⟩
    · have hsub : [.failed, .dead] ⊆ [ExecutionStatus.failed, .retrying, .dead] := by decide
      rw [Recorded, if_neg hfail]
      exact hsub hclosed
    -- the agent reports only executions that are still running
    · rw [hserver] at hcall
      obtain ⟨job, hfirst, hjobid, -⟩ := hworks.report data' hcall
      obtain ⟨r', hr'⟩ := hbusy.rows job (List.mem_of_mem_head? hfirst)
      obtain rfl := Table.eq_of_key_eq hr'.mem he (hr'.id.trans (hjobid.trans hid'))
      rw [hr'.running] at hretrying
      cases hretrying
  · have hlt := h.known
    omega
  · have hlt := h.known
    omega

/-- A report of the agent finds its execution running and leaves the result in it. -/
theorem Busy.reported (h : Busy serverId s) (hinv : Inv kept s.db) (hworks : Works serverId s ev)
    {data : TaskResultRequest} (hcall : ev.call = .reportResult serverId data) :
    (∃ r ∈ (step croniter s.db ev).executions, r.id = data.executionId) ∧
      Outcome serverId (step croniter s.db ev) data := by
  obtain ⟨job, hfirst, hjobid, -⟩ := hworks.report data hcall
  obtain ⟨e, he⟩ := h.rows job (List.mem_of_mem_head? hfirst)
  have hid : e.id = data.executionId := he.id.trans hjobid
  obtain ⟨t, ht, htid, -⟩ := hinv.task_of e he.mem
  have hverdict : verdict s.db ev.now e ev.call = some (reportStatus ev.now t e data) := by
    rw [hcall, verdict, if_pos ⟨hid, he.server, by rw [he.running]; rfl⟩, getTask_eq ht htid]
    rfl
  obtain ⟨r, hr, hrid, hstatus⟩ := @Inv.status_step croniter _ _ hinv ev e he.mem _ hverdict
  refine ⟨⟨r, hr, hrid.trans hid⟩, ?_, fun r' hr' hid' => ?_⟩
  · rw [← hid, ← hrid]
    exact Table.key_lt hr
  · obtain rfl := Table.eq_of_key_eq hr' hr (hid'.trans (hrid.trans hid).symm)
    have hlt : r'.id < s.db.executions.next := by
      rw [hrid]
      exact Table.key_lt he.mem
    have hserver : r'.serverId = serverId := by
      rcases step_cases croniter s.db ev with ⟨heq, -⟩ | ⟨reply, -, hm⟩
      · rw [heq] at hr
        rw [Table.eq_of_key_eq hr he.mem hrid, he.server]
      · obtain ⟨e', he', hrow⟩ := hm.old_row hr hlt
        obtain rfl := Table.eq_of_key_eq he' he.mem (hrow.id.symm.trans hrid)
        rw [hrow.serverId, he.server]
    rw [hstatus]
    exact ⟨hserver, recorded_reportStatus ev.now t e data⟩

/-! ## Runs -/

section Run
variable (croniter : CronIter) (servers : Table OpsServer) (services : Table OpsServerService)
  (duration : ℕ → ℕ) (serverId : ℕ)

theorem siteAfter_concat (es : List Event) (ev : Event) :
    siteAfter croniter duration serverId servers services (es ++ [ev]) =
      (siteAfter croniter duration serverId servers services es).step croniter duration serverId ev :=
  run_concat _ _ _ _

theorem siteAfter_db (es : List Event) :
    (siteAfter croniter duration serverId servers services es).db =
      after croniter servers services es := by
  induction es using List.reverseRecOn with
  | nil => rfl
  | append_singleton es ev ih =>
    rw [siteAfter_concat, after_concat, ← ih]
    rfl

/-- The agent works through the whole run, and every batch is in time. -/
def Diligent (es : List Event) : Prop :=
  Along (fun pre ev =>
    Works serverId (siteAfter croniter duration serverId servers services pre) ev ∧
      InTime duration serverId (siteAfter croniter duration serverId servers services pre) ev) es

theorem busy_after {es : List Event} (hes : Chronological es)
    (h : Diligent croniter servers services duration serverId es) :
    Busy serverId (siteAfter croniter duration serverId servers services es) := by
  induction es using List.reverseRecOn with
  | nil => exact .start servers services
  | append_singleton es ev ih =>
    have hpre : Chronological es := (List.pairwise_append.mp hes).1
    have hinv := (timed_inv_after croniter servers services hpre).1
    rw [← siteAfter_db croniter servers services duration serverId] at hinv
    rw [siteAfter_concat]
    exact (ih hpre h.front).next hinv h.last.1 h.last.2

theorem outcome_after {pre post : List Event} (hes : Chronological (pre ++ post))
    (h : Diligent croniter servers services duration serverId (pre ++ post))
    {data : TaskResultRequest} (hdone : Outcome serverId (after croniter servers services pre) data) :
    Outcome serverId (after croniter servers services (pre ++ post)) data := by
  induction post using List.reverseRecOn with
  | nil => rwa [List.append_nil]
  | append_singleton post ev ih =>
    rw [← List.append_assoc] at hes h ⊢
    have hpre : Chronological (pre ++ post) := (List.pairwise_append.mp hes).1
    have hinv := (timed_inv_after croniter servers services hpre).1
    have hbusy := busy_after croniter servers services duration serverId hpre h.front
    have hold := ih hpre h.front
    rw [after_concat]
    rw [← siteAfter_db croniter servers services duration serverId] at hinv hold ⊢
    exact hold.next hbusy hinv h.last.1

end Run

section Runs
open Sample

/-- An agent whose actions take fifty seconds each. -/
def fiftySeconds : ℕ → ℕ := fun _ => 50000

def success (executionId : ℕ) : TaskResultRequest :=
  ⟨executionId, "SUCCESS", some 0, some "ok", none, none, none⟩

theorem works_of_idle {serverId : ℕ} {s : Site} {ev : Event} (hjobs : s.jobs = [])
    (hcall : ∀ data, ev.call ≠ .reportResult serverId data) : Works serverId s ev where
  poll _ := hjobs
  report data h := absurd h (hcall data)
  punctual := by simp [hjobs]

end Runs

end OpsMonitor.Task
