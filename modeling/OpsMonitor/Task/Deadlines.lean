import OpsMonitor.Task.Justification
import OpsMonitor.Task.Siblings

/-! The deadline of a task. A report and the retry dispatch look at it before they plan or make
a further attempt; a poll does not, so an attempt that was made in time may be handed out late. -/

namespace OpsMonitor.Task
open Library

variable {croniter : CronIter} {kept : Prop} {db db' : Db} {ev : Event}

/-- The deadline of the task is not reached. -/
def BeforeDeadline (db : Db) (now : Time) (taskId : ℕ) : Prop :=
  ∃ t ∈ db.tasks, t.id = taskId ∧ ∃ d ∈ t.deadlineAt, now < d

/-- The event makes, plans and hands out further attempts before the deadline only. -/
structure DeadlineHeld (croniter : CronIter) (db : Db) (ev : Event) : Prop where
  made : ∀ r ∈ (step croniter db ev).executions, db.executions.next ≤ r.id → 2 ≤ r.attempt →
    BeforeDeadline db ev.now r.taskId
  planned : ∀ r ∈ (step croniter db ev).executions, r ∉ db.executions → r.status = .retrying →
    BeforeDeadline db ev.now r.taskId
  handed : ∀ items db', perform croniter db ev.now ev.call = .ok (db', .handed items) →
    ∀ item ∈ items, ∀ e ∈ db.executions, e.id = item.executionId → 2 ≤ e.attempt →
      BeforeDeadline db ev.now e.taskId

/-- A poll at or after the deadline finds a further attempt that nobody has claimed. -/
def LatePoll (db : Db) (ev : Event) : Prop :=
  ∃ serverId, ev.call = .fetchPending serverId ∧ ∃ e ∈ db.fetchPendingByServer serverId 10,
    2 ≤ e.attempt ∧ ∃ t ∈ db.tasks, t.id = e.taskId ∧ ∃ d ∈ t.deadlineAt, d ≤ ev.now

section Step
variable (hdeadlines : ∀ t ∈ db.tasks, t.deadlineAt.isSome = true)
include hdeadlines

theorem beforeDeadline_of_canRetry {t : OpsTask} {e : OpsTaskExecution} {now : Time} (ht : t ∈ db.tasks)
    (hid : t.id = e.taskId) (h : canRetry t e now = true) : BeforeDeadline db now e.taskId := by
  obtain ⟨d, hd⟩ := Option.isSome_iff_exists.mp (hdeadlines t ht)
  exact ⟨t, ht, hid, d, hd, (canRetry_iff.mp h).2 d hd⟩

theorem Inv.made_in_time (h : Inv kept db) {r : OpsTaskExecution}
    (hr : r ∈ (step croniter db ev).executions) (hnew : db.executions.next ≤ r.id)
    (hattempt : 2 ≤ r.attempt) : BeforeDeadline db ev.now r.taskId := by
  rcases h.rowOrigin hr with ⟨hr', -⟩ | ⟨hs, hrow, -⟩ | hfirst | ⟨-, -, hs, -, hnext⟩
  · have hlt : r.id < db.executions.next := Table.key_lt hr'
    omega
  · have hlt := Table.key_lt hs
    rw [show Keyed.key _ = r.id from hrow.id.symm] at hlt
    omega
  · have hone := hfirst.2.2
    omega
  · obtain ⟨-, t, ht, hretry⟩ := hs
    obtain ⟨ht, hid⟩ := Table.get?_eq_some.mp ht
    rw [← hnext.1.1]
    exact beforeDeadline_of_canRetry hdeadlines ht hid hretry

theorem Inv.planned_in_time (h : Inv kept db) {r : OpsTaskExecution}
    (hr : r ∈ (step croniter db ev).executions) (hwritten : r ∉ db.executions)
    (hretrying : r.status = .retrying) : BeforeDeadline db ev.now r.taskId := by
  rcases h.rowOrigin hr with ⟨hr', -⟩ | ⟨-, hrow, hdec⟩ | hfirst | ⟨-, -, -, hpending, -⟩
  · exact absurd hr' hwritten
  · obtain ⟨data, t, -, -, ht, hid, -, -, hretry⟩ := hdec.of_retrying hretrying
    rw [hrow.taskId]
    exact beforeDeadline_of_canRetry hdeadlines ht hid hretry
  · rw [hfirst.2.1] at hretrying
    cases hretrying
  · rw [hpending] at hretrying
    cases hretrying

theorem beforeDeadline_iff {now : Time} {e : OpsTaskExecution} (htask : ∃ t ∈ db.tasks, t.id = e.taskId) :
    BeforeDeadline db now e.taskId ↔
      ¬ ∃ t ∈ db.tasks, t.id = e.taskId ∧ ∃ d ∈ t.deadlineAt, d ≤ now := by
  constructor
  · rintro ⟨t, ht, hid, d, hd, hlt⟩ ⟨t', ht', hid', d', hd', hle⟩
    obtain rfl := Table.eq_of_key_eq ht ht' (hid.trans hid'.symm)
    obtain rfl := Option.mem_unique hd hd'
    exact hlt.not_ge hle
  · intro hlate
    obtain ⟨t, ht, hid⟩ := htask
    obtain ⟨d, hd⟩ := Option.isSome_iff_exists.mp (hdeadlines t ht)
    exact ⟨t, ht, hid, d, hd, not_le.mp fun hle => hlate ⟨t, ht, hid, d, hd, hle⟩⟩

theorem Inv.deadlineHeld_iff (h : Inv kept db) : DeadlineHeld croniter db ev ↔ ¬ LatePoll db ev := by
  constructor
  · rintro hheld ⟨serverId, hcall, e, he, hattempt, hlate⟩
    have hrow := (mem_fetchPendingByServer he).1.1
    have hok : perform croniter db ev.now ev.call =
        .ok ((fetchPending db ev.now serverId).1, .handed (fetchPending db ev.now serverId).2) := by
      rw [hcall]
      rfl
    -- the query's row is among the items of the answer
    have hmem : e.id ∈ (fetchPending db ev.now serverId).2.map (·.executionId) := by
      rw [(fetchPending_spec db ev.now serverId).2]
      exact List.mem_map_of_mem he
    obtain ⟨item, hitem, hid⟩ := List.mem_map.mp hmem
    have hin := hheld.handed _ _ hok item hitem e hrow hid.symm hattempt
    obtain ⟨t, ht, htid, -⟩ := h.task_of e hrow
    exact (beforeDeadline_iff hdeadlines ⟨t, ht, htid⟩).mp hin hlate
  · intro hpoll
    refine ⟨fun r => h.made_in_time hdeadlines, fun r => h.planned_in_time hdeadlines, ?_⟩
    intro items db' hok item hitem e he hid hattempt
    obtain ⟨t, ht, htid, -⟩ := h.task_of e he
    refine (beforeDeadline_iff hdeadlines ⟨t, ht, htid⟩).mpr fun hlate => hpoll ?_
    cases hcall : ev.call with
    | fetchPending serverId =>
      rw [hcall] at hok
      obtain ⟨-, hitems⟩ := Prod.ext_iff.mp (pure_eq_ok.mp hok)
      obtain rfl := Reply.handed.inj hitems
      obtain ⟨f, hf, hfid, -⟩ := mem_fetchPending hitem
      obtain rfl := Table.eq_of_key_eq (mem_fetchPendingByServer hf).1.1 he (hfid.symm.trans hid.symm)
      exact ⟨serverId, hcall, f, hf, hattempt, hlate⟩
    | createTask | confirmTask | cancelTask | reportResult | dispatchRetries | fireDueCron =>
      rw [hcall] at hok
      obtain ⟨x, -, hok⟩ := bind_eq_ok.mp hok
      cases (Prod.ext_iff.mp (pure_eq_ok.mp hok)).2
    | scanTimeouts | cleanupHistory =>
      rw [hcall] at hok
      cases (Prod.ext_iff.mp (pure_eq_ok.mp hok)).2

end Step

/-- The deadline bounds every further attempt of a run exactly when no poll finds one that is
past the deadline of its task. -/
theorem deadline_bounds_retries (croniter : CronIter) (servers : Table OpsServer)
    (services : Table OpsServerService) (es : List Event) (hes : Chronological es) :
    Along (fun pre ev => DeadlineHeld croniter (after croniter servers services pre) ev) es ↔
      Along (fun pre ev => ¬ LatePoll (after croniter servers services pre) ev) es := by
  refine along_congr ?_
  rintro pre ev post rfl
  have hpre : Chronological pre := (List.pairwise_append.mp hes).1
  have hinv := (timed_inv_after croniter servers services hpre).1
  exact hinv.deadlineHeld_iff (deadlines_after croniter servers services pre)

section Runs
open Sample

/-- A check whose second attempt is claimed at the instant `now`. -/
def claimedAgain (now : Time) : List Event :=
  retryingCheck ++ [⟨7000, .dispatchRetries 50⟩, ⟨now, .fetchPending 1⟩]

/-- The second attempt is claimed before the deadline, which is three minutes after the start. -/
theorem deadline_bounds_retries_claimed :
    Along (fun pre ev => DeadlineHeld everyMinute (after everyMinute servers services pre) ev)
      (claimedAgain 8000) := by
  refine (deadline_bounds_retries everyMinute servers services _ (by decide)).mpr ?_
  rintro pre ev post heq ⟨serverId, -, e, -, -, t, ht, -, d, hd, hle⟩
  have hnow : ∀ ev ∈ claimedAgain 8000, ev.now ≤ 8000 := by decide
  have hlate := hnow ev (by rw [heq]; simp)
  have hall : ∀ pre ∈ (claimedAgain 8000).inits, ∀ t ∈ (after everyMinute servers services
      pre).tasks, ∀ d ∈ t.deadlineAt, 8000 < d := by decide
  have hlt := hall pre (List.mem_inits _ _ |>.mpr ⟨ev :: post, heq.symm⟩) t ht d hd
  exact absurd (hle.trans hlate) (not_le.mpr hlt)

/-- An agent that comes back after the deadline is handed the second attempt. -/
theorem late_attempt_handed_out :
    ¬ ∀ (croniter : CronIter) (servers : Table OpsServer) (services : Table OpsServerService)
      (es : List Event), Chronological es →
      Along (fun pre ev => DeadlineHeld croniter (after croniter servers services pre) ev) es := by
  intro h
  have hheld := h everyMinute servers services (claimedAgain 200000) (by decide)
    (retryingCheck ++ [⟨7000, .dispatchRetries 50⟩]) ⟨200000, .fetchPending 1⟩ [] rfl
  obtain ⟨e, he, hid, hattempt⟩ : ∃ e ∈ (after everyMinute servers services
      (retryingCheck ++ [⟨7000, .dispatchRetries 50⟩])).executions, e.id = 2 ∧ e.attempt = 2 := by
    decide
  obtain ⟨item, hitem, hitemid⟩ : ∃ item ∈ (fetchPending (after everyMinute servers services
      (retryingCheck ++ [⟨7000, .dispatchRetries 50⟩])) 200000 1).2, item.executionId = 2 := by decide
  obtain ⟨t, ht, -, d, hd, hlt⟩ := hheld.handed _ _ rfl item hitem e he (hid.trans hitemid.symm)
    hattempt.ge
  have hall : ∀ t ∈ (after everyMinute servers services
      (retryingCheck ++ [⟨7000, .dispatchRetries 50⟩])).tasks, ∀ d ∈ t.deadlineAt, d ≤ 200000 := by
    decide
  exact absurd hlt (not_lt.mpr (hall t ht d hd))

end Runs

end OpsMonitor.Task
