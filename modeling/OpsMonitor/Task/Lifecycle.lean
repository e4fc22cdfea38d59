import OpsMonitor.Task.AttemptChains
import OpsMonitor.Task.Rows

/-! The documented life of an execution (`docs/architecture/task-retry-strategy.md`). A report
is accepted for every execution that is not finished, also for one that no agent was handed,
and this is the only way to leave the documented changes. -/

namespace OpsMonitor.Task
open Library

/-- The documented changes of status, with the calls that may make them. -/
inductive Documented : Call → ExecutionStatus → ExecutionStatus → Prop
  | claimed (serverId : ℕ) : Documented (.fetchPending serverId) .pending .running
  | cancelled (taskId : ℕ) : Documented (.cancelTask taskId) .pending .cancelled
  | ran {call : Call} {s : ExecutionStatus}
      (hs : s ∈ [.success, .failed, .retrying, .dead, .timeout]) : Documented call .running s
  | waited {call : Call} {s : ExecutionStatus}
      (hs : s ∈ [.success, .failed, .retrying, .dead]) : Documented call .retrying s

/-- Every row that changes its status between `db` and `db'` does so as documented. -/
def DocumentedStep (db : Db) (ev : Event) (db' : Db) : Prop :=
  ∀ s ∈ db.executions, ∀ r ∈ db'.executions, r.id = s.id →
    r.status = s.status ∨ Documented ev.call s.status r.status

/-- A report arrives for an execution of the reporting server that was never handed out. -/
def ReportsPending (db : Db) (ev : Event) : Prop :=
  ∃ serverId data, ev.call = .reportResult serverId data ∧
    ∃ s ∈ db.executions, s.id = data.executionId ∧ s.serverId = serverId ∧ s.status = .pending

variable {croniter : CronIter} {kept : Prop} {db : Db} {ev : Event}

theorem mem_reportStatus (now : Time) (t : OpsTask) (e : OpsTaskExecution)
    (data : TaskResultRequest) :
    reportStatus now t e data ∈ [.success, .failed, .retrying, .dead] := by
  unfold reportStatus
  split_ifs <;> simp

theorem Decided.documented {s r : OpsTaskExecution} (hs : s ∈ db.executions)
    (h : Decided db ev.now ev.call s r) (hreport : ¬ ReportsPending db ev) :
    Documented ev.call s.status r.status := by
  obtain ⟨now, call⟩ := ev
  have hstatus := h.status
  cases call with
  | reportResult serverId data =>
    rw [verdict] at hstatus
    split_ifs at hstatus with hguard
    obtain ⟨hid, hserver, hopen⟩ := hguard
    obtain ⟨t, -, hdone⟩ := Option.map_eq_some_iff.mp hstatus
    have hmem := mem_reportStatus now t s data
    rw [hdone] at hmem
    cases hold : s.status with
    | pending => exact absurd ⟨serverId, data, rfl, s, hs, hid, hserver, hold⟩ hreport
    | running => exact .ran (by simp at hmem ⊢; tauto)
    | retrying => exact .waited hmem
    | success | failed | timeout | cancelled | dead =>
      rw [hold] at hopen
      cases hopen
  | scanTimeouts =>
    rw [verdict] at hstatus
    split_ifs at hstatus with hguard
    obtain ⟨t, -, -, hexpired⟩ := hguard
    rw [running_of_isExpired hexpired, ← Option.some.inj hstatus]
    exact .ran (by simp)
  | cancelTask taskId =>
    rw [verdict] at hstatus
    split_ifs at hstatus with hguard
    rw [hguard.2.1, ← Option.some.inj hstatus]
    exact .cancelled taskId
  | fetchPending serverId =>
    rw [verdict] at hstatus
    split_ifs at hstatus with hclaim
    rw [(mem_fetchPendingByServer hclaim).1.2.1, ← Option.some.inj hstatus]
    exact .claimed serverId
  | dispatchRetries limit =>
    rw [verdict] at hstatus
    split_ifs at hstatus with hdue
    obtain ⟨t, -, hdone⟩ := Option.map_eq_some_iff.mp hstatus
    rw [(mem_listDueRetries hdue).2.1, ← hdone]
    exact .waited (by split_ifs <;> simp)
  | createTask | confirmTask | fireDueCron | cleanupHistory => cases hstatus

theorem Inv.documentedStep_iff (h : Inv kept db) :
    DocumentedStep db ev (step croniter db ev) ↔ ¬ ReportsPending db ev := by
  constructor
  · rintro hdoc ⟨serverId, data, hcall, s, hs, hid, hserver, hpending⟩
    obtain ⟨t, ht, htid, -⟩ := h.task_of s hs
    have hverdict : verdict db ev.now s ev.call = some (reportStatus ev.now t s data) := by
      rw [hcall, verdict, if_pos ⟨hid, hserver, by rw [hpending]; rfl⟩, getTask_eq ht htid]
      rfl
    obtain ⟨r, hr, hrid, hrs⟩ := h.status_step hs hverdict
    have hmem := mem_reportStatus ev.now t s data
    rw [← hrs] at hmem
    -- neither unchanged nor one of the two ways out of `PENDING`
    rcases hdoc s hs r hr hrid with hsame | hchange
    · rw [hsame, hpending] at hmem
      simp at hmem
    · rw [hpending, hcall] at hchange
      cases hchange
  · intro hreport s hs r hr hid
    have hlt : s.id < db.executions.next := Table.key_lt hs
    rcases h.rowOrigin hr with ⟨hr', -⟩ | ⟨hs', hrow, hdec⟩ | hfirst | ⟨-, hnew, -⟩
    · rw [Table.eq_of_key_eq hr' hs hid]
      exact .inl rfl
    · obtain rfl := Table.eq_of_key_eq hs hs' (hid.symm.trans hrow.id)
      exact .inr (hdec.documented hs hreport)
    · exact absurd hfirst.1 (by omega)
    · omega

/-- Every change of status in a run is documented exactly when no report of the run is about
an execution that was never handed out. -/
theorem lifecycle_documented (croniter : CronIter) (servers : Table OpsServer)
    (services : Table OpsServerService) (es : List Event) (hes : Chronological es) :
    Along (fun pre ev => DocumentedStep (after croniter servers services pre) ev
        (after croniter servers services (pre ++ [ev]))) es ↔
      Along (fun pre ev => ¬ ReportsPending (after croniter servers services pre) ev) es := by
  refine along_congr ?_
  rintro pre ev post rfl
  have hpre : Chronological pre := (List.pairwise_append.mp hes).1
  rw [after_concat]
  exact (timed_inv_after croniter servers services hpre).1.documentedStep_iff

section Runs
open Sample

/-- A check that is claimed, fails, and is retried. -/
theorem lifecycle_documented_retried :
    Along (fun pre ev => DocumentedStep (after everyMinute servers services pre) ev
      (after everyMinute servers services (pre ++ [ev])))
      [⟨0, .createTask (check "ONCE") 1 none⟩, ⟨1000, .fetchPending 1⟩,
        ⟨2000, .reportResult 1 (networkError 1)⟩, ⟨7000, .dispatchRetries 50⟩] := by
  refine (lifecycle_documented everyMinute servers services _ (by decide)).mpr ?_
  simp only [along_cons, along_nil, and_true]
  refine ⟨?_, ?_, ?_, ?_⟩
  · rintro ⟨serverId, data, hcall, -⟩
    cases hcall
  · rintro ⟨serverId, data, hcall, -⟩
    cases hcall
  · rintro ⟨serverId, data, -, s, hs, -, -, hpending⟩
    have hnone : ∀ s ∈ (after everyMinute servers services
        [⟨0, .createTask (check "ONCE") 1 none⟩, ⟨1000, .fetchPending 1⟩]).executions,
        s.status ≠ .pending := by decide
    exact hnone s hs hpending
  · rintro ⟨serverId, data, hcall, -⟩
    cases hcall

/-- The result of an execution that nobody claimed. -/
def unclaimedReport : Event := ⟨1000, .reportResult 1 ⟨1, "SUCCESS", some 0, some "ok", none, none, none⟩⟩

theorem unclaimed_check_reported :
    ¬ ∀ (croniter : CronIter) (servers : Table OpsServer) (services : Table OpsServerService)
      (es : List Event), Chronological es →
      Along (fun pre ev => DocumentedStep (after croniter servers services pre) ev
        (after croniter servers services (pre ++ [ev]))) es := by
  intro h
  have hdoc := h everyMinute servers services
    [⟨0, .createTask (check "ONCE") 1 none⟩, unclaimedReport] (by decide)
    [⟨0, .createTask (check "ONCE") 1 none⟩] unclaimedReport [] rfl
  obtain ⟨s, hs, hid, hpending⟩ : ∃ s ∈ (after everyMinute servers services
      [⟨0, .createTask (check "ONCE") 1 none⟩]).executions, s.id = 1 ∧ s.status = .pending := by
    decide
  obtain ⟨r, hr, hid', hsuccess⟩ : ∃ r ∈ (after everyMinute servers services
      ([⟨0, .createTask (check "ONCE") 1 none⟩] ++ [unclaimedReport])).executions,
      r.id = 1 ∧ r.status = .success := by decide
  have hchange := hdoc s hs r hr (hid'.trans hid.symm)
  rw [hpending, hsuccess] at hchange
  rcases hchange with hsame | hchange
  · cases hsame
  · cases hchange

end Runs

end OpsMonitor.Task
