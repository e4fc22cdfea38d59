import OpsMonitor.Task.Verdicts

/-! Where the execution rows after an event come from: an event leaves a row alone, writes to
it what its call decided, or adds the first or the next attempt on a target. -/

namespace OpsMonitor.Task
open Library

variable {croniter : CronIter} {now : Time} {kept : Prop} {db db' : Db}

/-- The moves that write to no row. -/
def Act.quiet : Act → Prop
  | .insert _ | .confirm _ | .fire _ | .purge => True
  | _ => False

/-- A row of a first attempt that nobody claimed. -/
def FirstAttempt (db : Db) (r : OpsTaskExecution) : Prop :=
  db.executions.next ≤ r.id ∧ r.status = .pending ∧ r.attempt = 1

theorem Move.quiet_row {act : Act} (hm : Move croniter now db act db') (hact : act.quiet)
    {r : OpsTaskExecution} (hr : r ∈ db'.executions) : r ∈ db.executions ∨ FirstAttempt db r := by
  have hfirst : ∀ {taskId : ℕ} {targets : List OpsTaskTarget},
      r ∈ db.executions.insertAll (firstAttempts taskId targets) →
        r ∈ db.executions ∨ FirstAttempt db r := by
    intro taskId targets hr
    refine (Table.mem_insertAll.mp hr).imp_right fun hr => ?_
    obtain ⟨-, hattempt, hpending⟩ := mem_firstAttempts hr
    exact ⟨Table.le_key_of_mem_keyed hr, hpending, hattempt⟩
  cases hm with
  | insert hinsert =>
    obtain ⟨action, serverIds, -, rfl, rfl⟩ := insertTask_created hinsert
    split_ifs at hr
    · exact hfirst hr
    · exact .inl hr
  | confirm => exact .inl hr
  | fire => exact hfirst hr
  | purge => exact .inl (mem_purged.mp hr).1
  | cancel | claim | report | expire | archive | retry => exact hact.elim

theorem Moves.quiet_row {P : Act → Prop} (hm : Moves croniter now P db db')
    (hP : ∀ act, P act → act.quiet) {r : OpsTaskExecution} (hr : r ∈ db'.executions) :
    r ∈ db.executions ∨ FirstAttempt db r := by
  induction hm generalizing r with
  | refl => exact .inl hr
  | tail hmoves hmove ih =>
    obtain ⟨act, hact, hmove⟩ := hmove
    rcases hmove.quiet_row (hP act hact) hr with hr | ⟨hnew, hrest⟩
    · exact ih hr
    · exact .inr ⟨(Moves.executions_next_le hmoves).trans hnew, hrest⟩

theorem Call.quiet_of_allows {call : Call} {reply : Reply} {act : Act}
    (hcall : call.contends = false) (h : call.allows croniter db now reply act) : act.quiet := by
  cases call with
  | createTask =>
    obtain ⟨t, -, rfl⟩ := h
    trivial
  | fireDueCron =>
    obtain ⟨t, -, -, rfl⟩ := h
    trivial
  | confirmTask | cleanupHistory =>
    obtain rfl := h
    trivial
  | cancelTask | fetchPending | reportResult | scanTimeouts | dispatchRetries => cases hcall

theorem verdict_of_not_contends {call : Call} (hcall : call.contends = false)
    (e : OpsTaskExecution) : verdict db now e call = none := by
  cases call with
  | createTask | confirmTask | fireDueCron | cleanupHistory => rfl
  | cancelTask | fetchPending | reportResult | scanTimeouts | dispatchRetries => cases hcall

/-- A row `r` after the event `ev` in the state `db`. -/
inductive RowOrigin (db : Db) (ev : Event) (r : OpsTaskExecution) : Prop
  | kept (hr : r ∈ db.executions) (hnone : verdict db ev.now r ev.call = none)
  | decided {s : OpsTaskExecution} (hs : s ∈ db.executions) (hrow : SameRow s r)
      (hdec : Decided db ev.now ev.call s r)
  | first (hr : FirstAttempt db r)
  | next {limit : ℕ} {s : OpsTaskExecution} (hcall : ev.call = .dispatchRetries limit)
      (hnew : db.executions.next ≤ r.id) (hs : Retries db ev.now limit s)
      (hpending : r.status = .pending) (hnext : IsNext s r)

theorem Inv.rowOrigin_of_ok (h : Inv kept db) {call : Call} {reply : Reply}
    (hok : perform croniter db now call = .ok (db', reply)) {r : OpsTaskExecution}
    (hr : r ∈ db'.executions) : RowOrigin db ⟨now, call⟩ r := by
  have hmoves := perform_moves hok
  cases hcall : call.contends with
  | false =>
    rcases hmoves.quiet_row (fun _ => Call.quiet_of_allows hcall) hr with hr | hfirst
    · exact .kept hr (verdict_of_not_contends hcall r)
    · exact .first hfirst
  | true =>
    by_cases hlt : r.id < db.executions.next
    · obtain ⟨s, hs, hrow⟩ := hmoves.old_row hr hlt
      rcases h.perform_settles hcall hok hs with ⟨r', hr', hdec⟩ | ⟨hnone, hs'⟩
      · obtain rfl := Table.eq_of_key_eq hr' hr (hdec.id.trans hrow.id.symm)
        exact .decided hs hrow hdec
      · obtain rfl := Table.eq_of_key_eq hs' hr hrow.id.symm
        exact .kept hs hnone
    · have hins := Table.mem_inserted.mpr ⟨hr, not_lt.mp hlt⟩
      obtain ⟨hpending, limit, rfl, s, hs, hnext⟩ := h.perform_inserted hcall hok hins
      exact .next rfl (not_lt.mp hlt) hs hpending hnext

theorem Inv.rowOrigin (h : Inv kept db) {ev : Event} {r : OpsTaskExecution}
    (hr : r ∈ (step croniter db ev).executions) : RowOrigin db ev r := by
  rcases error_or_ok (perform croniter db ev.now ev.call) with ⟨x, herr⟩ | ⟨⟨d, reply⟩, hok⟩
  · rw [step_of_error herr] at hr
    refine .kept hr ?_
    cases hcall : ev.call.contends with
    | false => exact verdict_of_not_contends hcall r
    | true => exact h.verdict_of_error hcall herr hr
  · rw [step_of_ok hok] at hr
    exact h.rowOrigin_of_ok hok hr

/-! ## Rows that stay -/

theorem Move.quiet_stays {act : Act} (hm : Move croniter now db act db') (hact : act.quiet)
    {r : OpsTaskExecution} (hr : r ∈ db.executions) (hopen : r.status.finished = false) :
    r ∈ db'.executions := by
  cases hm with
  | insert hinsert =>
    obtain ⟨action, serverIds, -, rfl, rfl⟩ := insertTask_created hinsert
    split_ifs
    · exact Table.mem_insertAll.mpr (.inl hr)
    · exact hr
  | confirm => exact hr
  | fire => exact Table.mem_insertAll.mpr (.inl hr)
  | purge =>
    refine mem_purged.mpr ⟨hr, fun hold => ?_⟩
    rw [hold.1] at hopen
    cases hopen
  | cancel | claim | report | expire | archive | retry => exact hact.elim

theorem Moves.quiet_stays {P : Act → Prop} (hm : Moves croniter now P db db')
    (hP : ∀ act, P act → act.quiet) {r : OpsTaskExecution} (hr : r ∈ db.executions)
    (hopen : r.status.finished = false) : r ∈ db'.executions := by
  induction hm with
  | refl => exact hr
  | tail _ hmove ih =>
    obtain ⟨act, hact, hmove⟩ := hmove
    exact hmove.quiet_stays (hP act hact) ih hopen

/-- An unfinished row that the call does not decide about stays as it is. -/
theorem Inv.row_stays (h : Inv kept db) {ev : Event} {r : OpsTaskExecution}
    (hr : r ∈ db.executions) (hopen : r.status.finished = false)
    (hnone : verdict db ev.now r ev.call = none) : r ∈ (step croniter db ev).executions := by
  rcases error_or_ok (perform croniter db ev.now ev.call) with ⟨x, herr⟩ | ⟨⟨d, reply⟩, hok⟩
  · rwa [step_of_error herr]
  · rw [step_of_ok hok]
    cases hcall : ev.call.contends with
    | false => exact (perform_moves hok).quiet_stays (fun _ => Call.quiet_of_allows hcall) hr hopen
    | true =>
      rcases h.perform_settles hcall hok hr with ⟨r', -, hdec⟩ | ⟨-, hmem⟩
      · rw [hdec.status] at hnone
        cases hnone
      · exact hmem

/-- A row that the call decides about is in the table afterwards, with the decided status. -/
theorem Inv.status_step (h : Inv kept db) {ev : Event} {e : OpsTaskExecution}
    (he : e ∈ db.executions) {status : ExecutionStatus}
    (hverdict : verdict db ev.now e ev.call = some status) :
    ∃ r ∈ (step croniter db ev).executions, r.id = e.id ∧ r.status = status := by
  have hcall : ev.call.contends = true := by
    rw [← Bool.not_eq_false]
    intro hquiet
    rw [verdict_of_not_contends hquiet] at hverdict
    cases hverdict
  rcases error_or_ok (perform croniter db ev.now ev.call) with ⟨x, herr⟩ | ⟨⟨d, reply⟩, hok⟩
  · have hnone := h.verdict_of_error hcall herr he
    rw [hverdict] at hnone
    cases hnone
  · obtain ⟨r, hr, hid, hstatus⟩ := h.perform_hasStatus hcall hok he
    rw [step_of_ok hok]
    rw [hverdict, Option.getD_some] at hstatus
    exact ⟨r, hr, hid, hstatus⟩

/-! ## What the call must be for a status -/

section Decided
variable {call : Call} {s r : OpsTaskExecution}

theorem Decided.open (h : Decided db now call s r) : s.status.finished = false := by
  rw [← Bool.not_eq_true]
  intro hfin
  have hnone := @verdict_of_finished now db _ hfin call
  rw [h.status] at hnone
  cases hnone

/-- Only a report on the row itself leaves it waiting for a retry. -/
theorem Decided.of_retrying (h : Decided db now call s r) (hr : r.status = .retrying) :
    ∃ data t, call = .reportResult s.serverId data ∧ s.id = data.executionId ∧ t ∈ db.tasks ∧
      t.id = s.taskId ∧ data.status ≠ "SUCCESS" ∧
      Retry.isRetryable data.errorType data.errorMessage = true ∧ canRetry t s now = true := by
  have hstatus := h.status
  rw [hr] at hstatus
  cases call with
  | reportResult serverId data =>
    rw [verdict] at hstatus
    split_ifs at hstatus with hguard
    obtain ⟨hid, rfl, -⟩ := hguard
    obtain ⟨t, hget, hreport⟩ := Option.map_eq_some_iff.mp hstatus
    obtain ⟨ht, htid⟩ := Table.get?_eq_some.mp hget
    unfold reportStatus at hreport
    split_ifs at hreport with hsuccess hretryable hbudget
    exact ⟨data, t, rfl, hid, ht, htid, hsuccess, hretryable, hbudget⟩
  | scanTimeouts | cancelTask | fetchPending =>
    rw [verdict] at hstatus
    split_ifs at hstatus
    cases hstatus
  | dispatchRetries limit =>
    rw [verdict] at hstatus
    split_ifs at hstatus
    obtain ⟨t, -, hdispatch⟩ := Option.map_eq_some_iff.mp hstatus
    split_ifs at hdispatch
  | createTask | confirmTask | fireDueCron | cleanupHistory => cases hstatus

/-- Only a poll of the row's server leaves it running. -/
theorem Decided.of_running (h : Decided db now call s r) (hr : r.status = .running) :
    call = .fetchPending s.serverId ∧ s ∈ db.fetchPendingByServer s.serverId 10 := by
  have hstatus := h.status
  rw [hr] at hstatus
  cases call with
  | fetchPending serverId =>
    rw [verdict] at hstatus
    split_ifs at hstatus with hclaim
    obtain ⟨-, rfl⟩ := mem_fetchPendingByServer hclaim
    exact ⟨rfl, hclaim⟩
  | reportResult serverId data =>
    rw [verdict] at hstatus
    split_ifs at hstatus
    obtain ⟨t, -, hreport⟩ := Option.map_eq_some_iff.mp hstatus
    exact absurd hreport (reportStatus_ne_running t data)
  | scanTimeouts | cancelTask =>
    rw [verdict] at hstatus
    split_ifs at hstatus
    cases hstatus
  | dispatchRetries limit =>
    rw [verdict] at hstatus
    split_ifs at hstatus
    obtain ⟨t, -, hdispatch⟩ := Option.map_eq_some_iff.mp hstatus
    split_ifs at hdispatch
  | createTask | confirmTask | fireDueCron | cleanupHistory => cases hstatus

/-- Only a scan times a row out, and only a running one. -/
theorem Decided.of_timeout (h : Decided db now call s r) (hr : r.status = .timeout) :
    call = .scanTimeouts ∧ s.status = .running := by
  have hstatus := h.status
  rw [hr] at hstatus
  cases call with
  | scanTimeouts =>
    rw [verdict] at hstatus
    split_ifs at hstatus with hscan
    obtain ⟨t, -, -, hexpired⟩ := hscan
    exact ⟨rfl, running_of_isExpired hexpired⟩
  | reportResult serverId data =>
    rw [verdict] at hstatus
    split_ifs at hstatus
    obtain ⟨t, -, hreport⟩ := Option.map_eq_some_iff.mp hstatus
    unfold reportStatus at hreport
    split_ifs at hreport
  | fetchPending | cancelTask =>
    rw [verdict] at hstatus
    split_ifs at hstatus
    cases hstatus
  | dispatchRetries limit =>
    rw [verdict] at hstatus
    split_ifs at hstatus
    obtain ⟨t, -, hdispatch⟩ := Option.map_eq_some_iff.mp hstatus
    split_ifs at hdispatch
  | createTask | confirmTask | fireDueCron | cleanupHistory => cases hstatus

/-- A waiting row is closed by the dispatch of its retry, or reported again. -/
theorem Decided.was_retrying (h : Decided db now call s r) (hs : s.status = .retrying) :
    (∃ limit, call = .dispatchRetries limit ∧ r.status ∈ [.failed, .dead]) ∨
      ∃ data, call = .reportResult s.serverId data ∧ data.executionId = s.id := by
  have hne : ∀ status : ExecutionStatus, status ≠ .retrying → s.status ≠ status := by
    rintro status hstatus rfl
    exact hstatus hs
  have hstatus := h.status
  cases call with
  | dispatchRetries limit =>
    rw [verdict] at hstatus
    split_ifs at hstatus
    obtain ⟨t, -, hdispatch⟩ := Option.map_eq_some_iff.mp hstatus
    refine .inl ⟨limit, rfl, ?_⟩
    rw [← hdispatch]
    split_ifs <;> simp
  | reportResult serverId data =>
    rw [verdict] at hstatus
    split_ifs at hstatus with hguard
    obtain ⟨hid, rfl, -⟩ := hguard
    exact .inr ⟨data, rfl, hid.symm⟩
  | scanTimeouts =>
    rw [verdict] at hstatus
    split_ifs at hstatus with hscan
    obtain ⟨t, -, -, hexpired⟩ := hscan
    exact absurd (running_of_isExpired hexpired) (hne .running (by decide))
  | cancelTask taskId =>
    rw [verdict] at hstatus
    split_ifs at hstatus with hcancel
    exact absurd hcancel.2.1 (hne .pending (by decide))
  | fetchPending serverId =>
    rw [verdict] at hstatus
    split_ifs at hstatus with hclaim
    exact absurd (mem_fetchPendingByServer hclaim).1.2.1 (hne .pending (by decide))
  | createTask | confirmTask | fireDueCron | cleanupHistory => cases hstatus

end Decided

end OpsMonitor.Task
