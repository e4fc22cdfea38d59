import OpsMonitor.Task.Concurrency

/-! What a single call decides about a row it finds: the guards of the code on the row, its task
and the request. One lemma for each call says that the row has the decided status afterwards. -/

namespace OpsMonitor.Task
open Library

/-! ## The guards -/

/-- The branches of `report_result` after its guards. -/
def reportStatus (now : Time) (task : OpsTask) (execution : OpsTaskExecution)
    (data : TaskResultRequest) : ExecutionStatus :=
  if data.status = "SUCCESS" then .success
  else if Retry.isRetryable data.errorType data.errorMessage then
    if canRetry task execution now then .retrying else .dead
  else .failed

/-- The status a call gives to the row `e`, if it decides about it. -/
def verdict (db : Db) (now : Time) (e : OpsTaskExecution) : Call → Option ExecutionStatus
  | .reportResult serverId data =>
    if e.id = data.executionId ∧ e.serverId = serverId ∧ e.status.finished = false then
      (db.tasks.get? e.taskId).map fun task => reportStatus now task e data
    else none
  | .scanTimeouts =>
    if ∃ task ∈ db.tasks.get? e.taskId,
        task.status = .running ∧ e.isExpired now task.timeoutSeconds = true then some .timeout
    else none
  | .cancelTask taskId =>
    if e.taskId = taskId ∧ e.status = .pending ∧
        ∃ task ∈ db.tasks.get? taskId, task.status.finished = false then some .cancelled
    else none
  | .fetchPending serverId =>
    if e ∈ db.fetchPendingByServer serverId 10 then some .running else none
  | .dispatchRetries limit =>
    if e ∈ db.listDueRetries now limit then
      (db.tasks.get? e.taskId).map fun task => if canRetry task e now then .failed else .dead
    else none
  | _ => none

/-- The calls that race for the executions. -/
def Call.contends : Call → Bool
  | .reportResult .. | .scanTimeouts | .cancelTask _ | .fetchPending _ | .dispatchRetries _ => true
  | _ => false

variable {croniter : CronIter} {now : Time} {kept : Prop} {db db' : Db} {e : OpsTaskExecution}

theorem getTask_eq {t : OpsTask} (ht : t ∈ db.tasks) (hid : t.id = e.taskId) :
    db.tasks.get? e.taskId = some t := Table.get?_eq_some.mpr ⟨ht, hid⟩

/-- A finished row is left alone by every guard. -/
theorem verdict_of_finished (hfin : e.status.finished = true) (call : Call) :
    verdict db now e call = none := by
  have hne : ∀ s : ExecutionStatus, s.finished = false → e.status ≠ s := by
    rintro s hs rfl
    simp [hs] at hfin
  cases call with
  | reportResult serverId data => exact if_neg fun h => by simp [hfin] at h
  | scanTimeouts =>
    exact if_neg fun ⟨_, _, _, hexpired⟩ => hne .running rfl (running_of_isExpired hexpired)
  | cancelTask taskId => exact if_neg fun h => hne .pending rfl h.2.1
  | fetchPending serverId =>
    exact if_neg fun h => hne .pending rfl (mem_fetchPendingByServer h).1.2.1
  | dispatchRetries limit => exact if_neg fun h => hne .retrying rfl (mem_listDueRetries h).2.1
  | _ => rfl

/-! ## What a decision does to the row -/

/-- The row that a call leaves where it found `e`, after it decided about it. -/
structure Decided (db : Db) (now : Time) (call : Call) (e r : OpsTaskExecution) : Prop where
  id : r.id = e.id
  status : verdict db now e call = some r.status
  started : r.status = .running → r.startedAt = some now
  delayed : r.status = .retrying →
    r.nextRetryAt = some (now + Clock.seconds (Retry.backoffSeconds e.attempt))

/-- The row `e` has what the call decided about it, and stays as it was when the call did not. -/
def Settled (db : Db) (now : Time) (call : Call) (e : OpsTaskExecution) (db' : Db) : Prop :=
  (∃ r ∈ db'.executions, Decided db now call e r) ∨
    verdict db now e call = none ∧ e ∈ db'.executions

theorem Settled.hasStatus {call : Call} (h : Settled db now call e db') :
    db'.HasStatus e.id ((verdict db now e call).getD e.status) := by
  rcases h with ⟨r, hr, hdec⟩ | ⟨hnone, he⟩
  · rw [hdec.status]
    exact ⟨r, hr, hdec.id, rfl⟩
  · rw [hnone]
    exact Db.hasStatus_self he

/-! ## Reports -/

theorem recordResult_eq (db : Db) (now : Time) (t : OpsTask) (execution : OpsTaskExecution)
    (data : TaskResultRequest) :
    ∃ (f : OpsTaskExecution → OpsTaskExecution) (hf : ∀ r, Keyed.key (f r) = Keyed.key r)
      (logs : Table OpsTaskLog), recordResult db now t execution data =
          { db.withExecution execution.id f hf with logs := logs } ∧
        (∀ r, (f r).status = reportStatus now t execution data) ∧
        (reportStatus now t execution data = .retrying → ∀ r, (f r).nextRetryAt =
          some (now + Clock.seconds (Retry.backoffSeconds execution.attempt))) := by
  unfold recordResult reportStatus
  dsimp only
  split_ifs with hsuccess hretryable hbudget
  all_goals
    refine ⟨_, ?_, _, rfl, ?_, ?_⟩
    · exact fun _ => rfl
    · exact fun _ => rfl
    · first | exact fun h _ => absurd h (by decide) | exact fun _ _ => rfl

theorem reportStatus_ne_running (t : OpsTask) (data : TaskResultRequest) :
    reportStatus now t e data ≠ .running := by
  unfold reportStatus
  split_ifs <;> exact nofun

theorem reportResult_settles {serverId : ℕ} {data : TaskResultRequest}
    (h : reportResult db now serverId data = .ok db') (he : e ∈ db.executions) :
    Settled db now (.reportResult serverId data) e db' := by
  unfold reportResult at h
  cases hget : db.executions.get? data.executionId with
  | none => simp [hget] at h
  | some x =>
    obtain ⟨hx, hid⟩ := Table.get?_eq_some.mp hget
    have hsame : e.id = data.executionId → e = x := fun heq =>
      Table.eq_of_key_eq he hx (heq.trans hid.symm)
    simp only [hget] at h
    split_ifs at h with hserver hfin
    · obtain rfl : db = db' := by simpa using h
      refine .inr ⟨if_neg ?_, he⟩
      rintro ⟨heq, -, hopen⟩
      rw [hsame heq] at hopen
      simp [hfin] at hopen
    · obtain ⟨t, hget, hdb⟩ := bind_eq_ok.mp h
      obtain ⟨ht, htid⟩ := getTaskEntity_eq_ok.mp hget
      obtain rfl := pure_eq_ok.mp hdb
      obtain ⟨f, hf, logs, heq, hstatus, hdelayed⟩ := recordResult_eq db now t x data
      rw [Settled, executions_aggregate, heq]
      by_cases hex : e.id = data.executionId
      · obtain rfl := hsame hex
        have hverdict : verdict db now e (.reportResult serverId data) =
            some (reportStatus now t e data) := by
          rw [verdict, if_pos ⟨hex, not_not.mp hserver, Bool.eq_false_iff.mpr hfin⟩,
            getTask_eq ht htid]
          rfl
        have hrow : f e ∈ (db.withExecution e.id f hf).executions :=
          Db.mem_withExecution.mpr ⟨e, he, if_pos rfl⟩
        refine .inl ⟨f e, hrow, hf e, by rw [hverdict, hstatus], ?_, ?_⟩
        · intro hrunning
          exact absurd ((hstatus e).symm.trans hrunning) (reportStatus_ne_running t data)
        · intro hretrying
          exact hdelayed ((hstatus e).symm.trans hretrying) e
      · have hrow : e ∈ (db.withExecution x.id f hf).executions :=
          Db.mem_withExecution.mpr ⟨e, he, if_neg fun h => hex (h.trans hid)⟩
        exact .inr ⟨if_neg fun h => hex h.1, hrow⟩

/-! ## Cancellations and timeouts -/

theorem cancelTask_settles {taskId : ℕ} (h : cancelTask db now taskId = .ok db')
    (he : e ∈ db.executions) : Settled db now (.cancelTask taskId) e db' := by
  obtain ⟨t, ht, rfl, hopen, rfl⟩ := cancelTask_eq_ok.mp h
  have hget : db.tasks.get? t.id = some t := Table.get?_key ht
  have hmem : (cancelEdit db now t).edit e ∈ ((cancelEdit db now t).apply db.logs).executions :=
    List.mem_map.mpr ⟨e, he, rfl⟩
  rw [Settled, executions_aggregate]
  by_cases hpending : e.taskId = t.id ∧ e.status = .pending
  · have hcancelled := @cancelEdit_of_pending now _ _ _ ⟨he, hpending.1⟩ hpending.2
    refine .inl ⟨_, hmem, ((cancelEdit db now t).sameRow he).id, ?_, ?_, ?_⟩
    · rw [hcancelled]
      exact if_pos ⟨hpending.1, hpending.2, t, hget, hopen⟩
    · intro hrunning
      simp [hcancelled] at hrunning
    · intro hretrying
      simp [hcancelled] at hretrying
  · rw [show (cancelEdit db now t).edit e = e from if_neg hpending] at hmem
    exact .inr ⟨if_neg fun h => hpending ⟨h.1, h.2.1⟩, hmem⟩

/-- What a scan makes of a row of the task `t`. -/
def timedOut (now : Time) (t : OpsTask) (e : OpsTaskExecution) : OpsTaskExecution :=
  if e.isExpired now t.timeoutSeconds then e.markTimeout now t.timeoutSeconds else e

/-- A turn of the scan changes the rows of its task, if at all. -/
theorem mem_scanTask {acc : Db × ℕ} {t : OpsTask} (he : e ∈ acc.1.executions) :
    (if e.taskId = t.id then timedOut now t e else e) ∈ (scanTask now acc t).1.executions := by
  have hedit : (timeoutEdit acc.1 now t).edit e =
      if e.taskId = t.id then timedOut now t e else e := by
    simp only [timeoutEdit, RowEdit.when, timedOut, ite_and]
  rw [← hedit, scanTask_eq]
  split_ifs with hnone
  · have hno : ¬ (e.taskId = t.id ∧ e.isExpired now t.timeoutSeconds = true) := by
      rintro ⟨htask, hexpired⟩
      have hmem := List.mem_filter.mpr ⟨Db.mem_listByTask.mpr ⟨he, htask⟩, hexpired⟩
      rw [hnone] at hmem
      cases hmem
    rwa [show (timeoutEdit acc.1 now t).edit e = e from if_neg hno]
  · rw [executions_aggregate]
    exact List.mem_map.mpr ⟨e, he, rfl⟩

theorem timedOut_id (t : OpsTask) : (timedOut now t e).id = e.id := by
  unfold timedOut
  split_ifs <;> rfl

theorem timedOut_taskId (t : OpsTask) : (timedOut now t e).taskId = e.taskId := by
  unfold timedOut
  split_ifs <;> rfl

theorem mem_scanTimeouts {t : OpsTask} (ht : t ∈ db.tasks) (hid : t.id = e.taskId)
    (he : e ∈ db.executions) :
    (if t.status = .running then timedOut now t e else e) ∈ (scanTimeouts db now).1.executions := by
  have hloop := loop_foldl (scanTask now) (db.tasks.select fun t => t.status = .running) (db, 0)
  have hsorted := Table.select_sorted db.tasks fun t => t.status = .running
  have hother : ∀ (u : OpsTask) (acc : Db × ℕ) (r : OpsTaskExecution), r.taskId ≠ u.id →
      r ∈ acc.1.executions → r ∈ (scanTask now acc u).1.executions := by
    intro u acc r hne hr
    have hmem := @mem_scanTask now r acc u hr
    rwa [if_neg hne] at hmem
  split_ifs with hrunning
  · have hmem : t ∈ db.tasks.select fun t => t.status = .running :=
      Table.mem_select.mpr ⟨ht, decide_eq_true hrunning⟩
    -- the turn of the task decides, the turns of other tasks leave its rows alone
    refine hloop.each (G := fun u acc => u.id = e.taskId → e ∈ acc.1.executions)
      (D := fun t u => t.id < u.id)
      (Q := fun u acc => u.id = e.taskId → timedOut now u e ∈ acc.1.executions) ?_ ?_ ?_ hsorted
      (fun _ _ _ => he) t hmem hid
    · rintro u - acc _ hG rfl huid
      have hturn := @mem_scanTask now e acc u (hG huid)
      rwa [if_pos huid.symm] at hturn
    · rintro u v acc _ hlt - rfl hG hvid
      exact hother u acc e (by rw [← hvid]; exact hlt.ne') (hG hvid)
    · rintro u v acc _ hlt - rfl hQ hvid
      exact hother u acc _ (by rw [timedOut_taskId, ← hvid]; exact hlt.ne) (hQ hvid)
  · refine hloop.carries (P := fun acc => e ∈ acc.1.executions) (G := fun _ _ => True)
      (D := fun t u => t.id < u.id) ?_ (fun _ _ _ _ _ _ _ h => h) hsorted (fun _ _ => trivial) he
    rintro u hu acc _ - rfl hP
    obtain ⟨hu, hurunning⟩ := Table.mem_select.mp hu
    refine hother u acc e (fun heq => hrunning ?_) hP
    rw [Table.eq_of_key_eq ht hu (hid.trans heq)]
    exact of_decide_eq_true hurunning

theorem scanTimeouts_settles {t : OpsTask} (ht : t ∈ db.tasks) (hid : t.id = e.taskId)
    (he : e ∈ db.executions) : Settled db now .scanTimeouts e (scanTimeouts db now).1 := by
  have hiff : (∃ task ∈ db.tasks.get? e.taskId, task.status = .running ∧
      e.isExpired now task.timeoutSeconds = true) ↔
        t.status = .running ∧ e.isExpired now t.timeoutSeconds = true := by
    simp [getTask_eq ht hid]
  have hmem := @mem_scanTimeouts now db e t ht hid he
  by_cases hexpired : t.status = .running ∧ e.isExpired now t.timeoutSeconds = true
  · rw [if_pos hexpired.1, timedOut, if_pos hexpired.2] at hmem
    exact .inl ⟨_, hmem, rfl, if_pos (hiff.mpr hexpired), nofun, nofun⟩
  · have hsame : (if t.status = .running then timedOut now t e else e) = e := by
      rw [timedOut]
      split_ifs with hrunning hexp
      · exact absurd ⟨hrunning, hexp⟩ hexpired
      · rfl
      · rfl
    rw [hsame] at hmem
    exact .inr ⟨if_neg (hexpired ∘ hiff.mp), hmem⟩

/-! ## Polls -/

theorem fetchPending_settles {serverId : ℕ} (he : e ∈ db.executions) :
    Settled db now (.fetchPending serverId) e (fetchPending db now serverId).1 := by
  by_cases hclaim : e ∈ db.fetchPendingByServer serverId 10
  · exact .inl ⟨_, fetchPending_row hclaim, rfl, if_pos hclaim, fun _ => rfl, nofun⟩
  · have hloop := loop_foldl (claimExecution now) (db.fetchPendingByServer serverId 10) (db, [])
    have hrow : e ∈ (fetchPending db now serverId).1.executions := by
      refine hloop.carries (P := fun acc => e ∈ acc.1.executions) (G := fun _ _ => True)
        (D := fun e f => e.id < f.id) ?_ (fun _ _ _ _ _ _ _ h => h)
        (fetchPending_sorted db serverId 10) (fun _ _ => trivial) he
      rintro f hf acc _ - rfl hP
      refine claimExecution_other (fun heq => hclaim ?_) hP
      rwa [Table.eq_of_key_eq he (mem_fetchPendingByServer hf).1.1 heq]
    exact .inr ⟨if_neg hclaim, hrow⟩

/-! ## The retry dispatch -/

/-- `r` is the attempt after `e`. -/
def IsNext (e r : OpsTaskExecution) : Prop := SameChain e r ∧ r.attempt = e.attempt + 1

theorem canRetry_congr {t t' : OpsTask} (h : SameTask t t') :
    canRetry t' e now = canRetry t e now := by
  unfold canRetry
  rw [h.maxAttempts, h.deadlineAt]

/-- What a turn of the dispatch does to the rows. -/
structure DispatchTurn (now : Time) (db : Db) (t : OpsTask) (e : OpsTaskExecution) (db' : Db) :
    Prop where
  row : db'.HasStatus e.id (if canRetry t e now then .failed else .dead)
  next : canRetry t e now = true → ∃ r ∈ db'.executions, r.id = db.executions.next ∧ IsNext e r
  keeps : ∀ f ∈ db.executions, f.id ≠ e.id → f ∈ db'.executions
  origin : ∀ r ∈ db'.executions, (∃ s ∈ db.executions, s.id = r.id ∧ (s.id ≠ e.id → s = r)) ∨
    canRetry t e now = true ∧ r.status = .pending ∧ IsNext e r
  counter : db.executions.next ≤ db'.executions.next

theorem Inv.dispatchTurn (h : Inv kept db) {n n' : ℕ} (he : DueRetry now e db)
    (hturn : dispatchExecution now (db, n) e = .ok (db', n')) :
    ∃ t ∈ db.tasks, t.id = e.taskId ∧ DispatchTurn now db t e db' := by
  have hmove := @dispatchExecution_move (fun _ _ => none) _ _ _ _ _ _ he hturn
  obtain ⟨⟨act, -, hact⟩, hkeeps⟩ := hmove
  have hcounter := hact.executions_next_le
  obtain ⟨t, ht, hrow, hcases⟩ := dispatchExecution_cases he hturn
  have hold : ∀ (w : RowEdit db now t), (∀ s ∈ db.executions, s ≠ e → w.edit s = s) →
      ∀ s ∈ db.executions, s.id = (w.edit s).id ∧ (s.id ≠ e.id → s = w.edit s) := by
    intro w hw s hs
    exact ⟨(w.sameRow hs).id.symm, fun hne => (hw s hs fun heq => hne (by rw [heq])).symm⟩
  refine ⟨t, ht, hrow.2.symm, ?_⟩
  rcases hcases with ⟨hfin, -⟩ | ⟨-, hbudget, logs, rfl⟩ | ⟨-, hbudget, logs, rfl⟩
  · -- a finished task has no row that waits for a retry
    have hefin := (h.status t ht).finished_rows hfin e hrow
    simp [he.2.1, ExecutionStatus.finished] at hefin
  · have hedit : (deadEdit now hrow he.2.1).edit e = e.markDead now _ _ := if_pos rfl
    rw [executions_aggregate] at hkeeps hcounter
    constructor
    · rw [Db.HasStatus, executions_aggregate, hbudget]
      exact ⟨_, List.mem_map.mpr ⟨e, he.1, rfl⟩, by rw [hedit]; rfl, by rw [hedit]; rfl⟩
    · intro hyes
      simp [hbudget] at hyes
    · rwa [executions_aggregate]
    · intro r hr
      rw [executions_aggregate] at hr
      obtain ⟨s, hs, rfl⟩ := List.mem_map.mp hr
      exact .inl ⟨s, hs, hold _ (fun s hs hne => RowEdit.one_edit_ne hs hne) s hs⟩
    · rwa [executions_aggregate]
  · have hedit : (archiveEdit now hrow he.2.1).edit e = e.finish now .failed _ _ _ _ := if_pos rfl
    rw [executions_aggregate] at hkeeps hcounter
    constructor
    · rw [Db.HasStatus, executions_aggregate, hbudget]
      exact ⟨_, Table.mem_insert.mpr (.inl (List.mem_map.mpr ⟨e, he.1, rfl⟩)), by rw [hedit]; rfl,
        by rw [hedit]; rfl⟩
    · intro _
      rw [executions_aggregate]
      exact ⟨_, Table.mem_insert.mpr (.inr rfl), rfl, ⟨rfl, rfl⟩, rfl⟩
    · rwa [executions_aggregate]
    · intro r hr
      rw [executions_aggregate] at hr
      rcases Table.mem_insert.mp hr with hr | rfl
      · obtain ⟨s, hs, rfl⟩ := List.mem_map.mp hr
        exact .inl ⟨s, hs, hold _ (fun s hs hne => RowEdit.one_edit_ne hs hne) s hs⟩
      · exact .inr ⟨hbudget, rfl, ⟨rfl, rfl⟩, rfl⟩
    · rwa [executions_aggregate]

/-- A due row of the list, while the rows before it are dispatched. -/
structure DispatchGuard (kept : Prop) (now : Time) (base : Db) (e : OpsTaskExecution) (db : Db) :
    Prop where
  due : DueRetry now e db
  known : e.id < base.executions.next
  counter : base.executions.next ≤ db.executions.next
  inv : Inv kept db
  tasks : ∀ t ∈ db.tasks, ∃ t₀ ∈ base.tasks, SameTask t₀ t

theorem DispatchGuard.turn {base : Db} {n n' : ℕ} (h : DispatchGuard kept now base e db)
    (hturn : dispatchExecution now (db, n) e = .ok (db', n')) {t₀ : OpsTask} (ht₀ : t₀ ∈ base.tasks)
    (hid : t₀.id = e.taskId) : DispatchTurn now db t₀ e db' := by
  obtain ⟨t, ht, htid, hspec⟩ := h.inv.dispatchTurn h.due hturn
  obtain ⟨t₁, ht₁, hsame⟩ := h.tasks t ht
  obtain rfl : t₁ = t₀ := Table.eq_of_key_eq ht₁ ht₀ (hsame.id.symm.trans (htid.trans hid.symm))
  have hretry : canRetry t e now = canRetry t₁ e now := canRetry_congr hsame
  exact ⟨hretry ▸ hspec.row, fun hyes => hspec.next (hretry.trans hyes), hspec.keeps,
    fun r hr => (hspec.origin r hr).imp_right fun ⟨hyes, hrest⟩ => ⟨hretry ▸ hyes, hrest⟩,
    hspec.counter⟩

theorem DispatchGuard.keeps {base : Db} {n n' : ℕ} {f : OpsTaskExecution} (hne : e.id ≠ f.id)
    (he : DispatchGuard kept now base e db)
    (hturn : dispatchExecution now (db, n) e = .ok (db', n'))
    (hf : DispatchGuard kept now base f db) : DispatchGuard kept now base f db' := by
  obtain ⟨⟨act, hact, hmove⟩, -⟩ :=
    @dispatchExecution_move (fun _ _ => none) _ _ _ _ _ _ he.due hturn
  have hpurge : act ≠ .purge := by
    rintro rfl
    simp at hact
  refine ⟨dispatchExecution_keeps hne he.due hturn hf.due, hf.known,
    hf.counter.trans hmove.executions_next_le, hf.inv.move hmove hpurge, ?_⟩
  intro t' ht'
  cases hmove.taskOrigin ht' with
  | old ht hsame =>
    obtain ⟨t₀, ht₀, hsame₀⟩ := hf.tasks _ ht
    exact ⟨t₀, ht₀, hsame₀.trans hsame⟩
  | confirmed | inserted => simp at hact

section Dispatch
variable {limit n : ℕ}

theorem Inv.dispatchGuard (h : Inv kept db) {e : OpsTaskExecution}
    (he : e ∈ db.listDueRetries now limit) : DispatchGuard kept now db e db where
  due := mem_listDueRetries he
  known := Table.key_lt (mem_listDueRetries he).1
  counter := le_rfl
  inv := h
  tasks := fun t ht => ⟨t, ht, .rfl' t⟩

/-- The row has an attempt left when the dispatch of the list comes to it. -/
def Retries (db : Db) (now : Time) (limit : ℕ) (e : OpsTaskExecution) : Prop :=
  e ∈ db.listDueRetries now limit ∧ ∃ t ∈ db.tasks.get? e.taskId, canRetry t e now = true

theorem Retries.mem {e : OpsTaskExecution} (h : Retries db now limit e) : e ∈ db.executions :=
  (mem_listDueRetries h.1).1

theorem Inv.dispatched_row (h : Inv kept db) (hok : dispatchRetries db now limit = .ok (db', n))
    (he : e ∈ db.listDueRetries now limit) {t : OpsTask} (ht : t ∈ db.tasks)
    (hid : t.id = e.taskId) :
    db'.HasStatus e.id (if canRetry t e now then .failed else .dead) ∧
      (canRetry t e now = true → ∃ r ∈ db'.executions, db.executions.next ≤ r.id ∧ IsNext e r) := by
  have hloop := loop_foldlM hok
  refine hloop.each (G := fun e acc => DispatchGuard kept now db e acc.1)
    (D := fun e f => e.id ≠ f.id)
    (Q := fun e acc => ∀ t ∈ db.tasks, t.id = e.taskId →
      acc.1.HasStatus e.id (if canRetry t e now then .failed else .dead) ∧
      (canRetry t e now = true →
        ∃ r ∈ acc.1.executions, db.executions.next ≤ r.id ∧ IsNext e r)) ?_ ?_ ?_
    (listDueRetries_distinct db now limit) (fun _ => h.dispatchGuard) e he t ht hid
  · rintro e - ⟨d, k⟩ ⟨d', k'⟩ hG hturn t ht hid
    have hspec := hG.turn hturn ht hid
    refine ⟨hspec.row, fun hyes => ?_⟩
    obtain ⟨r, hr, hrid, hnext⟩ := hspec.next hyes
    exact ⟨r, hr, by rw [hrid]; exact hG.counter, hnext⟩
  · rintro e f ⟨d, k⟩ ⟨d', k'⟩ hne hG hturn hGf
    exact DispatchGuard.keeps hne hG hturn hGf
  · rintro e f ⟨d, k⟩ ⟨d', k'⟩ hne hG hturn hQ t ht hid
    obtain ⟨-, hkeeps⟩ := @dispatchExecution_move (fun _ _ => none) _ _ _ _ _ _ hG.due hturn
    obtain ⟨⟨r, hr, hrid, hs⟩, hnext⟩ := hQ t ht hid
    refine ⟨⟨r, hkeeps r hr (by rw [hrid]; exact hne), hrid, hs⟩, fun hyes => ?_⟩
    obtain ⟨r', hr', hle, hisnext⟩ := hnext hyes
    have hknown := hG.known
    exact ⟨r', hkeeps r' hr' (by omega), hle, hisnext⟩

theorem Inv.dispatchRetries_settles (h : Inv kept db)
    (hok : dispatchRetries db now limit = .ok (db', n)) (he : e ∈ db.executions) :
    Settled db now (.dispatchRetries limit) e db' := by
  by_cases hdue : e ∈ db.listDueRetries now limit
  · obtain ⟨t, ht, hid, -⟩ := h.task_of e he
    obtain ⟨r, hr, hrid, hstatus⟩ := (h.dispatched_row hok hdue ht hid).1
    have hfin : r.status = .failed ∨ r.status = .dead := by
      rw [hstatus]
      split_ifs
      · exact .inl rfl
      · exact .inr rfl
    refine .inl ⟨r, hr, hrid, ?_, ?_, ?_⟩
    · rw [verdict, if_pos hdue, getTask_eq ht hid, hstatus]
      rfl
    · intro hrunning
      simp [hrunning] at hfin
    · intro hretrying
      simp [hretrying] at hfin
  · have hloop := loop_foldlM hok
    have hrow : e ∈ db'.executions := by
      refine hloop.carries (P := fun acc => e ∈ acc.1.executions)
        (G := fun e acc => DueRetry now e acc.1) (D := fun e f => e.id ≠ f.id) ?_
        (fun e f s s' => dispatchExecution_keeps) (listDueRetries_distinct db now limit)
        (fun f => mem_listDueRetries) he
      rintro f hf ⟨d, k⟩ ⟨d', k'⟩ hG hturn hP
      refine (@dispatchExecution_move (fun _ _ => none) _ _ _ _ _ _ hG hturn).2 e hP fun heq => ?_
      rw [Table.eq_of_key_eq he (mem_listDueRetries hf).1 heq] at hdue
      exact hdue hf
    exact .inr ⟨if_neg hdue, hrow⟩

/-- The rows that a dispatch adds are the next attempts of the rows it retries. -/
theorem Inv.dispatched_origin (h : Inv kept db)
    (hok : dispatchRetries db now limit = .ok (db', n)) {r : OpsTaskExecution}
    (hr : r ∈ db'.executions) (hle : db.executions.next ≤ r.id) :
    r.status = .pending ∧ ∃ e, Retries db now limit e ∧ IsNext e r := by
  have hloop := loop_foldlM hok
  have hall : ∀ r ∈ db'.executions, db.executions.next ≤ r.id →
      r.status = .pending ∧ ∃ e, Retries db now limit e ∧ IsNext e r := by
    refine hloop.carries (P := fun acc => ∀ r ∈ acc.1.executions, db.executions.next ≤ r.id →
        r.status = .pending ∧ ∃ e, Retries db now limit e ∧ IsNext e r)
      (G := fun e acc => DispatchGuard kept now db e acc.1) (D := fun e f => e.id ≠ f.id) ?_ ?_
      (listDueRetries_distinct db now limit) (fun _ => h.dispatchGuard) ?_
    · rintro e he ⟨d, k⟩ ⟨d', k'⟩ hG hturn hP r hr hle
      obtain ⟨t, ht, hid, -⟩ := h.task_of e (mem_listDueRetries he).1
      rcases (hG.turn hturn ht hid).origin r hr with ⟨s, hs, hsid, hsame⟩ | ⟨hyes, hpending, hnext⟩
      · have hknown := hG.known
        obtain rfl := hsame (by omega)
        exact hP s hs hle
      · exact ⟨hpending, e, ⟨he, t, getTask_eq ht hid, hyes⟩, hnext⟩
    · rintro e f ⟨d, k⟩ ⟨d', k'⟩ hne hG hturn hGf
      exact DispatchGuard.keeps hne hG hturn hGf
    · intro r hr hle
      have hlt : r.id < db.executions.next := Table.key_lt hr
      omega
  exact hall r hr hle

end Dispatch

/-! ## All contending calls -/

section Perform
variable {call : Call} {reply : Reply}

theorem Inv.perform_settles (h : Inv kept db) (hcall : call.contends = true)
    (hok : perform croniter db now call = .ok (db', reply)) (he : e ∈ db.executions) :
    Settled db now call e db' := by
  obtain ⟨t, ht, hid, -⟩ := h.task_of e he
  cases call with
  | reportResult serverId data =>
    obtain ⟨d, hreport, hok⟩ := bind_eq_ok.mp hok
    obtain ⟨rfl, -⟩ := Prod.ext_iff.mp (pure_eq_ok.mp hok)
    exact reportResult_settles hreport he
  | scanTimeouts =>
    obtain ⟨rfl, -⟩ := Prod.ext_iff.mp (pure_eq_ok.mp hok)
    exact scanTimeouts_settles ht hid he
  | cancelTask taskId =>
    obtain ⟨d, hcancel, hok⟩ := bind_eq_ok.mp hok
    obtain ⟨rfl, -⟩ := Prod.ext_iff.mp (pure_eq_ok.mp hok)
    exact cancelTask_settles hcancel he
  | fetchPending serverId =>
    obtain ⟨rfl, -⟩ := Prod.ext_iff.mp (pure_eq_ok.mp hok)
    exact fetchPending_settles he
  | dispatchRetries limit =>
    obtain ⟨⟨d, n⟩, hdispatch, hok⟩ := bind_eq_ok.mp hok
    obtain ⟨rfl, -⟩ := Prod.ext_iff.mp (pure_eq_ok.mp hok)
    exact h.dispatchRetries_settles hdispatch he
  | createTask | confirmTask | fireDueCron | cleanupHistory => cases hcall

theorem Inv.perform_hasStatus (h : Inv kept db) (hcall : call.contends = true)
    (hok : perform croniter db now call = .ok (db', reply)) (he : e ∈ db.executions) :
    db'.HasStatus e.id ((verdict db now e call).getD e.status) :=
  (h.perform_settles hcall hok he).hasStatus

/-- A call that raises decides about no row. -/
theorem Inv.verdict_of_error (h : Inv kept db) (hcall : call.contends = true) {x : Failure}
    (herr : perform croniter db now call = .error x) (he : e ∈ db.executions) :
    verdict db now e call = none := by
  cases call with
  | reportResult serverId data =>
    refine if_neg fun ⟨hid, hserver, hopen⟩ => ?_
    obtain ⟨t, ht, htid, -⟩ := h.task_of e he
    have hget : db.executions.get? data.executionId = some e := Table.get?_eq_some.mpr ⟨he, hid⟩
    have hok : reportResult db now serverId data =
        .ok (aggregateTaskStatus (recordResult db now t e data) now t.id) := by
      have htask := getTaskEntity_eq_ok.mpr ⟨ht, htid⟩
      simp [reportResult, hget, hserver, hopen, htask, bind, Except.bind, pure, Except.pure]
    rcases bind_eq_error.mp herr with herr | ⟨d, -, herr⟩
    · cases hok.symm.trans herr
    · exact pure_ne_error herr
  | cancelTask taskId =>
    refine if_neg fun ⟨_, _, t, hget, hopen⟩ => ?_
    have hok : ∃ d, cancelTask db now taskId = .ok d := by
      have hmem := Table.get?_eq_some.mp hget
      exact ⟨_, cancelTask_eq_ok.mpr ⟨t, hmem.1, hmem.2, hopen, rfl⟩⟩
    obtain ⟨d, hok⟩ := hok
    rcases bind_eq_error.mp herr with herr | ⟨d, -, herr⟩
    · cases hok.symm.trans herr
    · exact pure_ne_error herr
  | dispatchRetries limit =>
    rcases bind_eq_error.mp herr with herr | ⟨d, -, herr⟩
    · exact absurd herr h.dispatchRetries_ne
    · exact absurd herr pure_ne_error
  | scanTimeouts | fetchPending => exact absurd herr pure_ne_error
  | createTask | confirmTask | fireDueCron | cleanupHistory => cases hcall

/-- Only the dispatch adds rows, the next attempts of the rows it retries. -/
theorem Inv.perform_inserted (h : Inv kept db) (hcall : call.contends = true)
    (hok : perform croniter db now call = .ok (db', reply)) {r : OpsTaskExecution}
    (hr : r ∈ Table.inserted db.executions db'.executions) :
    r.status = .pending ∧ ∃ limit, call = .dispatchRetries limit ∧
      ∃ e, Retries db now limit e ∧ IsNext e r := by
  obtain ⟨hr, hle⟩ := Table.mem_inserted.mp hr
  have hmoves := perform_moves hok
  have hnone : (∀ act, call.allows croniter db now reply act → ¬ act.Adds) → False := by
    intro hadds
    have hnext := hmoves.executions_next_eq hadds
    have hlt := Table.key_lt hr
    omega
  cases call with
  | dispatchRetries limit =>
    obtain ⟨⟨d, n⟩, hdispatch, hok⟩ := bind_eq_ok.mp hok
    obtain ⟨rfl, -⟩ := Prod.ext_iff.mp (pure_eq_ok.mp hok)
    obtain ⟨hpending, hnext⟩ := h.dispatched_origin hdispatch hr hle
    exact ⟨hpending, limit, rfl, hnext⟩
  | reportResult serverId data => exact (hnone (by rintro _ ⟨_, _, _, _, rfl⟩; exact id)).elim
  | scanTimeouts => exact (hnone (by rintro _ ⟨_, rfl⟩; exact id)).elim
  | cancelTask taskId => exact (hnone (by rintro _ rfl; exact id)).elim
  | fetchPending serverId => exact (hnone (by rintro _ ⟨_, _, rfl⟩; exact id)).elim
  | createTask | confirmTask | fireDueCron | cleanupHistory => cases hcall

theorem Inv.exists_inserted (h : Inv kept db) {limit : ℕ}
    (hok : perform croniter db now (.dispatchRetries limit) = .ok (db', reply))
    (he : Retries db now limit e) :
    ∃ r ∈ Table.inserted db.executions db'.executions, IsNext e r := by
  obtain ⟨⟨d, n⟩, hdispatch, hok⟩ := bind_eq_ok.mp hok
  obtain ⟨rfl, -⟩ := Prod.ext_iff.mp (pure_eq_ok.mp hok)
  obtain ⟨hdue, t, hget, hretry⟩ := he
  obtain ⟨ht, hid⟩ := Table.get?_eq_some.mp hget
  obtain ⟨r, hr, hle, hnext⟩ := (h.dispatched_row hdispatch hdue ht hid).2 hretry
  exact ⟨r, Table.mem_inserted.mpr ⟨hr, hle⟩, hnext⟩

end Perform

end OpsMonitor.Task
