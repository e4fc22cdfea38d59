import OpsMonitor.Task.AttemptChains

/-! What a cancellation settles. The running and the waiting attempts of the task are left to
themselves, so it is final when none of them can lead to another attempt any more and no
schedule can still fire. -/

namespace OpsMonitor.Task
open Library

variable {croniter : CronIter} {now clock : Time} {kept : Prop} {db db' : Db}

/-- No attempt can follow `e`: the attempts are used up, or the deadline comes first. -/
def LastAttempt (clock : Time) (t : OpsTask) (e : OpsTaskExecution) : Prop :=
  t.maxAttempts ≤ e.attempt ∨ ∃ d ∈ t.deadlineAt,
    (e.status = .running ∧ d ≤ clock + Clock.seconds (Retry.backoffSeconds e.attempt)) ∨
    (e.status = .retrying ∧ ∃ r ∈ e.nextRetryAt, d ≤ max clock r)

/-- The state before a cancellation at `now` that will be final. -/
structure CancelSettles (croniter : CronIter) (now : Time) (db : Db) (t : OpsTask) : Prop where
  schedule : db.rowsOf t.id = ∅ → ∀ next, ¬ Fireable croniter t next
  attempts : ∀ e ∈ db.rowsOf t.id, e.status = .running ∨ e.status = .retrying →
    LastAttempt now t e

/-- Nothing of the task `t₀` can be claimed, retried or fired. -/
structure Spent (croniter : CronIter) (clock : Time) (t₀ : OpsTask) (db : Db) : Prop where
  known : t₀.id < db.tasks.next
  same : ∀ t ∈ db.tasks, t.id = t₀.id → SameTask t₀ t
  started : (∃ next, Fireable croniter t₀ next) → Started t₀.id db
  rows : ∀ e ∈ db.rowsOf t₀.id, e.status.finished = true ∨
    (e.status = .running ∨ e.status = .retrying) ∧ LastAttempt clock t₀ e

theorem LastAttempt.mono {t : OpsTask} {e : OpsTaskExecution} (h : LastAttempt clock t e)
    (hle : clock ≤ now) : LastAttempt now t e := by
  refine h.imp_right fun ⟨d, hd, h⟩ => ⟨d, hd, h.imp ?_ ?_⟩
  · exact fun ⟨hs, hle'⟩ => ⟨hs, hle'.trans (by gcongr)⟩
  · exact fun ⟨hs, r, hr, hle'⟩ => ⟨hs, r, hr, hle'.trans (max_le_max_right r hle)⟩

/-- The retry of a last attempt is never due in time. -/
theorem LastAttempt.not_retry {t : OpsTask} {e : OpsTaskExecution} (h : LastAttempt clock t e)
    (hle : clock ≤ now) (hretrying : e.status = .retrying) (hdue : ∃ r ∈ e.nextRetryAt, r ≤ now) :
    canRetry t e now = false := by
  rw [Bool.eq_false_iff, Ne, canRetry_iff]
  rintro ⟨hlt, hdeadline⟩
  rcases h with hmax | ⟨d, hd, ⟨hrunning, -⟩ | ⟨-, r, hr, hdr⟩⟩
  · omega
  · simp [hretrying] at hrunning
  · obtain ⟨r', hr', hr'now⟩ := hdue
    obtain rfl := Option.mem_unique hr hr'
    have hlt := hdeadline d hd
    exact absurd (hdr.trans (max_le hle hr'now)) (not_le.mpr hlt)

/-- A report that puts a last attempt off leaves it a last attempt. -/
theorem LastAttempt.delayed {t : OpsTask} {s r : OpsTaskExecution} (h : LastAttempt clock t s)
    (hle : clock ≤ now) (hretry : canRetry t s now = true)
    (hbound : s.status = .retrying → ∃ a ∈ s.nextRetryAt,
      a ≤ clock + Clock.seconds (Retry.backoffSeconds s.attempt))
    (hr : r.status = .retrying)
    (hnext : r.nextRetryAt = some (now + Clock.seconds (Retry.backoffSeconds s.attempt))) :
    LastAttempt now t r := by
  obtain ⟨hlt, hdeadline⟩ := canRetry_iff.mp hretry
  have hback : clock + Clock.seconds (Retry.backoffSeconds s.attempt) ≤
      now + Clock.seconds (Retry.backoffSeconds s.attempt) := by gcongr
  rcases h with hmax | ⟨d, hd, ⟨-, hdr⟩ | ⟨hs, a, ha, hda⟩⟩
  · omega
  · exact .inr ⟨d, hd, .inr ⟨hr, _, hnext, (hdr.trans hback).trans (le_max_right _ _)⟩⟩
  · obtain ⟨a', ha', hbound⟩ := hbound hs
    obtain rfl := Option.mem_unique ha ha'
    have hnow := hdeadline d hd
    have hda : d ≤ a := (le_max_iff.mp hda).resolve_left fun hdc =>
      absurd (hdc.trans hle) (not_le.mpr hnow)
    exact .inr ⟨d, hd, .inr ⟨hr, _, hnext,
      ((hda.trans hbound).trans hback).trans (le_max_right _ _)⟩⟩

theorem LastAttempt.congr {t t' : OpsTask} {e : OpsTaskExecution} (h : SameTask t t') :
    LastAttempt clock t' e ↔ LastAttempt clock t e := by
  rw [LastAttempt, LastAttempt, h.maxAttempts, h.deadlineAt]

/-! ## Moves -/

section Move
variable {t₀ : OpsTask}

/-- The rows of the task after a write on them. -/
theorem Spent.edit (h : Spent croniter clock t₀ db) (ht : Timely clock db) (hle : clock ≤ now)
    {t : OpsTask} (hsame : SameTask t₀ t) (w : RowEdit db now t) {s : OpsTaskExecution}
    (hs : s ∈ db.rowsOf t₀.id) : (w.edit s).status.finished = true ∨
      ((w.edit s).status = .running ∨ (w.edit s).status = .retrying) ∧
        LastAttempt now t₀ (w.edit s) := by
  have hs' : s ∈ db.rowsOf t.id := ⟨hs.1, hs.2.trans hsame.id.symm⟩
  have hstep := w.step s hs'
  generalize w.edit s = r at hstep
  rcases h.rows s hs with hfin | ⟨hactive, hlast⟩
  · have heq := hstep.eq_or_open.resolve_right (by simp [hfin])
    rw [heq]
    exact .inl hfin
  · cases hstep with
    | same => exact .inr ⟨hactive, hlast.mono hle⟩
    | started hpending => simp [hpending] at hactive
    | delayed _ hretry errorType errorMessage =>
      have hretry₀ : canRetry t₀ s now = true := by
        rw [canRetry_iff, hsame.maxAttempts, hsame.deadlineAt] at hretry
        exact canRetry_iff.mpr hretry
      exact .inr ⟨.inr rfl, hlast.delayed hle hretry₀ (ht.retry s hs.1) rfl rfl⟩
    | ended _ _ hend => exact .inl hend

theorem Spent.rows_mono (h : Spent croniter clock t₀ db) (hle : clock ≤ now)
    {e : OpsTaskExecution} (he : e ∈ db.rowsOf t₀.id) : e.status.finished = true ∨
      (e.status = .running ∨ e.status = .retrying) ∧ LastAttempt now t₀ e :=
  (h.rows e he).imp_right fun ⟨hactive, hlast⟩ => ⟨hactive, hlast.mono hle⟩

theorem Spent.not_scheduled (h : Spent croniter clock t₀ db) {t : OpsTask} {next : Time}
    (ht : t ∈ db.tasks) (hid : t.id = t₀.id) (hs : t.status = .pending ∨ t.status = .created) :
    ¬ Fireable croniter t next := by
  intro hcron
  have hsame := h.same t ht hid
  have hcron₀ : Fireable croniter t₀ next := by
    rw [Fireable, hsame.scheduleType, hsame.cronExpression, hsame.createdAt] at hcron
    exact hcron
  have hold := (h.started ⟨next, hcron₀⟩).fired t ht hid hcron.1
  exact hs.elim hold.2 hold.1

/-- No move gives the task a new row. -/
theorem Spent.old_row {act : Act} (h : Spent croniter clock t₀ db) (hle : clock ≤ now)
    (hm : Move croniter now db act db') {r : OpsTaskExecution} (hr : r ∈ db'.executions)
    (hid : r.taskId = t₀.id) : ∃ s ∈ db.executions, SameRow s r := by
  cases hm.origin hr with
  | old hs hrow => exact ⟨_, hs, hrow⟩
  | inserted _ hnext hrow =>
    have hlt := h.known
    omega
  | fired _ ht hs hcron hrow => exact absurd hcron (h.not_scheduled ht (hrow.symm.trans hid) hs)
  | retried _ ht he hretrying hdue hretry hrow =>
    have hsame := h.same _ ht (hrow.symm.trans hid)
    have hrow₀ := he.2.trans (hrow.symm.trans hid)
    rcases h.rows _ ⟨he.1, hrow₀⟩ with hfin | ⟨-, hlast⟩
    · simp [hretrying, ExecutionStatus.finished] at hfin
    · have hno := ((LastAttempt.congr hsame).mpr hlast).not_retry hle hretrying hdue
      simp [hretry] at hno

theorem Spent.move {act : Act} (h : Spent croniter clock t₀ db) (hinv : Inv kept db)
    (hinv' : Inv kept db') (ht : Timely clock db) (hle : clock ≤ now)
    (hm : Move croniter now db act db') : Spent croniter now t₀ db' where
  known := h.known.trans_le hm.tasks_next_le
  same := by
    intro t' ht' hid
    cases hm.taskOrigin ht' with
    | old hmem hsame => exact (h.same _ hmem (hsame.id.symm.trans hid)).trans hsame
    | confirmed hmem hsame => exact (h.same _ hmem (hsame.id.symm.trans hid)).trans hsame
    | inserted hnext =>
      have hlt := h.known
      omega
  started := fun hcron => (h.started hcron).move hinv hinv' hm
  rows := by
    intro r hr
    by_cases hpurge : act = .purge
    · subst hpurge
      cases hm with
      | purge => exact h.rows_mono hle ⟨(mem_purged.mp hr.1).1, hr.2⟩
    by_cases hid : t₀.id = act.taskId
    swap
    · rw [(hm.touches hpurge).rows t₀.id hid] at hr
      exact h.rows_mono hle hr
    have hedit : ∀ {t : OpsTask} (w : RowEdit db now t) (logs : Table OpsTaskLog), t ∈ db.tasks →
        t.id = t₀.id → r ∈ (w.apply logs).executions → r.status.finished = true ∨
          (r.status = .running ∨ r.status = .retrying) ∧ LastAttempt now t₀ r := by
      intro t w logs htask htid hmem
      obtain ⟨s, hs, rfl⟩ := w.of_mem_rowsOf ⟨hmem, hr.2.trans htid.symm⟩
      exact h.edit ht hle (h.same t htask htid) w ⟨hs.1, hs.2.trans htid⟩
    cases hm with
    | insert hinsert =>
      obtain ⟨action, serverIds, -, hnext, -⟩ := insertTask_created hinsert
      have hlt := h.known
      rw [hid, show (Act.insert _).taskId = db.tasks.next from congrArg OpsTask.id hnext] at hlt
      exact absurd hlt (lt_irrefl _)
    | confirm => exact h.rows_mono hle hr
    | cancel htask _ w =>
      rw [Db.rowsOf, executions_aggregate] at hr
      exact hedit w _ htask hid.symm hr.1
    | report htask _ _ w logs | expire htask _ _ w logs =>
      rw [Db.rowsOf, executions_aggregate] at hr
      exact hedit w _ htask hid.symm hr.1
    | archive htask _ _ _ w => exact hedit w _ htask hid.symm hr.1
    | claim htask _ he hpending =>
      rcases h.rows _ ⟨he.1, he.2.trans hid.symm⟩ with hfin | ⟨hactive, -⟩
      · simp [hpending, ExecutionStatus.finished] at hfin
      · simp [hpending] at hactive
    | retry htask _ he hretrying hdue hretry =>
      rcases h.rows _ ⟨he.1, he.2.trans hid.symm⟩ with hfin | ⟨-, hlast⟩
      · simp [hretrying, ExecutionStatus.finished] at hfin
      · have hno := ((LastAttempt.congr (h.same _ htask hid.symm)).mpr hlast).not_retry hle
          hretrying hdue
        simp [hretry] at hno
    | fire htask hs hcron => exact absurd hcron (h.not_scheduled htask hid.symm hs)
    | purge => exact absurd rfl hpurge

theorem Spent.mono (h : Spent croniter clock t₀ db) (hle : clock ≤ now) :
    Spent croniter now t₀ db := ⟨h.known, h.same, h.started, fun _ he => h.rows_mono hle he⟩

theorem Spent.moves {P : Act → Prop} (h : Spent croniter now t₀ db) (hinv : Inv False db)
    (ht : Timely now db) (hm : Moves croniter now P db db') :
    Spent croniter now t₀ db' ∧ ∀ r ∈ db'.executions, r.taskId = t₀.id →
      ∃ s ∈ db.executions, SameRow s r := by
  induction hm with
  | refl => exact ⟨h, fun r hr _ => ⟨r, hr, .rfl' r⟩⟩
  | tail hmoves hmove ih =>
    obtain ⟨act, -, hmove⟩ := hmove
    obtain ⟨hspent, hrows⟩ := ih
    obtain ⟨hinv₁, htimely₁⟩ := hinv.timed_moves ht le_rfl hmoves
    obtain ⟨hinv₂, -⟩ := hinv₁.timed_move htimely₁ le_rfl hmove
    refine ⟨hspent.move hinv₁ hinv₂ htimely₁ le_rfl hmove, fun r hr hid => ?_⟩
    obtain ⟨s, hs, hrow⟩ := hspent.old_row le_rfl hmove hr hid
    obtain ⟨s', hs', hrow'⟩ := hrows s hs (hrow.taskId.symm.trans hid)
    exact ⟨s', hs', hrow'.trans hrow⟩

/-- A poll hands out nothing of the task. -/
theorem Spent.not_handed (h : Spent croniter clock t₀ db) {serverId : ℕ} {item : PendingTask}
    (hitem : item ∈ (fetchPending db now serverId).2) : item.taskId ≠ t₀.id := by
  intro hid
  obtain ⟨e, he, -, htask⟩ := mem_fetchPending hitem
  obtain ⟨hmem, hpending, -⟩ := (mem_fetchPendingByServer he).1
  rcases h.rows e ⟨hmem, htask.symm.trans hid⟩ with hfin | ⟨hactive, -⟩
  · simp [hpending, ExecutionStatus.finished] at hfin
  · simp [hpending] at hactive

end Move

/-- The state right after a cancellation that settles. -/
theorem CancelSettles.spent {t : OpsTask} (h : CancelSettles croniter now db t)
    (ht : t ∈ db.tasks)
    (hinv' : Inv kept (aggregateTaskStatus ((cancelEdit db now t).apply db.logs) now t.id)) :
    Spent croniter now t (aggregateTaskStatus ((cancelEdit db now t).apply db.logs) now t.id) where
  known := by
    have hlt : t.id < db.tasks.next := Table.key_lt ht
    rw [aggregateTaskStatus_eq]
    exact hlt
  same := by
    intro t' ht' hid
    obtain ⟨s, hs, hsame, -⟩ := exists_of_mem_aggregate ht'
    obtain rfl : s = t := Table.eq_of_key_eq hs ht (hsame.id.symm.trans hid)
    exact hsame
  started := by
    rintro ⟨next, hcron⟩
    have hne : (db.rowsOf t.id).Nonempty :=
      Set.nonempty_iff_ne_empty.mpr fun hempty => h.schedule hempty next hcron
    obtain ⟨e, he⟩ := hne
    obtain ⟨r, hr, hrow⟩ := (cancelEdit db now t).persists db.logs he.1
    rw [← executions_aggregate t.id] at hr
    exact (hrow.taskId.trans he.2) ▸ hinv'.started hr
  rows := by
    intro r hr
    rw [Db.rowsOf, executions_aggregate] at hr
    obtain ⟨s, hs, rfl⟩ := (cancelEdit db now t).of_mem_rowsOf hr
    by_cases hpending : s.status = .pending
    · rw [cancelEdit_of_pending hs hpending]
      exact .inl rfl
    · rw [cancelEdit_of_ne hpending]
      cases hs' : s.status with
      | pending => exact absurd hs' hpending
      | running => exact .inr ⟨.inl rfl, h.attempts s hs (.inl hs')⟩
      | retrying => exact .inr ⟨.inr rfl, h.attempts s hs (.inr hs')⟩
      | success | failed | timeout | cancelled | dead => exact .inl rfl

/-! ## Runs -/

section Run
variable (croniter : CronIter) (servers : Table OpsServer) (services : Table OpsServerService)

/-- After the events `es` and the cancellation, the events `fs` hand out no execution of the
task and create none. -/
structure CancelFinal (es : List Event) (cancel : Event) (taskId : ℕ) (fs : List Event) :
    Prop where
  not_handed : ∀ pre e post, fs = pre ++ e :: post → ∀ serverId, ∀ item ∈ (fetchPending
    (after croniter servers services (es ++ cancel :: pre)) e.now serverId).2, item.taskId ≠ taskId
  not_created : ∀ r ∈ (after croniter servers services (es ++ cancel :: fs)).executions,
    r.taskId = taskId → ∃ s ∈ (after croniter servers services (es ++ [cancel])).executions,
      SameRow s r

variable {croniter servers services}

theorem Spent.run {t₀ : OpsTask} {es fs : List Event} (hes : Chronological (es ++ fs))
    (hspent : ∀ now, (∀ e ∈ es, e.now ≤ now) →
      Spent croniter now t₀ (after croniter servers services es)) :
    (∀ now, (∀ e ∈ es ++ fs, e.now ≤ now) →
      Spent croniter now t₀ (after croniter servers services (es ++ fs))) ∧
    ∀ r ∈ (after croniter servers services (es ++ fs)).executions, r.taskId = t₀.id →
      ∃ s ∈ (after croniter servers services es).executions, SameRow s r := by
  induction fs using List.reverseRecOn with
  | nil =>
    rw [List.append_nil]
    exact ⟨hspent, fun r hr _ => ⟨r, hr, .rfl' r⟩⟩
  | append_singleton fs e ih =>
    rw [← List.append_assoc] at hes ⊢
    have hpre : Chronological (es ++ fs) := (List.pairwise_append.mp hes).1
    obtain ⟨hspent', hrows⟩ := ih hpre
    obtain ⟨hinv, htimely⟩ := timed_inv_after croniter servers services hpre
    have hnow : ∀ a ∈ es ++ fs, a.now ≤ e.now := hes.along.last
    rw [after_concat]
    have hstep : Spent croniter e.now t₀
          (step croniter (after croniter servers services (es ++ fs)) e) ∧
        ∀ r ∈ (step croniter (after croniter servers services (es ++ fs)) e).executions,
          r.taskId = t₀.id → ∃ s ∈ (after croniter servers services (es ++ fs)).executions,
            SameRow s r := by
      rcases step_cases croniter (after croniter servers services (es ++ fs)) e with
        ⟨heq, -⟩ | ⟨reply, -, hm⟩
      · rw [heq]
        exact ⟨hspent' e.now hnow, fun r hr _ => ⟨r, hr, .rfl' r⟩⟩
      · exact (hspent' e.now hnow).moves hinv (htimely e.now hnow) hm
    refine ⟨fun now hle => hstep.1.mono (hle e (by simp)), fun r hr hid => ?_⟩
    obtain ⟨s, hs, hrow⟩ := hstep.2 r hr hid
    obtain ⟨s', hs', hrow'⟩ := hrows s hs (hrow.taskId.symm.trans hid)
    exact ⟨s', hs', hrow'.trans hrow⟩

end Run

/-- A cancellation that settles is final, whatever happens afterwards. -/
theorem cancel_final (croniter : CronIter) (servers : Table OpsServer)
    (services : Table OpsServerService) (es fs : List Event) (now : Time) (t : OpsTask)
    (hes : Chronological (es ++ ⟨now, .cancelTask t.id⟩ :: fs))
    (ht : t ∈ (after croniter servers services es).tasks)
    (hcancel : ∃ db', cancelTask (after croniter servers services es) now t.id = .ok db')
    (hsettles : CancelSettles croniter now (after croniter servers services es) t) :
    CancelFinal croniter servers services es ⟨now, .cancelTask t.id⟩ t.id fs := by
  obtain ⟨db', hcancel⟩ := hcancel
  have hsplit : ∀ gs, es ++ ⟨now, .cancelTask t.id⟩ :: gs =
      (es ++ [⟨now, .cancelTask t.id⟩]) ++ gs := fun gs => by simp
  rw [hsplit] at hes
  have hafter : after croniter servers services (es ++ [⟨now, .cancelTask t.id⟩]) = db' := by
    have hok : perform croniter (after croniter servers services es) now (.cancelTask t.id) =
        .ok (db', .done) := bind_eq_ok.mpr ⟨db', hcancel, rfl⟩
    rw [after_concat]
    exact step_of_ok hok
  obtain ⟨s, hs, hid, -, rfl⟩ := cancelTask_eq_ok.mp hcancel
  obtain rfl : s = t := Table.eq_of_key_eq hs ht hid
  have hinv := (timed_inv_after croniter servers services (List.pairwise_append.mp hes).1).1
  rw [hafter] at hinv
  have hspent : ∀ later, (∀ e ∈ es ++ [⟨now, .cancelTask s.id⟩], e.now ≤ later) →
      Spent croniter later s (after croniter servers services (es ++ [⟨now, .cancelTask s.id⟩])) := by
    intro later hlater
    rw [hafter]
    exact (hsettles.spent ht hinv).mono (hlater ⟨now, .cancelTask s.id⟩ (by simp))
  constructor
  · rintro pre e post rfl serverId item hitem
    rw [hsplit] at hitem
    rw [← List.append_assoc] at hes
    have hpre := (List.pairwise_append.mp hes).1
    have hnow : ∀ a ∈ (es ++ [⟨now, .cancelTask s.id⟩]) ++ pre, a.now ≤ e.now :=
      fun a ha => (List.pairwise_append.mp hes).2.2 a ha e List.mem_cons_self
    exact ((Spent.run hpre hspent).1 e.now hnow).not_handed hitem
  · rw [hsplit]
    exact (Spent.run hes hspent).2

/-- Cancelled before anybody claimed the check. -/
theorem cancel_final_unclaimed :
    ∃ t ∈ (after Sample.everyMinute Sample.servers Sample.services
        [⟨0, .createTask (Sample.check "ONCE") 1 none⟩]).tasks,
      CancelFinal Sample.everyMinute Sample.servers Sample.services
        [⟨0, .createTask (Sample.check "ONCE") 1 none⟩] ⟨1000, .cancelTask t.id⟩ t.id
        [⟨2000, .fetchPending 1⟩] := by
  obtain ⟨t, ht, hid, honce⟩ : ∃ t ∈ (after Sample.everyMinute Sample.servers Sample.services
      [⟨0, .createTask (Sample.check "ONCE") 1 none⟩]).tasks.rows, t.id = 1 ∧
        t.scheduleType = "ONCE" := by decide
  refine ⟨t, ht, cancel_final Sample.everyMinute Sample.servers Sample.services
    [⟨0, .createTask (Sample.check "ONCE") 1 none⟩] [⟨2000, .fetchPending 1⟩] 1000 t ?_ ht ?_ ?_⟩
  · rw [hid]
    decide
  · rw [hid]
    exact ⟨_, rfl⟩
  · refine ⟨fun _ next hcron => ?_, fun e he hs => ?_⟩
    · have hcron := hcron.1.symm.trans honce
      exact absurd hcron (by decide)
    · have hall : ∀ e ∈ (after Sample.everyMinute Sample.servers Sample.services
          [⟨0, .createTask (Sample.check "ONCE") 1 none⟩]).executions, e.status = .pending := by
        decide
      simp [hall e he.1] at hs

/-- A check that fails, is cancelled while it waits for its retry, and is retried. -/
theorem cancelled_check_retried :
    ¬ ∀ (croniter : CronIter) (servers : Table OpsServer) (services : Table OpsServerService)
      (es fs : List Event) (now : Time) (t : OpsTask),
      Chronological (es ++ ⟨now, .cancelTask t.id⟩ :: fs) →
      t ∈ (after croniter servers services es).tasks →
      (∃ db', cancelTask (after croniter servers services es) now t.id = .ok db') →
      CancelFinal croniter servers services es ⟨now, .cancelTask t.id⟩ t.id fs := by
  intro h
  obtain ⟨t, ht, hid⟩ : ∃ t ∈ (after Sample.everyMinute Sample.servers Sample.services
      Sample.retryingCheck).tasks.rows, t.id = 1 := by decide
  have hfinal := h Sample.everyMinute Sample.servers Sample.services Sample.retryingCheck
    [⟨7000, .dispatchRetries 50⟩] 3000 t (by rw [hid]; decide) ht (by rw [hid]; exact ⟨_, rfl⟩)
  rw [hid] at hfinal
  obtain ⟨r, hr, htask, hsecond⟩ : ∃ r ∈ (after Sample.everyMinute Sample.servers Sample.services
      (Sample.retryingCheck ++ [⟨3000, .cancelTask 1⟩, ⟨7000, .dispatchRetries 50⟩])).executions,
      r.taskId = 1 ∧ r.attempt = 2 := by decide
  obtain ⟨s, hs, hrow⟩ := hfinal.not_created r hr htask
  have hall : ∀ s ∈ (after Sample.everyMinute Sample.servers Sample.services
      (Sample.retryingCheck ++ [⟨3000, .cancelTask 1⟩])).executions, s.attempt = 1 := by decide
  have hattempt := hrow.attempt.symm.trans hsecond
  rw [hall s hs] at hattempt
  cases hattempt

end OpsMonitor.Task
