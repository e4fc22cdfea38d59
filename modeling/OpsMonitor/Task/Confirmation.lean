import OpsMonitor.Task.AttemptChains

/-! The confirmation gate: an execution is handed out only for a task that needed no
confirmation or got one. It holds as long as no unconfirmed schedule is fired. -/

namespace OpsMonitor.Task
open Library

variable {croniter : CronIter} {now clock : Time} {kept : Prop} {db db' : Db}

/-! ## The gate -/

/-- A task nobody released: it waits for its confirmation, is over, or has nothing to run. -/
inductive Held (rows : Set OpsTaskExecution) (t : OpsTask) : Prop
  | created (hs : t.status = .created)
  | finished (hs : t.status.finished = true)
  | empty (hs : t.status = .pending) (hrows : rows = ∅)

/-- Nothing of a held task runs, waits for a retry or can be claimed. -/
theorem Held.idle {rows : Set OpsTaskExecution} {t : OpsTask} (h : Held rows t)
    (hs : StatusOk kept rows t) {e : OpsTaskExecution} (he : e ∈ rows) :
    e.status ≠ .running ∧ e.status ≠ .retrying ∧ t.status ≠ .pending ∧ t.status ≠ .running := by
  cases h with
  | created h =>
    cases hs with
    | waiting _ hrows => simp [(hrows e he).1, h]
    | running hs | retrying hs => simp [h] at hs
    | closed hs => simp [h, TaskStatus.finished] at hs
  | finished h =>
    have hfin := hs.finished_rows h e he
    refine ⟨?_, ?_, ?_, ?_⟩ <;> intro heq
    · simp [heq, ExecutionStatus.finished] at hfin
    · simp [heq, ExecutionStatus.finished] at hfin
    · simp [heq, TaskStatus.finished] at h
    · simp [heq, TaskStatus.finished] at h
  | empty _ hrows =>
    rw [hrows] at he
    exact he.elim

/-- Every task is released (`R`) or held; a confirmation on record was given (`C`). -/
def Gate (R C : ℕ → Prop) (db : Db) : Prop :=
  ∀ t ∈ db.tasks, (R t.id ∨ Held (db.rowsOf t.id) t) ∧ (t.confirmedBy.isSome = true → C t.id)

/-- The moves that need a release. -/
def Permitted (R C : ℕ → Prop) : Act → Prop
  | .insert t => NeedsNoConfirmation t → R t.id
  | .confirm k => R k ∧ C k
  | .report k | .fire k => R k
  | _ => True

theorem Held.purge {cutoff : Time} {t : OpsTask} (h : Held (db.rowsOf t.id) t) :
    Held ((db.purged cutoff).rowsOf t.id) t := by
  cases h with
  | created hs => exact .created hs
  | finished hs => exact .finished hs
  | empty hs hrows =>
    have hsub : (db.purged cutoff).rowsOf t.id ⊆ db.rowsOf t.id :=
      fun e he => ⟨(mem_purged.mp he.1).1, he.2⟩
    exact .empty hs (Set.subset_eq_empty hsub hrows)

/-- A cancelled task that was held is held: all its rows are cancelled now. -/
theorem Held.cancel {t t' : OpsTask} {rows' : Set OpsTaskExecution} (h : Held (db.rowsOf t.id) t)
    (hs : StatusOk kept (db.rowsOf t.id) t) (hopen : t.status.finished = false)
    (w : RowEdit db now t)
    (hpending : ∀ s ∈ db.rowsOf t.id, s.status = .pending → (w.edit s).status = .cancelled)
    (hrows' : ∀ r ∈ rows', ∃ s ∈ db.rowsOf t.id, w.edit s = r) (hs' : StatusOk kept rows' t') :
    Held rows' t' := by
  have hbefore : ∀ s ∈ db.rowsOf t.id, s.status = .pending := by
    intro s hmem
    cases h with
    | created h =>
      cases hs with
      | waiting _ hrows => exact (hrows s hmem).1
      | running hs | retrying hs => simp [h] at hs
      | closed hs => simp [hopen] at hs
    | finished h => simp [hopen] at h
    | empty _ hrows =>
      rw [hrows] at hmem
      exact hmem.elim
  have hafter : ∀ r ∈ rows', r.status = .cancelled := by
    intro r hr
    obtain ⟨s, hmem, rfl⟩ := hrows' r hr
    exact hpending s hmem (hbefore s hmem)
  cases hs' with
  | waiting hs hrows =>
    rcases hs with hs | hs
    · exact .created hs
    · refine .empty hs (Set.eq_empty_iff_forall_notMem.mpr fun r hr => ?_)
      have heq := (hafter r hr).symm.trans (hrows r hr).1
      cases heq
  | running _ hactive =>
    obtain ⟨r, hr, hactive⟩ := hactive
    simp [hafter r hr] at hactive
  | retrying _ hrow =>
    obtain ⟨r, hr, hretrying⟩ := hrow
    simp [hafter r hr] at hretrying
  | closed hs => exact .finished hs

theorem Gate.move {R C : ℕ → Prop} {act : Act} (hg : Gate R C db) (h : Inv kept db)
    (h' : Inv kept db') (hm : Move croniter now db act db') (hp : Permitted R C act) :
    Gate R C db' := by
  intro t' ht'
  refine ⟨?_, ?_⟩
  · by_cases hpurge : act = .purge
    · subst hpurge
      cases hm with
      | purge => exact (hg t' (of_mem_deleteFinishedTasksBefore ht').1).1.imp_right .purge
    by_cases hid : t'.id = act.taskId
    swap
    · rw [(hm.touches hpurge).rows t'.id hid]
      exact (hg t' (((hm.touches hpurge).tasks t' hid).mp ht')).1
    by_cases hR : R t'.id
    · exact .inl hR
    -- the task of the move was held before
    have hheld : ∀ t ∈ db.tasks, t.id = t'.id → Held (db.rowsOf t.id) t :=
      fun t ht heq => (hg t ht).1.resolve_left (heq ▸ hR)
    have hmove := hm
    cases hm with
    | insert hinsert =>
      obtain ⟨action, serverIds, -, hnext, -⟩ := insertTask_created hinsert
      cases hmove.taskOrigin ht' with
      | old ht hsame =>
        have hlt := Table.key_lt ht
        rw [← show t'.id = Keyed.key _ from hsame.id, hid, hnext] at hlt
        exact absurd hlt (lt_irrefl _)
      | inserted _ _ hs => exact hs.elim (fun hs => .inr (.created hs)) fun hs => .inl (hp hs.1)
    | confirm => exact .inl (hid ▸ hp.1)
    | report | fire => exact .inl (hid ▸ hp)
    | @cancel t ht hopen w hpending =>
      refine .inr ((hheld t ht hid.symm).cancel (h.status t ht) hopen w hpending (fun r hr => ?_)
        (h'.status t' ht'))
      rw [hid, Db.rowsOf, executions_aggregate] at hr
      exact w.of_mem_rowsOf hr
    | claim ht hs he =>
      have hidle := (hheld _ ht hid.symm).idle (h.status _ ht) he
      exact absurd hs (by simp [hidle])
    | expire ht he hs =>
      have hidle := (hheld _ ht hid.symm).idle (h.status _ ht) he
      exact absurd hs (by simp [hidle])
    | retry ht _ he hs =>
      have hidle := (hheld _ ht hid.symm).idle (h.status _ ht) he
      exact absurd hs hidle.2.1
    | archive ht hs =>
      obtain rfl := Table.eq_of_key_eq (r := t') ht' ht hid
      exact .inr (.finished hs)
    | purge => exact absurd rfl hpurge
  · intro hsome
    cases hm.taskOrigin ht' with
    | old ht hsame hconf =>
      rw [hsame.id]
      exact (hg _ ht).2 (hconf ▸ hsome)
    | confirmed ht hsame =>
      rw [hsame.id]
      exact hp.2
    | inserted _ hconf => simp [hconf] at hsome

/-! ## Runs -/

section Run
variable (croniter : CronIter) (servers : Table OpsServer) (services : Table OpsServerService)

/-- The events so far created the task, directly as `PENDING`. -/
def CreatedPending (taskId : ℕ) : List Event → Prop :=
  Happened fun pre e => ∃ data creatorId key db' t, e.call = .createTask data creatorId key ∧
    perform croniter (after croniter servers services pre) e.now e.call = .ok (db', .task t) ∧
    t ∉ (after croniter servers services pre).tasks ∧ t.id = taskId ∧ NeedsNoConfirmation t

/-- The confirmation of the task succeeded. -/
def Confirmed (taskId : ℕ) : List Event → Prop :=
  Happened fun pre e => ∃ operatorId r, e.call = .confirmTask taskId operatorId ∧
    perform croniter (after croniter servers services pre) e.now e.call = .ok r

def Released (taskId : ℕ) (es : List Event) : Prop :=
  CreatedPending croniter servers services taskId es ∨ Confirmed croniter servers services taskId es

/-- A poll was answered with the execution. -/
def HandedOut (executionId : ℕ) : List Event → Prop :=
  Happened fun pre e => ∃ serverId, e.call = .fetchPending serverId ∧
    ∃ item ∈ (fetchPending (after croniter servers services pre) e.now serverId).2,
      item.executionId = executionId

/-- Agents report only executions that were handed out. -/
def ReportsHanded (pre : List Event) (e : Event) : Prop :=
  ∀ serverId data, e.call = .reportResult serverId data →
    HandedOut croniter servers services data.executionId pre

/-- The tasks that a CRON scan at this moment fires have their confirmation on record. -/
def FiresConfirmed (pre : List Event) (e : Event) : Prop :=
  e.call = .fireDueCron → ∀ t ∈ (after croniter servers services pre).listPendingCron,
    (∃ next, Fireable croniter t next ∧ next ≤ e.now) → t.confirmedBy.isSome = true

variable {croniter servers services}

theorem Released.mono {taskId : ℕ} {es : List Event} {e : Event}
    (h : Released croniter servers services taskId es) :
    Released croniter servers services taskId (es ++ [e]) :=
  h.imp (·.concat e) (·.concat e)

theorem Gate.mono {R R' C C' : ℕ → Prop} (h : Gate R C db) (hR : ∀ k, R k → R' k)
    (hC : ∀ k, C k → C' k) : Gate R' C' db :=
  fun t ht => ⟨(h t ht).1.imp_left (hR t.id), fun hsome => hC t.id ((h t ht).2 hsome)⟩

theorem Gate.moves {R C : ℕ → Prop} {P : Act → Prop} (hg : Gate R C db) (h : Inv False db)
    (ht : Timely now db)
    (hP : ∀ d d' act, db.tasks.next ≤ d.tasks.next → P act → Move croniter now d act d' →
      Permitted R C act) (hm : Moves croniter now P db db') : Gate R C db' := by
  suffices hboth : Gate R C db' ∧ db.tasks.next ≤ db'.tasks.next from hboth.1
  induction hm with
  | refl => exact ⟨hg, le_rfl⟩
  | tail hmoves hmove ih =>
    obtain ⟨act, hact, hmove⟩ := hmove
    obtain ⟨hinv, htimely⟩ := h.timed_moves ht le_rfl hmoves
    exact ⟨ih.1.move hinv (hinv.timed_move htimely le_rfl hmove).1 hmove
      (hP _ _ act ih.2 hact hmove), ih.2.trans hmove.tasks_next_le⟩

/-- The task of a row that a poll returns is released. -/
theorem Gate.released_of_claimable {R C : ℕ → Prop} (hg : Gate R C db) (h : Inv kept db)
    {e : OpsTaskExecution} (he : Claimable e db) : R e.taskId := by
  obtain ⟨hmem, -, t, ht, hid, hs⟩ := he
  rw [← hid]
  refine (hg t ht).1.resolve_right fun hheld => ?_
  have hidle := hheld.idle (h.status t ht) ⟨hmem, hid.symm⟩
  exact absurd hs (by simp [hidle])

/-- What holds of the history and the state at the same time. -/
structure GateInv (croniter : CronIter) (servers : Table OpsServer)
    (services : Table OpsServerService) (es : List Event) (db : Db) : Prop where
  gate : Gate (fun k => Released croniter servers services k es)
    (fun k => Confirmed croniter servers services k es) db
  handed : ∀ id, HandedOut croniter servers services id es → id < db.executions.next ∧
    ∀ r ∈ db.executions, r.id = id → Released croniter servers services r.taskId es

theorem permitted_of_allows {es : List Event} {e : Event} {reply : Reply} {act : Act} {d d' : Db}
    (hinv : GateInv croniter servers services es (after croniter servers services es))
    (hreports : ReportsHanded croniter servers services es e)
    (hfires : FiresConfirmed croniter servers services es e)
    (hok : perform croniter (after croniter servers services es) e.now e.call = .ok (db', reply))
    (hle : (after croniter servers services es).tasks.next ≤ d.tasks.next)
    (hallows : e.call.allows croniter (after croniter servers services es) e.now reply act)
    (hm : Move croniter e.now d act d') :
    Permitted (fun k => Released croniter servers services k (es ++ [e]))
      (fun k => Confirmed croniter servers services k (es ++ [e])) act := by
  obtain ⟨now, call⟩ := e
  cases call with
  | createTask data creatorId key =>
    obtain ⟨t, rfl, rfl⟩ := hallows
    intro hneeds
    refine .inl (happened_concat.mpr (.inr
      ⟨data, creatorId, key, db', t, rfl, hok, fun ht => ?_, rfl, hneeds⟩))
    cases hm with
    | insert hinsert =>
      obtain ⟨action, serverIds, -, hnext, -⟩ := insertTask_created hinsert
      have hlt : t.id < _ := Table.key_lt ht
      rw [hnext] at hlt
      exact absurd hle (not_le.mpr hlt)
  | confirmTask taskId operatorId =>
    obtain rfl : act = .confirm taskId := hallows
    have hconf : Confirmed croniter servers services taskId (es ++ [⟨now, .confirmTask taskId
        operatorId⟩]) := happened_concat.mpr (.inr ⟨operatorId, _, rfl, hok⟩)
    exact ⟨.inr hconf, hconf⟩
  | reportResult serverId data =>
    obtain ⟨r, hr, hid, -, rfl⟩ := hallows
    exact ((hinv.handed _ (hreports serverId data rfl)).2 r hr hid).mono
  | fireDueCron =>
    obtain ⟨t, ht, hdue, rfl⟩ := hallows
    have hconf := (hinv.gate t (mem_listPendingCron.mp ht).1).2 (hfires rfl t ht hdue)
    exact Released.mono (.inr hconf)
  | cancelTask | cleanupHistory =>
    subst hallows
    trivial
  | fetchPending =>
    obtain ⟨r, -, rfl⟩ := hallows
    trivial
  | scanTimeouts =>
    obtain ⟨k, rfl⟩ := hallows
    trivial
  | dispatchRetries =>
    obtain ⟨r, -, rfl | rfl | rfl⟩ := hallows <;> trivial

/-- What a poll hands out now was released before. -/
theorem GateInv.released_of_fetch {es : List Event} {db : Db} {now : Time} {serverId : ℕ}
    (h : GateInv croniter servers services es db) (hinv : Inv kept db) {item : PendingTask}
    (hitem : item ∈ (fetchPending db now serverId).2) :
    ∃ r ∈ db.executions, r.id = item.executionId ∧ r.taskId = item.taskId ∧
      Released croniter servers services r.taskId es := by
  obtain ⟨r, hr, hid, htask⟩ := mem_fetchPending hitem
  have hclaim := (mem_fetchPendingByServer hr).1
  exact ⟨r, hclaim.1, hid.symm, htask.symm, h.gate.released_of_claimable hinv hclaim⟩

theorem GateInv.step {es : List Event} {e : Event}
    (h : GateInv croniter servers services es (after croniter servers services es))
    (hinv : Inv False (after croniter servers services es))
    (htimely : Timely e.now (after croniter servers services es))
    (hreports : ReportsHanded croniter servers services es e)
    (hfires : FiresConfirmed croniter servers services es e) :
    GateInv croniter servers services (es ++ [e])
      (after croniter servers services (es ++ [e])) := by
  have hmono : Gate (fun k => Released croniter servers services k (es ++ [e]))
      (fun k => Confirmed croniter servers services k (es ++ [e]))
      (after croniter servers services es) :=
    h.gate.mono (fun _ hk => hk.mono) fun _ hk => Happened.concat hk e
  rw [after_concat]
  rcases step_cases croniter (after croniter servers services es) e with
    ⟨heq, hfail⟩ | ⟨reply, hok, hm⟩
  · rw [heq]
    refine ⟨hmono, fun id hid => ?_⟩
    rcases happened_concat.mp hid with hid | ⟨serverId, hcall, -⟩
    · exact ⟨(h.handed id hid).1, fun r hr hr' => ((h.handed id hid).2 r hr hr').mono⟩
    · exact absurd rfl (hcall ▸ hfail _)
  · refine ⟨hmono.moves hinv htimely (fun d d' act hle hallows hmove => ?_) hm, fun id hid => ?_⟩
    · exact permitted_of_allows h hreports hfires hok hle hallows hmove
    · rcases happened_concat.mp hid with hid | ⟨serverId, hcall, item, hitem, rfl⟩
      · obtain ⟨hlt, hrel⟩ := h.handed id hid
        refine ⟨hlt.trans_le (Moves.executions_next_le hm), fun r hr hr' => ?_⟩
        obtain ⟨s, hs, hrow⟩ := Moves.old_row hm hr (hr' ▸ hlt)
        rw [hrow.taskId]
        exact (hrel s hs (hrow.id.symm.trans hr')).mono
      · obtain ⟨e₀, he₀, hid, -, hrel⟩ := h.released_of_fetch hinv hitem
        have hlt : item.executionId < (after croniter servers services es).executions.next :=
          hid ▸ Table.key_lt he₀
        refine ⟨hlt.trans_le (Moves.executions_next_le hm), fun r hr hr' => ?_⟩
        obtain ⟨s, hs, hrow⟩ := Moves.old_row hm hr (hr' ▸ hlt)
        obtain rfl : s = e₀ := Table.eq_of_key_eq hs he₀ ((hrow.id.symm.trans hr').trans hid.symm)
        rw [hrow.taskId]
        exact hrel.mono

variable (croniter servers services) in
theorem gateInv_after {es : List Event} (hes : Chronological es)
    (hreports : Along (ReportsHanded croniter servers services) es)
    (hfires : Along (FiresConfirmed croniter servers services) es) :
    GateInv croniter servers services es (after croniter servers services es) := by
  induction es using List.reverseRecOn with
  | nil =>
    have htasks : ∀ t, t ∉ (Db.fresh servers services).tasks := Table.notMem_empty
    exact ⟨fun t ht => absurd ht (htasks t), fun id hid => absurd hid not_happened_nil⟩
  | append_singleton es e ih =>
    have hpre : Chronological es := (List.pairwise_append.mp hes).1
    obtain ⟨hinv, htimely⟩ := timed_inv_after croniter servers services hpre
    exact (ih hpre hreports.front hfires.front).step hinv (htimely e.now hes.along.last)
      hreports.last hfires.last

/-- While no CRON scan fires an unconfirmed task, every execution that a poll is answered
with belongs to a task that needed no confirmation, or got it before. -/
theorem handed_out_released (croniter : CronIter) (servers : Table OpsServer)
    (services : Table OpsServerService) (es : List Event) (hes : Chronological es)
    (hreports : Along (ReportsHanded croniter servers services) es)
    (hfires : Along (FiresConfirmed croniter servers services) es) (pre post : List Event)
    (e : Event) (hsplit : es = pre ++ e :: post) (serverId : ℕ)
    (item : PendingTask)
    (hitem : item ∈ (fetchPending (after croniter servers services pre) e.now serverId).2) :
    Released croniter servers services item.taskId pre := by
  subst hsplit
  have hpre : Chronological pre := (List.pairwise_append.mp hes).1
  have hgate := gateInv_after croniter servers services hpre hreports.front hfires.front
  obtain ⟨r, -, -, htask, hrel⟩ := hgate.released_of_fetch
    (timed_inv_after croniter servers services hpre).1 hitem
  exact htask ▸ hrel

end Run

/-- A schedule that was confirmed before it fires. -/
theorem handed_out_released_confirmed :
    ∃ item ∈ (fetchPending (after Sample.everyMinute Sample.servers Sample.services
        [⟨0, .createTask (Sample.check "CRON") 1 none⟩, ⟨1000, .confirmTask 1 1⟩,
          ⟨60000, .fireDueCron⟩]) 61000 1).2,
      Released Sample.everyMinute Sample.servers Sample.services item.taskId
        [⟨0, .createTask (Sample.check "CRON") 1 none⟩, ⟨1000, .confirmTask 1 1⟩,
          ⟨60000, .fireDueCron⟩] := by
  obtain ⟨item, hitem⟩ : ∃ item, item ∈ (fetchPending (after Sample.everyMinute Sample.servers
      Sample.services [⟨0, .createTask (Sample.check "CRON") 1 none⟩, ⟨1000, .confirmTask 1 1⟩,
        ⟨60000, .fireDueCron⟩]) 61000 1).2 :=
    List.exists_mem_of_ne_nil _ (by decide)
  refine ⟨item, hitem, handed_out_released Sample.everyMinute Sample.servers Sample.services
    [⟨0, .createTask (Sample.check "CRON") 1 none⟩, ⟨1000, .confirmTask 1 1⟩,
      ⟨60000, .fireDueCron⟩, ⟨61000, .fetchPending 1⟩] (by decide) ?_ ?_ _ []
    ⟨61000, .fetchPending 1⟩ rfl 1 item hitem⟩
  · simp [along_cons, ReportsHanded]
  · simp only [along_cons, along_nil, and_true]
    refine ⟨by rintro ⟨⟩, by rintro ⟨⟩, fun _ t ht _ => ?_, by rintro ⟨⟩⟩
    have hall : ∀ t ∈ (after Sample.everyMinute Sample.servers Sample.services
        [⟨0, .createTask (Sample.check "CRON") 1 none⟩, ⟨1000, .confirmTask 1 1⟩]).listPendingCron,
        t.confirmedBy.isSome = true := by decide
    exact hall t ht

/-- A task that the answer shows is a CRON task. -/
def repliesCron : Except Failure (Db × Reply) → Bool
  | .ok (_, .task t) => t.scheduleType = "CRON"
  | _ => true

/-- A schedule that nobody confirmed fires all the same, and its execution is handed out. -/
theorem unconfirmed_cron_handed_out :
    ¬ ∀ (croniter : CronIter) (servers : Table OpsServer) (services : Table OpsServerService)
      (es : List Event), Chronological es → Along (ReportsHanded croniter servers services) es →
      ∀ pre e post, es = pre ++ e :: post → ∀ serverId,
      ∀ item ∈ (fetchPending (after croniter servers services pre) e.now serverId).2,
        Released croniter servers services item.taskId pre := by
  intro h
  obtain ⟨item, hitem, htask⟩ : ∃ item ∈ (fetchPending (after Sample.everyMinute Sample.servers
      Sample.services [⟨0, .createTask (Sample.check "CRON") 1 none⟩, ⟨60000, .fireDueCron⟩])
        61000 1).2, item.taskId = 1 := by decide
  have hrel := h Sample.everyMinute Sample.servers Sample.services
    [⟨0, .createTask (Sample.check "CRON") 1 none⟩, ⟨60000, .fireDueCron⟩, ⟨61000, .fetchPending 1⟩]
    (by decide) (by simp [along_cons, ReportsHanded]) _ ⟨61000, .fetchPending 1⟩ [] rfl 1 item hitem
  rw [htask] at hrel
  rcases hrel with hcreated | hconfirmed
  · simp only [CreatedPending, happened_cons] at hcreated
    rcases hcreated with ⟨_, _, _, db', t, -, hok, -, -, hneeds, -⟩ | ⟨_, _, _, _, _, hcall, -⟩ | hnil
    · have hcron : repliesCron (perform Sample.everyMinute
          (after Sample.everyMinute Sample.servers Sample.services []) 0
          (.createTask (Sample.check "CRON") 1 none)) = true := by decide
      rw [hok] at hcron
      exact hneeds (of_decide_eq_true hcron)
    · cases hcall
    · exact not_happened_nil hnil
  · simp only [Confirmed, happened_cons] at hconfirmed
    rcases hconfirmed with ⟨_, _, hcall, -⟩ | ⟨_, _, hcall, -⟩ | hnil
    · cases hcall
    · cases hcall
    · exact not_happened_nil hnil

end OpsMonitor.Task
