import OpsMonitor.Task.Origins

/-! The attempt chains over whole runs, with cleanups: they stay well formed, a task gets its
first attempts once, and no insert meets the unique key of an attempt. -/

namespace OpsMonitor.Task
open Library

variable {croniter : CronIter} {now clock : Time} {kept : Prop} {db db' : Db}

/-! ## First attempts come once -/

/-- The task was created before, and a schedule that it may have has fired. -/
structure Started (taskId : ℕ) (db : Db) : Prop where
  known : taskId < db.tasks.next
  fired : ∀ t ∈ db.tasks, t.id = taskId → t.scheduleType = "CRON" →
    t.status ≠ .created ∧ t.status ≠ .pending

/-- Having a row is enough: a schedule that did not fire has none. -/
theorem Inv.started (h : Inv kept db) {r : OpsTaskExecution} (hr : r ∈ db.executions) :
    Started r.taskId db where
  known := by
    obtain ⟨t, ht, hid, -⟩ := h.task_of r hr
    exact hid ▸ Table.key_lt ht
  fired := by
    intro t ht hid hcron
    have hrow : r ∈ db.rowsOf t.id := ⟨hr, hid.symm⟩
    have hwait : ¬ (t.status = .pending ∨ t.status = .created) := by
      intro hs
      rw [(h.status t ht).free_of_cron hs hcron] at hrow
      exact hrow
    exact ⟨fun hs => hwait (.inr hs), fun hs => hwait (.inl hs)⟩

theorem Started.move {taskId : ℕ} {act : Act} (h : Inv kept db) (h' : Inv kept db')
    (hs : Started taskId db) (hm : Move croniter now db act db') : Started taskId db' where
  known := hs.known.trans_le hm.tasks_next_le
  fired := by
    rintro t' ht' rfl hcron
    by_cases hpurge : act = .purge
    · subst hpurge
      cases hm with
      | purge => exact hs.fired t' (of_mem_deleteFinishedTasksBefore ht').1 rfl hcron
    by_cases hid : t'.id = act.taskId
    swap
    · exact hs.fired t' (((hm.touches hpurge).tasks t' hid).mp ht') rfl hcron
    -- the task the move is about: were it waiting, it would have no rows, also before
    have hempty : t'.status = .pending ∨ t'.status = .created →
        ∀ e ∈ db.executions, e.taskId ≠ t'.id := by
      intro hwait e he hrow
      obtain ⟨r, hr, hsame⟩ := hm.row_persists hpurge he
      have hmem : r ∈ db'.rowsOf t'.id := ⟨hr, hsame.taskId.trans hrow⟩
      rw [(h'.status t' ht').free_of_cron hwait hcron] at hmem
      exact hmem
    suffices hwait : ¬ (t'.status = .pending ∨ t'.status = .created) from
      ⟨fun hs => hwait (.inr hs), fun hs => hwait (.inl hs)⟩
    intro hwait
    have hempty := hempty hwait
    cases hm with
    | insert hinsert =>
      obtain ⟨action, serverIds, -, rfl, rfl⟩ := insertTask_created hinsert
      have hlt := hs.known
      rw [hid] at hlt
      exact lt_irrefl _ hlt
    | confirm ht hcreated =>
      obtain ⟨s, hs', hid', rfl⟩ := Db.of_mem_withTask ht' hid
      obtain rfl := Table.eq_of_key_eq hs' ht hid'
      exact (hs.fired s hs' rfl hcron).1 hcreated
    | @cancel t ht hopen w =>
      obtain ⟨s, hs', hsame, -⟩ := exists_of_mem_aggregate ht'
      obtain rfl : s = t := Table.eq_of_key_eq hs' ht (hsame.id.symm.trans hid)
      have hold := hs.fired s ht hsame.id.symm (hsame.scheduleType.symm.trans hcron)
      have hrows : ∀ e, e ∉ db.rowsOf s.id := fun e he => hempty e he.1 (he.2.trans hsame.id.symm)
      cases h.status s ht with
      | waiting hs => exact hs.elim hold.1 hold.2
      | running _ hactive => exact hactive.elim fun e he => hrows e he.1
      | retrying _ hrow => exact hrow.elim fun e he => hrows e he.1
      | closed hclosed => simp [hopen] at hclosed
    | claim _ _ he | report _ he | expire _ he | archive _ _ he | retry _ _ he =>
      exact hempty _ he.1 (he.2.trans hid.symm)
    | @fire t _ ht hs' hcron' =>
      have hold := hs.fired t ht hid.symm hcron'.1
      exact hs'.elim hold.2 hold.1
    | purge => exact hpurge rfl

/-- Once it has started, a task gets no first attempts. -/
theorem Started.no_first {taskId : ℕ} {act : Act} (h : Inv kept db) (hs : Started taskId db)
    (hm : Move croniter now db act db') {r : OpsTaskExecution} (hr : r ∈ db'.executions)
    (hid : r.taskId = taskId) (hfirst : r.attempt = 1) : ∃ s ∈ db.executions, SameRow s r := by
  cases hm.origin hr with
  | old hs' hrow => exact ⟨_, hs', hrow⟩
  | inserted _ hnext hrow =>
    have hlt := hs.known
    omega
  | fired _ ht hs' hcron hrow =>
    have hold := hs.fired _ ht (hrow.symm.trans hid) hcron.1
    exact absurd hs' (by simp [hold.1, hold.2])
  | retried _ ht he hretrying hdue hretry hrow hattempt =>
    have hpos := h.positive _ he.1
    omega

theorem Started.moves {P : Act → Prop} {taskId : ℕ} (h : Inv False db) (ht : Timely clock db)
    (hle : clock ≤ now) (hs : Started taskId db) (hm : Moves croniter now P db db') :
    Started taskId db' ∧ ∀ r ∈ db'.executions, r.taskId = taskId → r.attempt = 1 →
      ∃ s ∈ db.executions, s.id = r.id := by
  induction hm with
  | refl => exact ⟨hs, fun r hr _ _ => ⟨r, hr, rfl⟩⟩
  | tail hmoves hmove ih =>
    obtain ⟨act, -, hmove⟩ := hmove
    obtain ⟨hs, hold⟩ := ih
    obtain ⟨hinv, htimely⟩ := h.timed_moves ht hle hmoves
    refine ⟨hs.move hinv (hinv.timed_move htimely le_rfl hmove).1 hmove, fun r hr hid hfirst => ?_⟩
    obtain ⟨s, hs', hrow⟩ := hs.no_first hinv hmove hr hid hfirst
    obtain ⟨s', hs', heq⟩ := hold s hs' (hrow.taskId.symm.trans hid) (hrow.attempt.symm.trans hfirst)
    exact ⟨s', hs', heq.trans hrow.id.symm⟩

/-! ## No insert meets the unique key -/

/-- The error the database raises on a second row with the same task, target and attempt. -/
def attemptTaken : Failure := .integrity "uk_ops_task_execution_target"

theorem mapM_error {α β ε : Type} {f : α → Except ε β} {l : List α} {x : ε}
    (h : l.mapM f = .error x) : ∃ a ∈ l, f a = .error x := by
  induction l with
  | nil => simp at h
  | cons a l ih =>
    rw [List.mapM_cons] at h
    rcases bind_eq_error.mp h with h | ⟨b, -, h⟩
    · exact ⟨a, List.mem_cons_self, h⟩
    · rcases bind_eq_error.mp h with h | ⟨bs, -, h⟩
      · obtain ⟨c, hc, hx⟩ := ih h
        exact ⟨c, List.mem_cons_of_mem _ hc, hx⟩
      · exact absurd h pure_ne_error

theorem validateServers_ne {serverIds : List ℕ} :
    validateServers db serverIds ≠ .error attemptTaken := by
  intro h
  obtain ⟨sid, -, hsid⟩ := mapM_error h
  split at hsid <;> cases hsid

theorem normalizeAction_ne {data : TaskCreate} : normalizeAction data ≠ .error attemptTaken := by
  intro h
  unfold normalizeAction at h
  split at h
  · cases h
  · split_ifs at h
    cases h
  · split at h <;> cases h

theorem forM_error {α ε : Type} {f : α → Except ε Unit} {l : List α} {x : ε}
    (h : l.forM f = .error x) : ∃ a ∈ l, f a = .error x := by
  induction l with
  | nil => exact absurd h pure_ne_error
  | cons a l ih =>
    change (f a >>= fun _ => l.forM f) = _ at h
    rcases bind_eq_error.mp h with h | ⟨-, -, h⟩
    · exact ⟨a, List.mem_cons_self, h⟩
    · obtain ⟨c, hc, hx⟩ := ih h
      exact ⟨c, List.mem_cons_of_mem _ hc, hx⟩

theorem validateServiceWhitelist_ne {servers : List OpsServer} {serviceName : Option String}
    {action : Action} :
    validateServiceWhitelist db servers serviceName action ≠ .error attemptTaken := by
  intro h
  unfold validateServiceWhitelist at h
  split_ifs at h
  split at h
  · cases h
  · cases h
  · obtain ⟨server, -, h⟩ := forM_error h
    split_ifs at h
    cases h

theorem Chains.insertTask_ne (h : Chains db) {data : TaskCreate} {creatorId : ℕ}
    {key : Option String} : insertTask db now data creatorId key ≠ .error attemptTaken := by
  intro herr
  rcases bind_eq_error.mp herr with herr | ⟨action, -, herr⟩
  · exact normalizeAction_ne herr
  rcases bind_eq_error.mp herr with herr | ⟨servers, -, herr⟩
  · exact validateServers_ne herr
  rcases bind_eq_error.mp herr with herr | ⟨-, -, herr⟩
  · exact validateServiceWhitelist_ne herr
  rcases bind_eq_error.mp herr with herr | ⟨⟨d, t⟩, hrow, herr⟩
  · unfold Db.createTaskRow at herr
    split_ifs at herr
    exact absurd (Failure.integrity.inj (Except.error.inj herr)) (by decide)
  unfold Db.createTaskRow at hrow
  split_ifs at hrow
  obtain ⟨rfl, rfl⟩ := Prod.ext_iff.mp (Except.ok.inj hrow)
  dsimp only at herr
  split_ifs at herr
  · rcases bind_eq_error.mp herr with herr | ⟨d, -, herr⟩
    · let d : Db := { db with tasks := db.tasks.insert (newTask now data action creatorId key) }
      let created := d.createTargets db.tasks.next (servers.map OpsServer.id)
      obtain ⟨d', hok⟩ : ∃ d', created.1.createExecutions db.tasks.next created.2 = .ok d' :=
        createExecutions_isOk (nodup_ids_keyed _ _) fun g _ e he htask =>
          absurd htask (h.free_next e he)
      cases hok.symm.trans herr
    · exact absurd herr pure_ne_error
  · rcases bind_eq_error.mp herr with herr | ⟨d, -, herr⟩
    · exact absurd herr pure_ne_error
    · exact absurd herr pure_ne_error

theorem getTaskEntity_ne {taskId : ℕ} : getTaskEntity db taskId ≠ .error attemptTaken := by
  unfold getTaskEntity
  split <;> exact nofun

/-- The dispatch of a due retry does not raise. -/
theorem Chains.dispatchExecution_ne (h : Chains db) {n : ℕ} {e : OpsTaskExecution} {x : Failure}
    (he : DueRetry now e db) : dispatchExecution now (db, n) e ≠ .error x := by
  intro herr
  rcases bind_eq_error.mp herr with herr | ⟨t, hget, herr⟩
  · obtain ⟨t, ht, hid, -⟩ := h.task_of e he.1
    rw [getTaskEntity_eq_ok.mpr ⟨ht, hid⟩] at herr
    cases herr
  obtain ⟨ht, hid⟩ := getTaskEntity_eq_ok.mp hget
  dsimp only at herr
  split_ifs at herr
  · exact pure_ne_error herr
  · exact pure_ne_error herr
  rcases bind_eq_error.mp herr with herr | ⟨d, -, herr⟩
  · -- the attempt after the last one of the chain is free
    unfold Db.createExecution at herr
    split_ifs at herr with htaken
    obtain ⟨r, hr, htask, htarget, hattempt⟩ := htaken
    obtain ⟨s, hs, rfl⟩ := Db.mem_withExecution.mp hr
    have hsame : SameRow s (if s.id = e.id then s.finish now .failed none none e.errorMessage
        e.errorType else s) := by
      split_ifs
      · exact ⟨rfl, rfl, rfl, rfl, rfl⟩
      · exact .rfl' s
    rw [hsame.taskId, hid] at htask
    rw [hsame.targetId] at htarget
    rw [hsame.attempt] at hattempt
    have hle := h.attempt_le_of_open he.1 hs ⟨htask.symm, htarget.symm⟩ (by rw [he.2.1]; rfl)
    omega
  · exact pure_ne_error herr

theorem Inv.dispatchRetries_ne (h : Inv kept db) {limit : ℕ} {x : Failure} :
    dispatchRetries db now limit ≠ .error x := by
  intro herr
  obtain ⟨pre, e, post, ⟨d, n⟩, hl, hloop, herr⟩ := loop_of_error herr
  have hsorted := listDueRetries_distinct db now limit
  have hdue : ∀ f ∈ db.listDueRetries now limit, DueRetry now f db := fun _ => mem_listDueRetries
  rw [hl] at hsorted hdue
  obtain ⟨hpre, -, hrest⟩ := List.pairwise_append.mp hsorted
  have hdue' : ∀ f ∈ pre, DueRetry now f db := fun f hf => hdue f (List.mem_append_left _ hf)
  have hmoves := @dispatchLoop_moves (fun _ _ => none) _ _ _ _ hloop hpre hdue'
  have hinv := h.moves (by rintro _ ⟨f, -, rfl | rfl | rfl⟩ <;> exact nofun) hmoves
  refine hinv.toChains.dispatchExecution_ne ?_ herr
  exact hloop.keeps (G := fun f acc => DueRetry now f acc.1)
    (fun f g s s' => dispatchExecution_keeps) hpre hdue'
    (fun f hf => hrest f hf e List.mem_cons_self) (hdue e (by simp))

theorem Inv.fireTask_ne (h : Inv kept db) {n : ℕ} {t : OpsTask} (ht : Scheduled t db) {x : Failure} :
    fireTask croniter now (db, n) t ≠ .error x := by
  intro herr
  unfold fireTask at herr
  dsimp only at herr
  split_ifs at herr with hcron
  · exact pure_ne_error herr
  split at herr
  · exact pure_ne_error herr
  · exact pure_ne_error herr
  split at herr
  · exact pure_ne_error herr
  split_ifs at herr
  · rcases bind_eq_error.mp herr with herr | ⟨d, -, herr⟩
    · -- a task that waits for its schedule has no rows
      have hfree := Set.eq_empty_iff_forall_notMem.mp
        ((h.status t ht.1).free_of_cron ht.2 (not_not.mp hcron))
      obtain ⟨d, hok⟩ := createExecutions_isOk (nodup_ids_listTargets db t.id)
        fun g _ e he htask => absurd ⟨he, htask⟩ (hfree e)
      cases hok.symm.trans herr
    · exact pure_ne_error herr
  · exact pure_ne_error herr

theorem Inv.fireDueCron_ne (h : Inv kept db) {x : Failure} : fireDueCron croniter db now ≠ .error x := by
  intro herr
  obtain ⟨pre, t, post, ⟨d, n⟩, hl, hloop, herr⟩ := loop_of_error herr
  have hsorted : db.listPendingCron.Pairwise fun t t' => t.id < t'.id :=
    Table.select_sorted db.tasks _
  have hsched : ∀ t ∈ db.listPendingCron, Scheduled t db := fun _ => scheduled_of_listPendingCron
  rw [hl] at hsorted hsched
  obtain ⟨hpre, -, hrest⟩ := List.pairwise_append.mp hsorted
  have hsched' : ∀ t ∈ pre, Scheduled t db := fun t ht => hsched t (List.mem_append_left _ ht)
  have hinv := h.moves (by rintro _ ⟨t, -, -, rfl⟩; exact nofun)
    (fireLoop_moves hloop hpre hsched')
  refine hinv.fireTask_ne ?_ herr
  exact hloop.keeps (G := fun t acc => Scheduled t acc.1) (fun t t' s s' => fireTask_keeps) hpre
    hsched' (fun t' ht' => hrest t' ht' t List.mem_cons_self) (hsched t (by simp))

/-- No call fails on the unique key of an attempt. -/
theorem Inv.perform_ne (h : Inv kept db) {call : Call} :
    perform croniter db now call ≠ .error attemptTaken := by
  intro herr
  cases call with
  | createTask data creatorId key =>
    rcases bind_eq_error.mp herr with herr | ⟨d, -, herr⟩
    · unfold createTask at herr
      split at herr
      · cases herr
      · exact h.insertTask_ne herr
    · exact pure_ne_error herr
  | confirmTask taskId operatorId =>
    rcases bind_eq_error.mp herr with herr | ⟨d, -, herr⟩
    · rcases bind_eq_error.mp herr with herr | ⟨t, -, herr⟩
      · exact getTaskEntity_ne herr
      · split_ifs at herr
        · cases herr
        · exact pure_ne_error herr
    · exact pure_ne_error herr
  | cancelTask taskId =>
    rcases bind_eq_error.mp herr with herr | ⟨d, -, herr⟩
    · rcases bind_eq_error.mp herr with herr | ⟨t, -, herr⟩
      · exact getTaskEntity_ne herr
      · split_ifs at herr
        · cases herr
        · exact pure_ne_error herr
    · exact pure_ne_error herr
  | reportResult serverId data =>
    rcases bind_eq_error.mp herr with herr | ⟨d, -, herr⟩
    · unfold reportResult at herr
      split at herr
      · cases herr
      · split_ifs at herr
        · cases herr
        · rcases bind_eq_error.mp herr with herr | ⟨t, -, herr⟩
          · exact getTaskEntity_ne herr
          · exact pure_ne_error herr
    · exact pure_ne_error herr
  | dispatchRetries limit =>
    rcases bind_eq_error.mp herr with herr | ⟨d, -, herr⟩
    · exact h.dispatchRetries_ne herr
    · exact pure_ne_error herr
  | fireDueCron =>
    rcases bind_eq_error.mp herr with herr | ⟨d, -, herr⟩
    · exact h.fireDueCron_ne herr
    · exact pure_ne_error herr
  | fetchPending | scanTimeouts | cleanupHistory => exact pure_ne_error herr

/-! ## Runs -/

theorem Chronological.along {es : List Event} (h : Chronological es) :
    Along (fun pre e => ∀ a ∈ pre, a.now ≤ e.now) es := by
  rintro pre e post rfl a ha
  exact (List.pairwise_append.mp h).2.2 a ha e List.mem_cons_self

theorem Inv.timed_step {e : Event} (h : Inv False db) (ht : Timely clock db) (hle : clock ≤ e.now) :
    Inv False (step croniter db e) ∧ Timely e.now (step croniter db e) := by
  rcases step_cases croniter db e with ⟨heq, -⟩ | ⟨reply, -, hm⟩
  · rw [heq]
    exact ⟨h, ht.mono hle⟩
  · exact h.timed_moves ht hle hm

section Run
variable (croniter : CronIter) (servers : Table OpsServer) (services : Table OpsServerService)
  {es : List Event}

/-- The invariants along a run whose clock does not run back. -/
theorem timed_inv_after (hes : Chronological es) :
    Inv False (after croniter servers services es) ∧
      ∀ now, (∀ e ∈ es, e.now ≤ now) → Timely now (after croniter servers services es) := by
  refine run_induction (C := fun pre e => ∀ a ∈ pre, a.now ≤ e.now)
    (I := fun es db => Inv False db ∧ ∀ now, (∀ e ∈ es, e.now ≤ now) → Timely now db)
    ⟨.fresh servers services, fun _ _ => .fresh servers services⟩ ?_ es hes.along
  rintro es e hC ⟨hinv, htimely⟩
  have hnext := @Inv.timed_step croniter _ _ _ hinv (htimely e.now hC.last) le_rfl
  exact ⟨hnext.1, fun now hnow => hnext.2.mono (hnow e (by simp))⟩

/-- The event adds a first attempt of the task. -/
def GainsFirst (taskId : ℕ) (db : Db) (e : Event) : Prop :=
  ∃ r ∈ (step croniter db e).executions, r.taskId = taskId ∧ r.attempt = 1 ∧
    ∀ s ∈ db.executions, s.id ≠ r.id

instance (taskId : ℕ) (db : Db) (e : Event) : Decidable (GainsFirst croniter taskId db e) :=
  inferInstanceAs (Decidable (∃ r ∈ (step croniter db e).executions, r.taskId = taskId ∧
    r.attempt = 1 ∧ ∀ s ∈ db.executions, s.id ≠ r.id))

theorem started_step {taskId : ℕ} {db : Db} {e : Event} (h : Inv False db) (ht : Timely e.now db)
    (hs : Started taskId db) :
    Started taskId (step croniter db e) ∧ ¬ GainsFirst croniter taskId db e := by
  have hboth : Started taskId (step croniter db e) ∧ ∀ r ∈ (step croniter db e).executions,
      r.taskId = taskId → r.attempt = 1 → ∃ s ∈ db.executions, s.id = r.id := by
    rcases step_cases croniter db e with ⟨heq, -⟩ | ⟨reply, -, hm⟩
    · rw [heq]
      exact ⟨hs, fun r hr _ _ => ⟨r, hr, rfl⟩⟩
    · exact hs.moves h ht le_rfl hm
  refine ⟨hboth.1, fun ⟨r, hr, hid, hfirst, hnew⟩ => ?_⟩
  obtain ⟨s, hs, heq⟩ := hboth.2 r hr hid hfirst
  exact hnew s hs heq

theorem started_after {taskId : ℕ} {pre mid : List Event} (hes : Chronological (pre ++ mid))
    (hs : Started taskId (after croniter servers services pre)) :
    Started taskId (after croniter servers services (pre ++ mid)) := by
  induction mid using List.reverseRecOn with
  | nil => rwa [List.append_nil]
  | append_singleton mid e ih =>
    rw [← List.append_assoc] at hes ⊢
    have hpre : Chronological (pre ++ mid) := (List.pairwise_append.mp hes).1
    obtain ⟨hinv, htimely⟩ := timed_inv_after croniter servers services hpre
    rw [after_concat]
    exact (started_step croniter hinv (htimely e.now hes.along.last) (ih hpre)).1

theorem first_attempts_once {taskId : ℕ} {pre mid : List Event} {e f : Event}
    (hes : Chronological (pre ++ e :: (mid ++ [f])))
    (he : GainsFirst croniter taskId (after croniter servers services pre) e) :
    ¬ GainsFirst croniter taskId (after croniter servers services (pre ++ e :: mid)) f := by
  have hlast : Chronological ((pre ++ e :: mid) ++ [f]) := by simpa using hes
  have hmid : Chronological ((pre ++ [e]) ++ mid) := by
    have h := (List.pairwise_append.mp hlast).1
    simpa [Chronological] using h
  obtain ⟨r, hr, rfl, -, -⟩ := he
  have hfirst : Chronological (pre ++ [e]) := (List.pairwise_append.mp hmid).1
  rw [← after_concat] at hr
  have hstarted := started_after croniter servers services hmid
    ((timed_inv_after croniter servers services hfirst).1.started hr)
  have hlist : pre ++ [e] ++ mid = pre ++ e :: mid := by simp
  rw [hlist] at hstarted
  obtain ⟨hinv, htimely⟩ := timed_inv_after croniter servers services
    (List.pairwise_append.mp hlast).1
  exact (started_step croniter hinv (htimely f.now hlast.along.last) hstarted).2

/-- The rows that remain for a target of a task are consecutive attempts within the budget;
all but the last one are `FAILED`, and only the last one may be unfinished. -/
structure WellFormed (db : Db) : Prop where
  distinct : ∀ e ∈ db.executions, ∀ f ∈ db.executions,
    SameChain e f → e.attempt = f.attempt → e = f
  consecutive : ∀ e ∈ db.executions, ∀ f ∈ db.executions, SameChain e f →
    ∀ k, e.attempt < k → k < f.attempt → ∃ g ∈ db.executions, SameChain e g ∧ g.attempt = k
  within : ∀ e ∈ db.executions, ∃ t ∈ db.tasks, t.id = e.taskId ∧ e.attempt ≤ t.maxAttempts
  failed : ∀ e ∈ db.executions, ∀ f ∈ db.executions,
    SameChain e f → e.attempt < f.attempt → e.status = .failed
  open_last : ∀ e ∈ db.executions, ∀ f ∈ db.executions,
    SameChain e f → e.status.finished = false → f = e ∨ f.attempt < e.attempt ∧ f.status = .failed

/-- `db'` lost finished rows of `db` only, and from each chain a prefix. -/
structure LostPrefixes (db db' : Db) : Prop where
  sub : ∀ e ∈ db'.executions, e ∈ db.executions
  finished : ∀ e ∈ db.executions, e ∉ db'.executions → e.status.finished = true
  down : ∀ e ∈ db.executions, ∀ f ∈ db.executions, SameChain e f → e.attempt < f.attempt →
    f ∉ db'.executions → e ∉ db'.executions

theorem Chains.wellFormed {db : Db} (h : Chains db) : WellFormed db where
  distinct := h.unique
  consecutive := h.gapless
  within := h.task_of
  failed := h.superseded
  open_last := by
    intro e he f hf hchain hopen
    rcases (h.attempt_le_of_open he hf hchain hopen).lt_or_eq with hlt | heq
    · exact .inr ⟨hlt, h.superseded f hf e he hchain.symm hlt⟩
    · exact .inl (h.unique f hf e he hchain.symm heq)

theorem Timely.lostPrefixes {db : Db} {clock cutoff : Time} (ht : Timely clock db)
    (h : Chains db) : LostPrefixes db (db.purged cutoff) where
  sub := fun e he => (mem_purged.mp he).1
  finished := by
    intro e he hlost
    rw [mem_purged, not_and, not_not] at hlost
    exact (hlost he).1
  down := by
    intro e he f hf hchain hlt hlost hkept
    rw [mem_purged, not_and, not_not] at hlost
    exact (mem_purged.mp hkept).2 (ht.old_of_lt h he hf hchain hlt (hlost hf))

/-- The chains after any chronological run, and what the next event, at any later time, can
do to them: it never meets the unique key, a cleanup removes prefixes, and a task that got
its first attempts before gets no others. -/
theorem attempt_chains_wellFormed (hes : Chronological es) :
    WellFormed (after croniter servers services es) ∧
      ∀ e : Event, (∀ a ∈ es, a.now ≤ e.now) →
        perform croniter (after croniter servers services es) e.now e.call ≠ .error attemptTaken ∧
        (∀ days, e.call = .cleanupHistory days → LostPrefixes (after croniter servers services es)
          (step croniter (after croniter servers services es) e)) ∧
        ∀ taskId pre d post, es = pre ++ d :: post →
          GainsFirst croniter taskId (after croniter servers services pre) d →
          ¬ GainsFirst croniter taskId (after croniter servers services es) e := by
  obtain ⟨hinv, htimely⟩ := timed_inv_after croniter servers services hes
  refine ⟨hinv.wellFormed, fun e hnow => ⟨hinv.perform_ne, ?_, ?_⟩⟩
  · rintro days hcall
    obtain ⟨now, call⟩ := e
    obtain rfl : call = .cleanupHistory days := hcall
    exact (htimely now hnow).lostPrefixes hinv.toChains
  · rintro taskId pre d post rfl hd
    refine first_attempts_once croniter servers services ?_ hd
    have hall : Chronological ((pre ++ d :: post) ++ [e]) :=
      List.pairwise_append.mpr ⟨hes, List.pairwise_singleton _ _, fun a ha b hb => by
        rw [List.mem_singleton.mp hb]
        exact hnow a ha⟩
    simpa using hall

end Run

/-- A scheduled check whose first attempt failed: two attempts, and no second batch. -/
theorem attempt_chains_wellFormed_retried :
    (after Sample.everyMinute Sample.servers Sample.services Sample.retriedCron).executions.rows.map
        (fun e => (e.attempt, e.status)) = [(1, .failed), (2, .pending)] ∧
      WellFormed (after Sample.everyMinute Sample.servers Sample.services Sample.retriedCron) ∧
      ¬ GainsFirst Sample.everyMinute 1
        (after Sample.everyMinute Sample.servers Sample.services Sample.retriedCron)
          ⟨120000, .fireDueCron⟩ := by
  have h := @attempt_chains_wellFormed Sample.everyMinute Sample.servers Sample.services
    Sample.retriedCron (by decide)
  refine ⟨by decide, h.1, (h.2 ⟨120000, .fireDueCron⟩ (by decide)).2.2 1
    [⟨0, .createTask (Sample.check "CRON") 1 none⟩] ⟨60000, .fireDueCron⟩ _ rfl (by decide)⟩

end OpsMonitor.Task
