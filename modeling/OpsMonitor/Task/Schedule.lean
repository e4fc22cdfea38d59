import OpsMonitor.Task.Siblings

/-! When a CRON task fires. The scan takes every task that has not started, confirmed or not,
and counts its first instant from the creation. -/

namespace OpsMonitor.Task
open Library

variable {croniter : CronIter} {now clock next : Time} {kept : Prop} {db db' : Db} {ev : Event}
  {t₀ : OpsTask}

/-- The first element that meets a condition. -/
theorem exists_first {α : Type*} {p : α → Prop} {l : List α} (h : ∃ x ∈ l, p x) :
    ∃ pre x post, l = pre ++ x :: post ∧ p x ∧ ∀ y ∈ pre, ¬ p y := by
  induction l with
  | nil => simp at h
  | cons a l ih =>
    by_cases ha : p a
    · exact ⟨[], a, l, rfl, ha, by simp⟩
    · obtain ⟨x, hx, hp⟩ := h
      have hx : x ∈ l := (List.mem_cons.mp hx).resolve_left fun heq => ha (heq ▸ hp)
      obtain ⟨pre, y, post, rfl, hy, hpre⟩ := ih ⟨x, hx, hp⟩
      exact ⟨a :: pre, y, post, rfl, hy, List.forall_mem_cons.mpr ⟨ha, hpre⟩⟩

/-! ## A task that has not fired -/

/-- The task is as it was created, but for a confirmation, and has no row. -/
structure Unfired (t₀ : OpsTask) (db : Db) : Prop where
  task : ∃ t ∈ db.tasks, SameTask t₀ t ∧ (t.status = .pending ∨ t.status = .created)
  rows : db.rowsOf t₀.id = ∅

theorem aggregated_of_empty {taskId : ℕ} (h : db.rowsOf taskId = ∅) : db.aggregated taskId = .pending := by
  refine if_pos (List.eq_nil_iff_forall_not_mem.mpr fun e he => ?_)
  have hmem := Db.mem_listByTask.mp he
  rwa [h] at hmem

/-- A cancellation finds nothing to cancel and leaves the task waiting. -/
theorem Unfired.aggregate (h : Unfired t₀ db) : Unfired t₀ (aggregateTaskStatus db now t₀.id) where
  task := by
    obtain ⟨t, ht, hsame, -⟩ := h.task
    rw [aggregateTaskStatus_eq, aggregated_of_empty h.rows]
    refine ⟨_, Db.mem_withTask.mpr ⟨t, ht, if_pos hsame.id⟩, ?_, .inl rfl⟩
    exact hsame.trans ⟨rfl, rfl, rfl, rfl, rfl, rfl, rfl⟩
  rows := by
    rw [Db.rowsOf, executions_aggregate]
    exact h.rows

theorem Unfired.move {act : Act} (h : Unfired t₀ db) (hcron : t₀.scheduleType = "CRON")
    (hm : Move croniter now db act db') (hact : act ≠ .fire t₀.id) : Unfired t₀ db' := by
  have hrows : ∀ e, e ∉ db.rowsOf t₀.id := Set.eq_empty_iff_forall_notMem.mp h.rows
  obtain ⟨t, ht, hsame, hs⟩ := h.task
  by_cases hpurge : act = .purge
  · subst hpurge
    cases hm with
    | purge cutoff =>
      refine ⟨⟨t, Table.mem_remove.mpr ⟨ht, decide_eq_false fun hmem => ?_⟩, hsame, hs⟩, ?_⟩
      · -- only one-time tasks are removed
        have hold := of_decide_eq_true ((Table.key_mem_select ht).mp hmem)
        have honce := (hsame.scheduleType.trans hcron).symm.trans hold.1
        exact absurd honce (by decide)
      · exact Set.eq_empty_iff_forall_notMem.mpr fun e he => hrows e ⟨(mem_purged.mp he.1).1, he.2⟩
  by_cases hid : t₀.id = act.taskId
  swap
  · have htouches := hm.touches hpurge
    refine ⟨⟨t, (htouches.tasks t ?_).mpr ht, hsame, hs⟩, (htouches.rows _ hid).trans h.rows⟩
    rw [hsame.id]
    exact hid
  cases hm with
  | insert hinsert =>
    obtain ⟨action, serverIds, -, rfl, rfl⟩ := insertTask_created hinsert
    have hlt : t.id < db.tasks.next := Table.key_lt ht
    rw [hsame.id, hid] at hlt
    exact absurd hlt (lt_irrefl _)
  | confirm ht' =>
    refine ⟨⟨_, Db.mem_withTask.mpr ⟨t, ht, if_pos (hsame.id.trans hid)⟩, ?_, .inl rfl⟩, h.rows⟩
    exact hsame.trans ⟨rfl, rfl, rfl, rfl, rfl, rfl, rfl⟩
  | @cancel s _ _ w =>
    rw [show s.id = t₀.id from hid.symm]
    refine Unfired.aggregate ⟨⟨t, ht, hsame, hs⟩, Set.eq_empty_iff_forall_notMem.mpr fun e he => ?_⟩
    rw [show t₀.id = s.id from hid] at he
    obtain ⟨e', he', -⟩ := w.of_mem_rowsOf he
    exact hrows e' ⟨he'.1, he'.2.trans hid.symm⟩
  | claim _ _ he | report _ he | expire _ he | archive _ _ he | retry _ _ he =>
    exact absurd ⟨he.1, he.2.trans hid.symm⟩ (hrows _)
  | @fire t' => exact absurd (congrArg Act.fire hid.symm) hact
  | purge => exact absurd rfl hpurge

theorem Unfired.moves {P : Act → Prop} (h : Unfired t₀ db) (hcron : t₀.scheduleType = "CRON")
    (hP : ∀ act, P act → act ≠ .fire t₀.id) (hm : Moves croniter now P db db') : Unfired t₀ db' := by
  induction hm with
  | refl => exact h
  | tail _ hmove ih =>
    obtain ⟨act, hact, hmove⟩ := hmove
    exact ih.move hcron hmove (hP act hact)

/-- A scan before the first instant passes the task over, every other call does not fire it. -/
theorem Unfired.step (h : Unfired t₀ db) (hcron : t₀.scheduleType = "CRON")
    (hearly : ev.call = .fireDueCron → ∀ next, Fireable croniter t₀ next → ev.now < next) :
    Unfired t₀ (step croniter db ev) := by
  rcases step_cases croniter db ev with ⟨heq, -⟩ | ⟨reply, -, hm⟩
  · rwa [heq]
  refine h.moves hcron (fun act hact hfire => ?_) hm
  obtain ⟨t, ht, hsame, -⟩ := h.task
  obtain ⟨now, call⟩ := ev
  subst hfire
  cases call with
  | fireDueCron =>
    obtain ⟨s, hs, ⟨next, hfireable, hdue⟩, hid⟩ := hact
    obtain rfl : s = t := Table.eq_of_key_eq (mem_listPendingCron.mp hs).1 ht
      ((Act.fire.inj hid).symm.trans hsame.id.symm)
    obtain ⟨-, expression, hexpression, hne, hnext⟩ := hfireable
    rw [hsame.cronExpression] at hexpression
    rw [hsame.createdAt] at hnext
    exact absurd hdue (not_le.mpr (hearly rfl next ⟨hcron, expression, hexpression, hne, hnext⟩))
  | createTask | confirmTask | cancelTask | fetchPending | reportResult | scanTimeouts
    | dispatchRetries | cleanupHistory => simp [Call.allows] at hact

/-! ## The batch of a firing -/

/-- The rows of the task are one new pending first attempt for each of its targets. -/
structure FiresBatch (taskId : ℕ) (db db' : Db) : Prop where
  one : ∀ g ∈ db.targets, g.taskId = taskId → ∃! e, e ∈ db'.rowsOf taskId ∧ e.targetId = g.id
  rows : ∀ e ∈ db'.rowsOf taskId, db.executions.next ≤ e.id ∧ e.status = .pending ∧ e.attempt = 1 ∧
    ∃ g ∈ db.targets, g.taskId = taskId ∧ g.id = e.targetId ∧ g.serverId = e.serverId

/-- What a turn of the scan leaves of its task, while other turns follow. -/
structure Batched (base : Db) (taskId : ℕ) (db : Db) : Prop where
  some : ∀ g ∈ base.targets, g.taskId = taskId → ∃ e ∈ db.rowsOf taskId, e.targetId = g.id
  rows : ∀ e ∈ db.rowsOf taskId, base.executions.next ≤ e.id ∧ e.status = .pending ∧ e.attempt = 1 ∧
    ∃ g ∈ base.targets, g.taskId = taskId ∧ g.id = e.targetId ∧ g.serverId = e.serverId

/-- A task of the list, while the tasks before it are fired. -/
structure FireGuard (base : Db) (t : OpsTask) (db : Db) : Prop where
  scheduled : Scheduled t db
  rows : db.rowsOf t.id = ∅
  targets : db.targets = base.targets
  counter : base.executions.next ≤ db.executions.next

theorem fireTask_fires {n : ℕ} {t : OpsTask} {acc : Db × ℕ} (hfire : Fireable croniter t next)
    (hdue : next ≤ now) (h : fireTask croniter now (db, n) t = .ok acc) :
    acc.1 = ({ db with
        executions := db.executions.insertAll
          (firstAttempts t.id (db.listTargets t.id)) }.withTask t.id
      fun t => { t with status := .running, startedAt := t.startedAt <|> some now }) := by
  obtain ⟨hcron, expression, hexpression, hne, hnext⟩ := hfire
  unfold fireTask at h
  dsimp only at h
  rw [if_neg (not_not.mpr hcron), Option.mem_def.mp hexpression] at h
  split at h
  · rename_i heq
    cases heq
  · rename_i heq
    exact absurd (Option.some.inj heq) hne
  · rename_i heq
    obtain rfl := Option.some.inj heq
    rw [hnext] at h
    dsimp only at h
    rw [if_pos hdue] at h
    obtain ⟨d, hcreate, h⟩ := bind_eq_ok.mp h
    obtain rfl := createExecutions_eq hcreate
    obtain rfl := pure_eq_ok.mp h
    rfl

theorem FireGuard.batched {base : Db} {t : OpsTask} (h : FireGuard base t db) {n : ℕ}
    {acc : Db × ℕ} (hfire : Fireable croniter t next) (hdue : next ≤ now)
    (hturn : fireTask croniter now (db, n) t = .ok acc) : Batched base t.id acc.1 := by
  have hrows : ∀ e, e ∉ db.rowsOf t.id := Set.eq_empty_iff_forall_notMem.mp h.rows
  rw [fireTask_fires hfire hdue hturn]
  constructor
  · intro g hg hid
    have hmem : g ∈ db.listTargets t.id := by
      rw [← h.targets] at hg
      exact Table.mem_select.mpr ⟨hg, decide_eq_true hid⟩
    obtain ⟨k, hk⟩ := @Table.exists_keyed_of_mem _ _ db.executions.next _ _
      (List.mem_map_of_mem (f := fun g => OpsTaskExecution.initial t.id g.id g.serverId 1) hmem)
    exact ⟨_, ⟨Table.mem_insertAll.mpr (.inr hk), rfl⟩, rfl⟩
  · rintro e ⟨he, hid⟩
    rcases Table.mem_insertAll.mp he with he | he
    · exact absurd ⟨he, hid⟩ (hrows e)
    · have hle := Table.le_key_of_mem_keyed he
      obtain ⟨a, ha, k, -, rfl⟩ := Table.exists_of_mem_keyed he
      obtain ⟨g, hg, rfl⟩ := List.mem_map.mp ha
      obtain ⟨hg, hgid⟩ := Table.mem_select.mp hg
      rw [h.targets] at hg
      exact ⟨h.counter.trans hle, rfl, rfl, g, hg, of_decide_eq_true hgid, rfl, rfl⟩

theorem FireGuard.keeps {base : Db} {n n' : ℕ} {t t' : OpsTask} (hlt : t.id < t'.id)
    (ht : FireGuard base t db) (hturn : fireTask croniter now (db, n) t = .ok (db', n'))
    (ht' : FireGuard base t' db) : FireGuard base t' db' := by
  have hscheduled := fireTask_keeps hlt ht.scheduled hturn ht'.scheduled
  rcases fireTask_move ht.scheduled.1 ht.scheduled.2 hturn with rfl | ⟨-, hmove⟩
  · exact ht'
  refine ⟨hscheduled, ?_, ?_, ht'.counter.trans hmove.executions_next_le⟩
  · exact ((hmove.touches nofun).rows _ hlt.ne').trans ht'.rows
  · generalize hact : Act.fire t.id = act at hmove
    cases hmove with
    | fire => exact ht'.targets
    | _ => cases hact

/-- A scan at or after its first instant fires the task. -/
theorem Inv.fires (h : Inv kept db) {n : ℕ} {t : OpsTask} (ht : t ∈ db.listPendingCron)
    (hfire : Fireable croniter t next) (hdue : next ≤ now)
    (hok : fireDueCron croniter db now = .ok (db', n)) : Batched db t.id db' := by
  have hloop := loop_foldlM hok
  refine hloop.each (G := fun t acc => FireGuard db t acc.1) (D := fun t t' => t.id < t'.id)
    (Q := fun u acc => u = t → Batched db u.id acc.1) ?_ ?_ ?_ (Table.select_sorted db.tasks _) ?_ t ht rfl
  · rintro u - ⟨d, k⟩ acc hG hturn rfl
    exact FireGuard.batched hG hfire hdue hturn
  · rintro u v ⟨d, k⟩ ⟨d', k'⟩ hlt hG hturn hGv
    exact FireGuard.keeps hlt hG hturn hGv
  · -- the turn of another task leaves the rows alone
    rintro u v ⟨d, k⟩ ⟨d', k'⟩ hlt hG hturn hQ rfl
    have hbatched := hQ rfl
    rcases fireTask_move hG.scheduled.1 hG.scheduled.2 hturn with rfl | ⟨-, hmove⟩
    · exact hbatched
    have hrows := (hmove.touches nofun).rows v.id (ne_of_lt hlt)
    exact ⟨fun g hg hid => hrows ▸ hbatched.some g hg hid, fun e he => hbatched.rows e (hrows ▸ he)⟩
  · intro u hu
    obtain ⟨hu, hcron, hs⟩ := mem_listPendingCron.mp hu
    exact ⟨⟨hu, hs⟩, (h.status u hu).free_of_cron hs hcron, rfl, le_rfl⟩

theorem Inv.fires_step (h : Inv False db) (htimely : Timely clock db) (hle : clock ≤ ev.now)
    (hunfired : Unfired t₀ db) (hfire : Fireable croniter t₀ next) (hcall : ev.call = .fireDueCron)
    (hdue : next ≤ ev.now) : FiresBatch t₀.id db (step croniter db ev) := by
  obtain ⟨t, ht, hsame, hs⟩ := hunfired.task
  have hchains : Chains (step croniter db ev) := (h.timed_step htimely hle).1.toChains
  rcases error_or_ok (fireDueCron croniter db ev.now) with ⟨x, herr⟩ | ⟨⟨d, n⟩, hok⟩
  · exact absurd herr h.fireDueCron_ne
  have hperform : perform croniter db ev.now ev.call = .ok (d, .count n) := by
    rw [hcall, perform, hok]
    rfl
  rw [step_of_ok hperform] at hchains ⊢
  have hfire' : Fireable croniter t next := by
    obtain ⟨hcron, expression, hexpression, hne, hnext⟩ := hfire
    rw [← hsame.cronExpression] at hexpression
    rw [← hsame.createdAt] at hnext
    exact ⟨hsame.scheduleType.trans hcron, expression, hexpression, hne, hnext⟩
  have hbatched := h.fires (mem_listPendingCron.mpr ⟨ht, hfire'.1, hs⟩) hfire' hdue hok
  rw [hsame.id] at hbatched
  refine ⟨fun g hg hid => ?_, hbatched.rows⟩
  obtain ⟨e, he, htarget⟩ := hbatched.some g hg hid
  refine ⟨e, ⟨he, htarget⟩, ?_⟩
  rintro f ⟨hf, hftarget⟩
  refine hchains.unique f hf.1 e he.1 ⟨hf.2.trans he.2.symm, hftarget.trans htarget.symm⟩ ?_
  rw [(hbatched.rows f hf).2.2.1, (hbatched.rows e he).2.2.1]

/-! ## A CRON task from its creation on -/

/-- The run of an installation with a CRON task, confirmed at some time. The schedule evaluation
gives the least instant of the expression after its base. -/
structure CronRun (croniter : CronIter) (servers : Table OpsServer)
    (services : Table OpsServerService) where
  expression : String
  instants : Set Time
  nonempty : expression ≠ ""
  evaluates : ∀ base, ∃ next, croniter expression base = some next ∧
    IsLeast {i | i ∈ instants ∧ base < i} next
  before : List Event
  createdAt : Time
  data : TaskCreate
  creatorId : ℕ
  key : Option String
  task : OpsTask
  created : Db
  creation : createTask (after croniter servers services before) createdAt data creatorId key =
    .ok (created, task)
  isNew : task ∉ (after croniter servers services before).tasks
  scheduled : data.scheduleType = "CRON" ∧ data.cronExpression = some expression
  later : List Event
  confirmedAt : Time
  operatorId : ℕ
  confirmed : ⟨confirmedAt, .confirmTask task.id operatorId⟩ ∈ later
  chronological : Chronological (before ++ ⟨createdAt, .createTask data creatorId key⟩ :: later)

namespace CronRun
variable {servers : Table OpsServer} {services : Table OpsServerService}

section
variable (s : CronRun croniter servers services)

/-- The state after the creation and the events `es`. -/
def state (es : List Event) : Db :=
  after croniter servers services (s.before ++ ⟨s.createdAt, .createTask s.data s.creatorId s.key⟩ :: es)

/-- The task gets no row before `first`. -/
def NothingEarly (first : Time) : Prop :=
  Along (fun pre ev => ∀ r ∈ (s.state (pre ++ [ev])).rowsOf s.task.id,
    (s.state pre).executions.next ≤ r.id → first ≤ ev.now) s.later

/-- The first scan from `first` on fires the task. -/
def FirstScanFires (first : Time) : Prop :=
  Along (fun pre ev => ev.call = .fireDueCron → first ≤ ev.now →
    (∀ x ∈ pre, x.call = .fireDueCron → x.now < first) →
      FiresBatch s.task.id (s.state pre) (s.state (pre ++ [ev]))) s.later

end

variable {s : CronRun croniter servers services} {due first : Time}

theorem state_concat (es : List Event) (ev : Event) :
    s.state (es ++ [ev]) = step croniter (s.state es) ev := by
  rw [state, ← List.cons_append, ← List.append_assoc, after_concat]
  rfl

theorem inserted : insertTask (after croniter servers services s.before) s.createdAt s.data
    s.creatorId s.key = .ok (s.created, s.task) := by
  have h := s.creation
  unfold createTask at h
  split at h
  · rename_i existing hkey
    obtain ⟨key, -, hget⟩ := Option.bind_eq_some_iff.mp hkey
    unfold Db.getByIdempotencyKey at hget
    split_ifs at hget
    have hmem := (Table.mem_select.mp (List.mem_of_mem_head? hget)).1
    have htask : existing = s.task := (Prod.ext_iff.mp (Except.ok.inj h)).2
    rw [htask] at hmem
    exact absurd hmem s.isNew
  · exact h

theorem fireable (hdue : IsLeast {i | i ∈ s.instants ∧ s.createdAt < i} due) :
    Fireable croniter s.task due := by
  obtain ⟨action, serverIds, -, htask, -⟩ := insertTask_created s.inserted
  obtain ⟨next, hnext, hleast⟩ := s.evaluates s.createdAt
  rw [htask]
  exact ⟨s.scheduled.1, s.expression, s.scheduled.2, s.nonempty, by rw [hdue.unique hleast]; exact hnext⟩

theorem chronological_before : Chronological s.before :=
  (List.pairwise_append.mp s.chronological).1

theorem unfired_start : Unfired s.task (s.state []) := by
  have hstate : s.state [] = s.created := by
    rw [state, after_concat]
    refine @step_of_ok _ _ _ _ (.task s.task) ?_
    change (createTask _ _ _ _ _ >>= _) = _
    rw [s.creation]
    rfl
  have hinv := (timed_inv_after croniter servers services s.chronological_before).1
  obtain ⟨action, serverIds, -, htask, hcreated⟩ := insertTask_created s.inserted
  rw [hstate, hcreated]
  have hcron := s.scheduled.1
  refine ⟨⟨s.task, Table.mem_insert.mpr (.inr htask), .rfl' _, ?_⟩, ?_⟩
  · rw [htask]
    rcases newTask_status s.createdAt s.data action s.creatorId s.key with hs | ⟨-, hs⟩
    · exact .inr hs
    · exact .inl hs
  · refine Set.eq_empty_iff_forall_notMem.mpr ?_
    rintro e ⟨he, hid⟩
    dsimp only at he
    rw [if_neg (by rw [hcron]; decide)] at he
    obtain ⟨t, ht, htid, -⟩ := hinv.task_of e he
    have hlt : t.id < (after croniter servers services s.before).tasks.next := Table.key_lt ht
    rw [htid, hid, htask] at hlt
    exact absurd hlt (lt_irrefl _)

theorem chronological_later {pre post : List Event} (hlater : s.later = pre ++ ev :: post) :
    (∀ x ∈ pre, x.now ≤ ev.now) ∧ (∀ x ∈ post, ev.now ≤ x.now) ∧
      Chronological (s.before ++ ⟨s.createdAt, .createTask s.data s.creatorId s.key⟩ :: pre) := by
  have h := s.chronological
  rw [hlater, ← List.cons_append, ← List.append_assoc] at h
  obtain ⟨hpre, hpost, hcross⟩ := List.pairwise_append.mp h
  refine ⟨fun x hx => hcross x (by simp [hx]) ev List.mem_cons_self, ?_, hpre⟩
  exact (List.pairwise_cons.mp hpost).1

theorem createdAt_le : s.createdAt ≤ s.confirmedAt :=
  (List.pairwise_cons.mp (List.pairwise_append.mp s.chronological).2.1).1 _ s.confirmed

section
variable (hdue : IsLeast {i | i ∈ s.instants ∧ s.createdAt < i} due)
include hdue

theorem unfired {es : List Event} (hes : ∀ x ∈ es, x.call = .fireDueCron → x.now < due) :
    Unfired s.task (s.state es) := by
  have hcron : s.task.scheduleType = "CRON" := (fireable hdue).1
  induction es using List.reverseRecOn with
  | nil => exact s.unfired_start
  | append_singleton es ev ih =>
    rw [state_concat]
    refine (ih fun x hx => hes x (List.mem_append_left _ hx)).step hcron fun hcall next hfire => ?_
    obtain ⟨-, expression, hexpression, -, hnext⟩ := hfire
    obtain ⟨-, expression', hexpression', -, hnext'⟩ := fireable hdue
    obtain rfl := Option.mem_unique hexpression hexpression'
    rw [← Option.some.inj (hnext'.symm.trans hnext)]
    exact hes ev (by simp) hcall

theorem fires {pre post : List Event} (hlater : s.later = pre ++ ev :: post)
    (hpre : ∀ x ∈ pre, x.call = .fireDueCron → x.now < due) (hcall : ev.call = .fireDueCron)
    (hlate : due ≤ ev.now) : FiresBatch s.task.id (s.state pre) (s.state (pre ++ [ev])) := by
  obtain ⟨hle, -, hchron⟩ := chronological_later hlater
  obtain ⟨hinv, htimely⟩ := timed_inv_after croniter servers services hchron
  rw [state_concat]
  refine hinv.fires_step (htimely ev.now fun x hx => ?_) le_rfl (unfired hdue hpre) (fireable hdue)
    hcall hlate
  have h := s.chronological
  rw [hlater, ← List.cons_append, ← List.append_assoc] at h
  exact (List.pairwise_append.mp h).2.2 x hx ev List.mem_cons_self

/-- The task fires at the first scan from `first` on, and has no row before, exactly when no scan
comes between the first instant after its creation and `first`. -/
theorem fires_at_iff (hle : due ≤ first) : s.NothingEarly first ∧ s.FirstScanFires first ↔
    ∀ ev ∈ s.later, ev.call = .fireDueCron → ev.now < due ∨ first ≤ ev.now := by
  constructor
  · rintro ⟨hearly, -⟩
    by_contra hscan
    push Not at hscan
    obtain ⟨pre, ev, post, hlater, ⟨hcall, hlate, hlt⟩, hpre⟩ := exists_first hscan
    obtain ⟨hbefore, -, hchron⟩ := chronological_later hlater
    -- the scans before it were not due
    have hpre : ∀ y ∈ pre, y.call = .fireDueCron → y.now < due := by
      intro y hy hycall
      by_contra hdue'
      exact hpre y hy ⟨hycall, not_lt.mp hdue', (hbefore y hy).trans_lt hlt⟩
    have hfires := fires hdue hlater hpre hcall hlate
    obtain ⟨t, ht, hsame, -⟩ := (unfired hdue hpre).task
    obtain ⟨g, hg, hid⟩ := (timed_inv_after croniter servers services hchron).1.has_target t ht
    obtain ⟨e, ⟨he, -⟩, -⟩ := hfires.one g hg (hid.trans hsame.id)
    exact hlt.not_ge (hearly pre ev post hlater e he (hfires.rows e he).1)
  · intro hscan
    have hquiet : ∀ es : List Event, (∀ x ∈ es, x ∈ s.later) →
        (∀ x ∈ es, x.call = .fireDueCron → x.now < first) → Unfired s.task (s.state es) := by
      intro es hes hbefore
      refine unfired hdue fun x hx hcall => ?_
      exact (hscan x (hes x hx) hcall).resolve_right (hbefore x hx hcall).not_ge
    constructor
    · rintro pre ev post hlater r hr -
      by_contra hlt
      obtain ⟨hbefore, -, -⟩ := chronological_later hlater
      have hunfired := hquiet (pre ++ [ev]) (fun x hx => by rw [hlater]; simp at hx ⊢; tauto)
        fun x hx _ => by
          rcases List.mem_append.mp hx with hx | hx
          · exact (hbefore x hx).trans_lt (not_le.mp hlt)
          · rw [List.mem_singleton.mp hx]
            exact not_le.mp hlt
      rw [hunfired.rows] at hr
      exact hr
    · intro pre ev post hlater hcall hlate hbefore
      refine fires hdue hlater (fun x hx hxcall => ?_) hcall (hle.trans hlate)
      have hmem : x ∈ s.later := by
        rw [hlater]
        exact List.mem_append_left _ hx
      exact (hscan x hmem hxcall).resolve_right (hbefore x hx hxcall).not_ge

end

end CronRun

/-- A CRON task waits for its first instant after the confirmation and fires at the next scan
exactly when no scan comes between its first instant after the creation and that one. -/
theorem cron_fires_after_confirmation (croniter : CronIter) (servers : Table OpsServer)
    (services : Table OpsServerService) (s : CronRun croniter servers services) (due first : Time)
    (hdue : IsLeast {i | i ∈ s.instants ∧ s.createdAt < i} due)
    (hfirst : IsLeast {i | i ∈ s.instants ∧ s.confirmedAt < i} first) :
    s.NothingEarly first ∧ s.FirstScanFires first ↔
      ∀ ev ∈ s.later, ev.call = .fireDueCron → ev.now < due ∨ first ≤ ev.now := by
  have hle : due ≤ first := hdue.2 ⟨hfirst.1.1, s.createdAt_le.trans_lt hfirst.1.2⟩
  exact CronRun.fires_at_iff hdue hle

section Runs
open Sample

theorem everyMinute_isLeast (base : Time) :
    IsLeast {i : Time | i ∈ {i : Time | 60000 ∣ i} ∧ base < i} ((base / 60000 + 1) * 60000) := by
  constructor
  · exact ⟨Dvd.intro_left _ rfl, Int.lt_ediv_add_one_mul_self base (by decide)⟩
  · rintro _ ⟨⟨k, rfl⟩, hlt⟩
    have hquot : base / 60000 < k := Int.ediv_lt_of_lt_mul (by decide) (by rwa [mul_comm])
    rw [mul_comm 60000]
    exact mul_le_mul_of_nonneg_right hquot (by decide)

/-- A check of every minute, confirmed a minute and a half after its creation. -/
def confirmedCheck (scan : Time) (hscan : 90000 ≤ scan) : CronRun everyMinute servers services where
  expression := "* * * * *"
  instants := {i | 60000 ∣ i}
  nonempty := by decide
  evaluates := fun base => ⟨_, rfl, everyMinute_isLeast base⟩
  before := []
  createdAt := 0
  data := check "CRON"
  creatorId := 1
  key := none
  task := { newTask 0 (check "CRON") .status 1 none with id := 1 }
  created := after everyMinute servers services [⟨0, .createTask (check "CRON") 1 none⟩]
  creation := rfl
  isNew := Table.notMem_empty _
  scheduled := ⟨rfl, rfl⟩
  later := [⟨90000, .confirmTask 1 1⟩, ⟨scan, .fireDueCron⟩]
  confirmedAt := 90000
  operatorId := 1
  confirmed := List.mem_cons_self
  chronological := by
    simp only [List.nil_append, Chronological, List.pairwise_cons, List.mem_cons, List.not_mem_nil,
      or_false, forall_eq_or_imp, forall_eq]
    exact ⟨⟨by decide, le_trans (by decide) hscan⟩, hscan, by simp, List.Pairwise.nil⟩

/-- A scan after the second full minute fires the check. -/
theorem cron_fires_after_confirmation_check :
    (confirmedCheck 121000 (by decide)).NothingEarly 120000 ∧
      (confirmedCheck 121000 (by decide)).FirstScanFires 120000 := by
  refine (cron_fires_after_confirmation everyMinute servers services
    (confirmedCheck 121000 (by decide)) 60000 120000 (everyMinute_isLeast 0)
    (everyMinute_isLeast 90000)).mpr ?_
  intro ev hev hcall
  rcases List.mem_cons.mp hev with rfl | hev
  · cases hcall
  · rw [List.mem_singleton.mp hev]
    exact .inr (by decide)

/-- A scan right after the confirmation fires it too, before the next full minute. -/
theorem confirmed_check_fires_early :
    ¬ ∀ (croniter : CronIter) (servers : Table OpsServer) (services : Table OpsServerService)
      (s : CronRun croniter servers services) (due first : Time),
      IsLeast {i | i ∈ s.instants ∧ s.createdAt < i} due →
      IsLeast {i | i ∈ s.instants ∧ s.confirmedAt < i} first →
      s.NothingEarly first ∧ s.FirstScanFires first := by
  intro h
  obtain ⟨hearly, -⟩ := h everyMinute servers services (confirmedCheck 100000 (by decide)) 60000 120000
    (everyMinute_isLeast 0) (everyMinute_isLeast 90000)
  obtain ⟨r, hr, htask, hnew⟩ : ∃ r ∈ ((confirmedCheck 100000 (by decide)).state
      ([⟨90000, .confirmTask 1 1⟩] ++ [⟨100000, .fireDueCron⟩])).executions, r.taskId = 1 ∧
        ((confirmedCheck 100000 (by decide)).state [⟨90000, .confirmTask 1 1⟩]).executions.next ≤
          r.id := by decide
  have hle := hearly [⟨90000, .confirmTask 1 1⟩] ⟨100000, .fireDueCron⟩ [] rfl r ⟨hr, htask⟩ hnew
  exact absurd hle (by decide)

end Runs

end OpsMonitor.Task
