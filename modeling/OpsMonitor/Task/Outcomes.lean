import OpsMonitor.Task.Aggregation
import OpsMonitor.Task.Siblings
import OpsMonitor.Task.Whitelist

/-! What a cleanup does to the tasks that are still open. The finished attempts of a task are
ordered by how much they decide; the removed ones matter when none that stays decides as much. -/

namespace OpsMonitor.Task
open Library

variable {croniter : CronIter} {now clock cutoff : Time} {kept : Prop} {db db' : Db}

/-! ## The outcome of finished attempts -/

/-- How much a finished attempt decides over the outcome of its task. -/
def ExecutionStatus.severity : ExecutionStatus → ℕ
  | success => 1
  | failed | timeout => 2
  | dead => 3
  | cancelled | pending | running | retrying => 0

def TaskStatus.severity : TaskStatus → ℕ
  | success => 1
  | failed | timeout => 2
  | dead => 3
  | cancelled | created | pending | running | retrying => 0

def outcome : ℕ → TaskStatus
  | 0 => .cancelled
  | 1 => .success
  | 2 => .failed
  | _ => .dead

@[simp] theorem severity_outcome (s : ExecutionStatus) : (outcome s.severity).severity = s.severity := by
  cases s <;> rfl

theorem ExecutionStatus.eq_cancelled {s : ExecutionStatus} (hfin : s.finished = true)
    (hs : s.severity = 0) : s = .cancelled := by
  cases s with
  | cancelled => rfl
  | success | failed | timeout | dead => cases hs
  | pending | running | retrying => cases hfin

theorem ExecutionStatus.severity_le (s : ExecutionStatus) : s.severity ≤ 3 := by
  cases s <;> decide

section Outcome
variable {statuses left : Set ExecutionStatus} {s : ExecutionStatus}

/-- The most severe of the finished attempts decides. -/
theorem documentedStatus_eq_outcome (hfin : ∀ x ∈ statuses, x.finished = true) (hs : s ∈ statuses)
    (hmax : ∀ x ∈ statuses, x.severity ≤ s.severity) : documentedStatus statuses = outcome s.severity := by
  have hopen : ∀ x : ExecutionStatus, x.finished = false → x ∉ statuses := by
    intro x hx hmem
    rw [hfin x hmem] at hx
    cases hx
  have hbelow : ∀ x : ExecutionStatus, s.severity < x.severity → x ∉ statuses :=
    fun x hlt hmem => hlt.not_ge (hmax x hmem)
  rw [documentedStatus, if_neg (hopen .retrying rfl),
    if_neg (not_or.mpr ⟨hopen .pending rfl, hopen .running rfl⟩)]
  cases s with
  | dead => rw [if_pos hs]; rfl
  | failed =>
    rw [if_neg (hbelow .dead (by decide)), if_pos (.inl hs)]
    rfl
  | timeout =>
    rw [if_neg (hbelow .dead (by decide)), if_pos (.inr hs)]
    rfl
  | success =>
    have hfailed := not_or.mpr ⟨hbelow .failed (by decide), hbelow .timeout (by decide)⟩
    rw [if_neg (hbelow .dead (by decide)), if_neg hfailed, if_neg fun hall => ?_]
    · rfl
    · cases hall _ hs
  | cancelled =>
    have hfailed := not_or.mpr ⟨hbelow .failed (by decide), hbelow .timeout (by decide)⟩
    rw [if_neg (hbelow .dead (by decide)), if_neg hfailed, if_pos fun x hx => ?_]
    · rfl
    · exact ExecutionStatus.eq_cancelled (hfin x hx) (Nat.le_zero.mp (hmax x hx))
  | pending | running | retrying => cases hfin _ hs

theorem exists_most_severe (hne : statuses.Nonempty) :
    ∃ s ∈ statuses, ∀ x ∈ statuses, x.severity ≤ s.severity := by
  have hfinite : (ExecutionStatus.severity '' statuses).Finite :=
    (Set.finite_Iic 3).subset (by rintro _ ⟨s, -, rfl⟩; exact s.severity_le)
  obtain ⟨_, ⟨s, hs, rfl⟩, hmax⟩ := hfinite.exists_maximal (hne.image _)
  refine ⟨s, hs, fun x hx => ?_⟩
  by_contra hlt
  exact hlt (hmax ⟨x, hx, rfl⟩ (le_of_not_ge hlt))

/-- Leaving attempts out keeps the outcome when one that stays is as severe. -/
theorem documentedStatus_eq_iff (hfin : ∀ x ∈ statuses, x.finished = true) (hsub : left ⊆ statuses)
    (hne : left.Nonempty) :
    documentedStatus left = documentedStatus statuses ↔
      ∀ x ∈ statuses, ∃ y ∈ left, x.severity ≤ y.severity := by
  obtain ⟨s, hs, hmax⟩ := exists_most_severe (hne.mono hsub)
  obtain ⟨y, hy, hymax⟩ := exists_most_severe hne
  rw [documentedStatus_eq_outcome hfin hs hmax,
    documentedStatus_eq_outcome (fun x hx => hfin x (hsub hx)) hy hymax]
  constructor
  · intro heq x hx
    have hsame := congrArg TaskStatus.severity heq
    rw [severity_outcome, severity_outcome] at hsame
    exact ⟨y, hy, (hmax x hx).trans hsame.ge⟩
  · intro hcovered
    obtain ⟨z, hz, hle⟩ := hcovered s hs
    rw [le_antisymm (hmax y (hsub hy)) (hle.trans (hymax z hz))]

end Outcome

/-! ## The ends of the open attempts -/

/-- The row once its attempt has ended. -/
def OpsTaskExecution.ended (ends : OpsTaskExecution → ExecutionStatus) (e : OpsTaskExecution) :
    OpsTaskExecution :=
  if e.status.finished then e else { e with status := ends e }

theorem key_ended (ends : OpsTaskExecution → ExecutionStatus) (e : OpsTaskExecution) :
    Keyed.key (e.ended ends) = Keyed.key e := by
  rw [OpsTaskExecution.ended]
  split_ifs <;> rfl

/-- The tables once every attempt has ended. -/
def Db.ended (db : Db) (ends : OpsTaskExecution → ExecutionStatus) : Db :=
  { db with executions := db.executions.update (·.ended ends) (key_ended ends) }

section Ended
variable {ends : OpsTaskExecution → ExecutionStatus} {e : OpsTaskExecution}

@[simp] theorem targetId_ended : (e.ended ends).targetId = e.targetId := by
  rw [OpsTaskExecution.ended]
  split_ifs <;> rfl

@[simp] theorem attempt_ended : (e.ended ends).attempt = e.attempt := by
  rw [OpsTaskExecution.ended]
  split_ifs <;> rfl

@[simp] theorem taskId_ended : (e.ended ends).taskId = e.taskId := by
  rw [OpsTaskExecution.ended]
  split_ifs <;> rfl

theorem ended_of_finished (h : e.status.finished = true) : e.ended ends = e := if_pos h

theorem status_ended_of_open (h : e.status.finished = false) : (e.ended ends).status = ends e := by
  rw [OpsTaskExecution.ended, if_neg (by simp [h])]

theorem finished_ended (hends : ∀ e, (ends e).finished = true) :
    (e.ended ends).status.finished = true := by
  cases hfin : e.status.finished with
  | true => rwa [ended_of_finished hfin]
  | false => rw [status_ended_of_open hfin, hends]

theorem listByTask_ended (taskId : ℕ) :
    (db.ended ends).listByTask taskId = (db.listByTask taskId).map (·.ended ends) :=
  @Table.select_update _ _ db.executions (·.ended ends) (key_ended ends) _
    fun e _ => by rw [taskId_ended]

theorem latest_ended (rows : Set OpsTaskExecution) :
    latest ((·.ended ends) '' rows) = (·.ended ends) '' latest rows := by
  ext r
  constructor
  · rintro ⟨⟨e, he, rfl⟩, hmax⟩
    refine ⟨e, ⟨he, fun f hf htarget => ?_⟩, rfl⟩
    simpa using hmax (f.ended ends) ⟨f, hf, rfl⟩ (by simpa using htarget)
  · rintro ⟨e, ⟨he, hmax⟩, rfl⟩
    refine ⟨⟨e, he, rfl⟩, ?_⟩
    rintro _ ⟨f, hf, rfl⟩ htarget
    simpa using hmax f hf (by simpa using htarget)

end Ended

theorem Chains.distinct (h : Chains db) (taskId : ℕ) : Distinct (db.listByTask taskId) := by
  refine (Table.nodup_select _ _).map_on fun e he f hf heq => ?_
  have he := Db.mem_listByTask.mp he
  have hf := Db.mem_listByTask.mp hf
  obtain ⟨htarget, hattempt⟩ := Prod.ext_iff.mp heq
  exact h.unique e he.1 f hf.1 ⟨he.2.trans hf.2.symm, htarget⟩ hattempt

/-- What the attempts of a task have ended with. -/
def endings (ends : OpsTaskExecution → ExecutionStatus) (rows : Set OpsTaskExecution) :
    Set ExecutionStatus := (fun e => (e.ended ends).status) '' latest rows

theorem Chains.aggregateOf_ended (h : Chains db) {ends : OpsTaskExecution → ExecutionStatus}
    {taskId : ℕ} (hne : (db.rowsOf taskId).Nonempty) :
    aggregateOf ((db.ended ends).listByTask taskId) =
      documentedStatus (endings ends (db.rowsOf taskId)) := by
  have hdistinct : Distinct ((db.ended ends).listByTask taskId) := by
    rw [listByTask_ended, Distinct, List.map_map]
    refine Eq.mp (congrArg List.Nodup (List.map_congr_left fun e _ => ?_)) (h.distinct taskId)
    simp
  have hrows : {x | x ∈ (db.ended ends).listByTask taskId} = (·.ended ends) '' db.rowsOf taskId := by
    ext x
    rw [listByTask_ended]
    simp only [Set.mem_ofPred_eq, List.mem_map, Set.mem_image, Db.mem_listByTask]
  have hcons : (db.ended ends).listByTask taskId ≠ [] := by
    obtain ⟨e, he⟩ := hne
    rw [listByTask_ended]
    exact List.ne_nil_of_mem (List.mem_map_of_mem (Db.mem_listByTask.mpr he))
  rw [aggregateOf_eq hdistinct hcons, hrows, documentedAggregate, latest_ended, Set.image_image]
  rfl

/-! ## The latest attempts that a cleanup leaves -/

/-- The latest attempts that stay are the latest of those that stay. -/
theorem Timely.latest_purged (ht : Timely clock db) (h : Chains db) (taskId : ℕ) :
    latest ((db.purged cutoff).rowsOf taskId) = {e ∈ latest (db.rowsOf taskId) | ¬ Old cutoff e} := by
  ext e
  constructor
  · rintro ⟨⟨he, htask⟩, hmax⟩
    obtain ⟨he, hkept⟩ := mem_purged.mp he
    refine ⟨⟨⟨he, htask⟩, fun f hf htarget => ?_⟩, hkept⟩
    -- a removed attempt above `e` would have taken `e` along
    by_cases hold : Old cutoff f
    · by_contra hlt
      exact hkept (ht.old_of_lt h he hf.1 ⟨htask.trans hf.2.symm, htarget.symm⟩ (not_le.mp hlt) hold)
    · exact hmax f ⟨mem_purged.mpr ⟨hf.1, hold⟩, hf.2⟩ htarget
  · rintro ⟨⟨he, hmax⟩, hkept⟩
    exact ⟨⟨mem_purged.mpr ⟨he.1, hkept⟩, he.2⟩, fun f hf => hmax f ⟨(mem_purged.mp hf.1).1, hf.2⟩⟩

/-- Every latest attempt that a cleanup removes was cancelled, or one that stays has ended with
an outcome as severe. -/
def Covered (cutoff : Time) (rows : Set OpsTaskExecution) : Prop :=
  ∀ e ∈ latest rows, Old cutoff e → e.status = .cancelled ∨
    ∃ f ∈ latest rows, ¬ Old cutoff f ∧ f.status.finished = true ∧
      e.status.severity ≤ f.status.severity

/-- However the open attempts of the task end, the removed rows make no difference. -/
def KeepsOutcome (db db' : Db) (taskId : ℕ) : Prop :=
  ∀ ends : OpsTaskExecution → ExecutionStatus, (∀ e, (ends e).finished = true) →
    aggregateOf ((db'.ended ends).listByTask taskId) = aggregateOf ((db.ended ends).listByTask taskId)

/-- An open task has an open attempt once it has any. -/
theorem Inv.exists_open (h : Inv kept db) {t : OpsTask} (ht : t ∈ db.tasks)
    (hopen : t.status.finished = false) (hne : (db.rowsOf t.id).Nonempty) :
    ∃ e ∈ db.rowsOf t.id, e.status.finished = false := by
  cases h.status t ht with
  | waiting _ hrows =>
    obtain ⟨e, he⟩ := hne
    exact ⟨e, he, by rw [(hrows e he).1]; rfl⟩
  | running _ hactive =>
    obtain ⟨e, he, hs⟩ := hactive
    exact ⟨e, he, by rcases hs with hs | hs <;> rw [hs] <;> rfl⟩
  | retrying _ hrow =>
    obtain ⟨e, he, hs⟩ := hrow
    exact ⟨e, he, by rw [hs]; rfl⟩
  | closed hs =>
    rw [hs] at hopen
    cases hopen

theorem not_old_of_open {e : OpsTaskExecution} (h : e.status.finished = false) : ¬ Old cutoff e := by
  intro hold
  rw [hold.1] at h
  cases h

/-- Without rows there is nothing to remove. -/
theorem keepsOutcome_of_empty {taskId : ℕ} (hempty : db.rowsOf taskId = ∅) :
    KeepsOutcome db (db.purged cutoff) taskId := by
  have hnil : ∀ d : Db, d.rowsOf taskId = ∅ → d.listByTask taskId = [] := by
    intro d hd
    refine List.eq_nil_iff_forall_not_mem.mpr fun e he => ?_
    have hmem := Db.mem_listByTask.mp he
    rwa [hd] at hmem
  have hpurged : (db.purged cutoff).rowsOf taskId = ∅ := by
    refine Set.eq_empty_of_forall_notMem fun e he => ?_
    have hmem : e ∈ db.rowsOf taskId := ⟨(mem_purged.mp he.1).1, he.2⟩
    rwa [hempty] at hmem
  intro ends _
  rw [listByTask_ended, listByTask_ended, hnil _ hempty, hnil _ hpurged]

/-- One way to end keeps its outcome when, ended that way, what stays covers what goes. -/
theorem Chains.aggregateOf_purged_iff (h : Chains db) (htimely : Timely clock db) {taskId : ℕ}
    {o : OpsTaskExecution} (ho : o ∈ latest (db.rowsOf taskId)) (hkept : ¬ Old cutoff o)
    {ends : OpsTaskExecution → ExecutionStatus} (hends : ∀ e, (ends e).finished = true) :
    aggregateOf (((db.purged cutoff).ended ends).listByTask taskId) =
        aggregateOf ((db.ended ends).listByTask taskId) ↔
      ∀ e ∈ latest (db.rowsOf taskId), ∃ f ∈ latest (db.rowsOf taskId), ¬ Old cutoff f ∧
        (e.ended ends).status.severity ≤ (f.ended ends).status.severity := by
  have hlatest : latest ((db.purged cutoff).rowsOf taskId) =
      {e ∈ latest (db.rowsOf taskId) | ¬ Old cutoff e} := htimely.latest_purged h taskId
  have ho' : o ∈ (db.purged cutoff).rowsOf taskId := ⟨mem_purged.mpr ⟨ho.1.1, hkept⟩, ho.1.2⟩
  rw [h.aggregateOf_ended ⟨o, ho.1⟩, (h.purge htimely).aggregateOf_ended ⟨o, ho'⟩,
    documentedStatus_eq_iff]
  · simp only [endings, hlatest, Set.forall_mem_image, Set.exists_mem_image, Set.mem_sep_iff,
      and_assoc]
  · rintro _ ⟨e, -, rfl⟩
    exact finished_ended hends
  · rw [endings, hlatest]
    exact Set.image_mono (Set.sep_subset _ _)
  · rw [endings, hlatest]
    exact ⟨_, o, ⟨ho, hkept⟩, rfl⟩

theorem Inv.keepsOutcome_iff (h : Inv False db) (htimely : Timely clock db) {t : OpsTask}
    (ht : t ∈ db.tasks) (hopen : t.status.finished = false) :
    KeepsOutcome db (db.purged cutoff) t.id ↔ Covered cutoff (db.rowsOf t.id) := by
  rcases Set.eq_empty_or_nonempty (db.rowsOf t.id) with hempty | hne
  · refine iff_of_true (keepsOutcome_of_empty hempty) fun e he => ?_
    rw [hempty] at he
    exact absurd he.1 (Set.notMem_empty e)
  obtain ⟨o, ho, hstatus⟩ := h.exists_open ht hopen hne
  have hkept : ¬ Old cutoff o := not_old_of_open hstatus
  have holatest : o ∈ latest (db.rowsOf t.id) := by
    refine h.mem_latest ho fun hfailed => ?_
    rw [hfailed] at hstatus
    cases hstatus
  constructor
  · intro hkeeps e he hold
    -- with every open attempt cancelled, the outcome is that of the finished ones
    have hcancelled : ∀ e : OpsTaskExecution, (ExecutionStatus.cancelled).finished = true := fun _ => rfl
    obtain ⟨f, hf, hfkept, hle⟩ :=
      (h.aggregateOf_purged_iff htimely holatest hkept hcancelled).mp (hkeeps _ hcancelled) e he
    rw [ended_of_finished hold.1] at hle
    cases hfin : f.status.finished with
    | true =>
      rw [ended_of_finished hfin] at hle
      exact .inr ⟨f, hf, hfkept, hfin, hle⟩
    | false =>
      rw [status_ended_of_open hfin] at hle
      exact .inl (ExecutionStatus.eq_cancelled hold.1 (Nat.le_zero.mp hle))
  · intro hcovered ends hends
    refine (h.aggregateOf_purged_iff htimely holatest hkept hends).mpr fun e he => ?_
    by_cases hold : Old cutoff e
    · rcases hcovered e he hold with hcancelled | ⟨f, hf, hfkept, hfin, hle⟩
      · refine ⟨o, holatest, hkept, ?_⟩
        rw [ended_of_finished hold.1, hcancelled]
        exact Nat.zero_le _
      · refine ⟨f, hf, hfkept, ?_⟩
        rwa [ended_of_finished hold.1, ended_of_finished hfin]
    · exact ⟨e, he, hold, le_rfl⟩

/-! ## References -/

/-- Every row has its target, and the target is one of its task. -/
def Targeted (db : Db) : Prop :=
  ∀ e ∈ db.executions, ∃ g ∈ db.targets, g.id = e.targetId ∧ g.taskId = e.taskId

/-- A move other than a cleanup keeps every target, perhaps with another status. -/
theorem Move.target_persists {act : Act} (hm : Move croniter now db act db') (hact : act ≠ .purge)
    {g : OpsTaskTarget} (hg : g ∈ db.targets) :
    ∃ g' ∈ db'.targets, g'.id = g.id ∧ g'.taskId = g.taskId := by
  cases hm with
  | insert hinsert =>
    obtain ⟨action, serverIds, -, rfl, rfl⟩ := insertTask_created hinsert
    exact ⟨g, Table.mem_insertAll.mpr (.inl hg), rfl, rfl⟩
  | confirm | claim | archive | fire => exact ⟨g, hg, rfl, rfl⟩
  | cancel | report | expire =>
    rw [aggregateTaskStatus_eq]
    exact ⟨g, hg, rfl, rfl⟩
  | retry =>
    rw [aggregateTaskStatus_eq]
    refine ⟨_, List.mem_map.mpr ⟨g, hg, rfl⟩, ?_⟩
    split_ifs <;> exact ⟨rfl, rfl⟩
  | purge => exact absurd rfl hact

theorem Targeted.purge (h : Targeted db) : Targeted (db.purged cutoff) := by
  intro e he
  obtain ⟨g, hg, hid, htask⟩ := h e (mem_purged.mp he).1
  refine ⟨g, Table.mem_remove.mpr ⟨hg, decide_eq_false fun hmem => ?_⟩, hid, htask⟩
  -- a task with a row is not removed
  obtain ⟨t, ht, htid⟩ := List.mem_map.mp hmem
  have hold := of_decide_eq_true (Table.mem_select.mp ht).2
  exact hold.2.2.2 ⟨e, he, htask.symm.trans htid.symm⟩

theorem Targeted.move {act : Act} (h : Targeted db) (hm : Move croniter now db act db') :
    Targeted db' := by
  by_cases hact : act = .purge
  · subst hact
    cases hm with
    | purge cutoff => exact h.purge
  · intro r hr
    rcases hm.row_source hr with ⟨s, hs, hsame⟩ | ⟨g, hg, hof⟩
    · obtain ⟨g, hg, hid, htask⟩ := h s hs
      obtain ⟨g', hg', hid', htask'⟩ := hm.target_persists hact hg
      exact ⟨g', hg', (hid'.trans hid).trans hsame.targetId, (htask'.trans htask).trans hsame.taskId⟩
    · exact ⟨g, hg, hof.id, hof.taskId⟩

theorem targeted_after (servers : Table OpsServer) (services : Table OpsServerService)
    (es : List Event) : Targeted (after croniter servers services es) :=
  run_of_moves (fun _ _ _ _ h hm => Targeted.move h hm) (fun e he => absurd he (Table.notMem_empty e)) es

/-- No row that is gone was the task, the target or the execution of a row that stays. -/
structure NothingDangles (db db' : Db) : Prop where
  tasks : ∀ t ∈ db.tasks, t ∉ db'.tasks →
    (∀ g ∈ db'.targets, g.taskId ≠ t.id) ∧ ∀ e ∈ db'.executions, e.taskId ≠ t.id
  targets : ∀ g ∈ db.targets, g ∉ db'.targets → ∀ e ∈ db'.executions, e.targetId ≠ g.id
  executions : ∀ e ∈ db.executions, e ∉ db'.executions → ∀ l ∈ db'.logs, l.executionId ≠ e.id

theorem Inv.nothingDangles (h : Inv False db) (htimely : Timely clock db) (htargeted : Targeted db) :
    NothingDangles db (db.purged cutoff) where
  tasks := by
    intro t ht hgone
    constructor
    · intro g hg hid
      -- targets go with their task
      obtain ⟨-, hstays⟩ := Table.mem_remove.mp hg
      rw [hid] at hstays
      exact hgone (Table.mem_remove.mpr ⟨ht, hstays⟩)
    · intro e he hid
      obtain ⟨t', ht', hid', -⟩ := (h.toChains.purge htimely).task_of e he
      have hmem := (of_mem_deleteFinishedTasksBefore ht').1
      obtain rfl : t' = t := Table.eq_of_key_eq hmem ht (hid'.trans hid)
      exact hgone ht'
  targets := by
    intro g hg hgone e he hid
    obtain ⟨g', hg', hid', -⟩ := htargeted.purge e he
    obtain rfl : g' = g := Table.eq_of_key_eq (Table.mem_remove.mp hg').1 hg (hid'.trans hid)
    exact hgone hg'
  executions := by
    intro e he hgone l hl hid
    obtain ⟨-, hstays⟩ := Table.mem_remove.mp hl
    rw [hid] at hstays
    exact hgone (Table.mem_remove.mpr ⟨he, hstays⟩)

/-- A cleanup keeps the outcome of the open tasks exactly when it removes no latest attempt that
decides more than what stays; it never removes a row that is referenced. -/
theorem cleanup_keeps_outcomes (croniter : CronIter) (servers : Table OpsServer)
    (services : Table OpsServerService) (es : List Event) (now : Time) (days : ℤ)
    (hes : Chronological (es ++ [⟨now, .cleanupHistory days⟩])) :
    ((∀ t ∈ (after croniter servers services es).tasks, t.status.finished = false →
        KeepsOutcome (after croniter servers services es)
          (cleanupHistory (after croniter servers services es) now days).1 t.id) ∧
      NothingDangles (after croniter servers services es)
        (cleanupHistory (after croniter servers services es) now days).1) ↔
    ∀ t ∈ (after croniter servers services es).tasks, t.status.finished = false →
      Covered (now - Clock.days days) ((after croniter servers services es).rowsOf t.id) := by
  have hpre : Chronological es := (List.pairwise_append.mp hes).1
  have hlate : ∀ ev ∈ es, ev.now ≤ now :=
    fun ev hev => (List.pairwise_append.mp hes).2.2 ev hev _ (List.mem_singleton_self _)
  obtain ⟨hinv, htimely⟩ := timed_inv_after croniter servers services hpre
  have htimely := htimely now hlate
  constructor
  · rintro ⟨hkeeps, -⟩ t ht hopen
    exact (hinv.keepsOutcome_iff htimely ht hopen).mp (hkeeps t ht hopen)
  · intro hcovered
    refine ⟨fun t ht hopen => (hinv.keepsOutcome_iff htimely ht hopen).mpr (hcovered t ht hopen), ?_⟩
    exact hinv.nothingDangles htimely (targeted_after servers services es)

section Runs
open Sample

/-- A check on two servers that fails for good on the first one. -/
def halfFailed : List Event :=
  halfClaimed ++ [⟨2000, .reportResult 1 ⟨1, "FAILED", none, none, some "permission denied",
    some "PERMISSION_DENIED", none⟩⟩]

/-- Within the retention period the failure stays. -/
theorem cleanup_keeps_outcomes_early :
    (∀ t ∈ (after everyMinute pairServers services halfFailed).tasks, t.status.finished = false →
      KeepsOutcome (after everyMinute pairServers services halfFailed)
        (cleanupHistory (after everyMinute pairServers services halfFailed) 60000 30).1 t.id) ∧
    NothingDangles (after everyMinute pairServers services halfFailed)
      (cleanupHistory (after everyMinute pairServers services halfFailed) 60000 30).1 := by
  refine (cleanup_keeps_outcomes everyMinute pairServers services halfFailed 60000 30
    (by decide)).mpr ?_
  rintro t - - e ⟨⟨he, -⟩, -⟩ ⟨-, a, ha, hlt⟩
  have hall : ∀ e ∈ (after everyMinute pairServers services halfFailed).executions,
      ∀ a ∈ e.finishedAt, ¬ a < 60000 - Clock.days 30 := by decide
  exact absurd hlt (hall e he a ha)

/-- After it the failure is gone, and the check ends as a success. -/
theorem failed_check_forgotten :
    ¬ ∀ (croniter : CronIter) (servers : Table OpsServer) (services : Table OpsServerService)
      (es : List Event) (now : Time) (days : ℤ),
      Chronological (es ++ [⟨now, .cleanupHistory days⟩]) →
      (∀ t ∈ (after croniter servers services es).tasks, t.status.finished = false →
        KeepsOutcome (after croniter servers services es)
          (cleanupHistory (after croniter servers services es) now days).1 t.id) ∧
      NothingDangles (after croniter servers services es)
        (cleanupHistory (after croniter servers services es) now days).1 := by
  intro h
  obtain ⟨hkeeps, -⟩ := h everyMinute pairServers services halfFailed (Clock.days 31) 30 (by decide)
  obtain ⟨t, ht, hid, hopen⟩ : ∃ t ∈ (after everyMinute pairServers services halfFailed).tasks,
      t.id = 1 ∧ t.status.finished = false := by decide
  have hsame := hkeeps t ht hopen (fun _ => .success) fun _ => rfl
  rw [hid] at hsame
  have hfailed : aggregateOf (((after everyMinute pairServers services halfFailed).ended
      fun _ => .success).listByTask 1) = .failed := by decide
  have hsuccess : aggregateOf (((cleanupHistory (after everyMinute pairServers services halfFailed)
      (Clock.days 31) 30).1.ended fun _ => .success).listByTask 1) = .success := by decide
  rw [hfailed, hsuccess] at hsame
  cases hsame

end Runs

end OpsMonitor.Task
