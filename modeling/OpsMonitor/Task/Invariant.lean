import OpsMonitor.Task.Calls

/-! The invariants of the engine: the shape of the attempt chains, how the status of a task
and its rows go together, and the order of the times in a chain. -/

namespace OpsMonitor.Task
open Library

/-- The attempts on one target of one task. -/
def SameChain (e f : OpsTaskExecution) : Prop := e.taskId = f.taskId ∧ e.targetId = f.targetId

structure Chains (db : Db) : Prop where
  task_of : ∀ e ∈ db.executions, ∃ t ∈ db.tasks, t.id = e.taskId ∧ e.attempt ≤ t.maxAttempts
  has_target : ∀ t ∈ db.tasks, ∃ g ∈ db.targets, g.taskId = t.id
  budget : ∀ t ∈ db.tasks, 1 ≤ t.maxAttempts
  positive : ∀ e ∈ db.executions, 1 ≤ e.attempt
  unique : ∀ e ∈ db.executions, ∀ f ∈ db.executions,
    SameChain e f → e.attempt = f.attempt → e = f
  superseded : ∀ e ∈ db.executions, ∀ f ∈ db.executions,
    SameChain e f → e.attempt < f.attempt → e.status = .failed
  gapless : ∀ e ∈ db.executions, ∀ f ∈ db.executions, SameChain e f →
    ∀ k, e.attempt < k → k < f.attempt → ∃ g ∈ db.executions, SameChain e g ∧ g.attempt = k

/-- How the status of a task goes with its rows. While no row is ever removed (`kept`), a
finished task still shows the aggregate of its rows. -/
inductive StatusOk (kept : Prop) (rows : Set OpsTaskExecution) (t : OpsTask) : Prop
  | waiting (hs : t.status = .created ∨ t.status = .pending)
      (hrows : ∀ e ∈ rows, e.status = .pending ∧ e.attempt = 1)
      (hcron : t.scheduleType = "CRON" → rows = ∅)
  | running (hs : t.status = .running)
      (hactive : ∃ e ∈ rows, e.status = .pending ∨ e.status = .running)
      (hrows : ∀ e ∈ rows, e.status ≠ .retrying)
  | retrying (hs : t.status = .retrying) (hrow : ∃ e ∈ rows, e.status = .retrying)
  | closed (hs : t.status.finished = true) (hrows : ∀ e ∈ rows, e.status.finished = true)
      (hkept : kept → rows.Nonempty ∧ t.status = documentedAggregate rows)

structure Inv (kept : Prop) (db : Db) : Prop extends Chains db where
  status : ∀ t ∈ db.tasks, StatusOk kept (db.rowsOf t.id) t

/-- The times in the rows are not ahead of the clock, and increase along a chain. -/
structure Timely (clock : Time) (db : Db) : Prop where
  finished : ∀ e ∈ db.executions, e.status.finished = true → ∃ a ∈ e.finishedAt, a ≤ clock
  ordered : ∀ e ∈ db.executions, ∀ f ∈ db.executions, SameChain e f → e.attempt < f.attempt →
    f.status.finished = true → ∀ a ∈ e.finishedAt, ∀ b ∈ f.finishedAt, a ≤ b
  retry : ∀ e ∈ db.executions, e.status = .retrying →
    ∃ r ∈ e.nextRetryAt, r ≤ clock + Clock.seconds (Retry.backoffSeconds e.attempt)

theorem SameChain.symm {e f : OpsTaskExecution} (h : SameChain e f) : SameChain f e :=
  ⟨h.1.symm, h.2.symm⟩

variable {croniter : CronIter} {now clock : Time} {kept : Prop} {db db' : Db}

/-- A row that is not finished is the last one of its chain. -/
theorem Chains.attempt_le_of_open (h : Chains db) {e f : OpsTaskExecution}
    (he : e ∈ db.executions) (hf : f ∈ db.executions) (hchain : SameChain e f)
    (hopen : e.status.finished = false) : f.attempt ≤ e.attempt := by
  by_contra hlt
  have hfailed := h.superseded e he f hf hchain (not_le.mp hlt)
  rw [hfailed] at hopen
  cases hopen

/-! ## Status after an aggregation -/

theorem Chains.mem_latest (h : Chains db) {taskId : ℕ} {e : OpsTaskExecution}
    (he : e ∈ db.rowsOf taskId) (hne : e.status ≠ .failed) : e ∈ latest (db.rowsOf taskId) := by
  refine ⟨he, fun f hf htarget => ?_⟩
  by_contra hlt
  exact hne (h.superseded e he.1 f hf.1 ⟨he.2.trans hf.2.symm, htarget.symm⟩ (not_le.mp hlt))

theorem Chains.aggregated_eq (h : Chains db) {taskId : ℕ} (hne : (db.rowsOf taskId).Nonempty) :
    db.aggregated taskId = documentedAggregate (db.rowsOf taskId) := by
  obtain ⟨e, he⟩ := hne
  have hlist : db.listByTask taskId ≠ [] := List.ne_nil_of_mem (Db.mem_listByTask.mpr he)
  have hrows : {x | x ∈ db.listByTask taskId} = db.rowsOf taskId :=
    Set.ext fun _ => Db.mem_listByTask
  have hlatest : ∀ {x}, x ∈ latestAttempts (db.listByTask taskId) ↔
      x ∈ latest (db.rowsOf taskId) := by
    intro x
    rw [mem_latestAttempts, hrows]
    intro e he f hf htarget hattempt
    have he := Db.mem_listByTask.mp he
    have hf := Db.mem_listByTask.mp hf
    exact h.unique e he.1 f hf.1 ⟨he.2.trans hf.2.symm, htarget⟩ hattempt
  have hstatuses : {s | s ∈ (latestAttempts (db.listByTask taskId)).map (·.status)} =
      OpsTaskExecution.status '' latest (db.rowsOf taskId) := by
    ext s
    simp [hlatest]
  have hmap : (latestAttempts (db.listByTask taskId)).map (·.status) ≠ [] := by
    obtain ⟨x, hx, -⟩ := (winners_latestAttempts _).beats e (Db.mem_listByTask.mpr he)
    exact List.ne_nil_of_mem (List.mem_map_of_mem hx)
  rw [Db.aggregated, if_neg hlist, aggregateStatus_eq hmap, hstatuses, documentedAggregate]

theorem Chains.statusOk_aggregate (h : Chains db) {taskId : ℕ} {t : OpsTask}
    (hne : (db.rowsOf taskId).Nonempty) (ht : t.status = db.aggregated taskId) :
    StatusOk kept (db.rowsOf taskId) t := by
  have hopen : ∀ e ∈ db.rowsOf taskId, ∀ s : ExecutionStatus, s.finished = false → e.status = s →
      s ∈ OpsTaskExecution.status '' latest (db.rowsOf taskId) := by
    rintro e he s hs rfl
    refine ⟨e, h.mem_latest he ?_, rfl⟩
    intro hfailed
    rw [hfailed] at hs
    cases hs
  have hdoc := ht.trans (h.aggregated_eq hne)
  by_cases hretry : ∃ e ∈ db.rowsOf taskId, e.status = .retrying
  · obtain ⟨e, he, hs⟩ := hretry
    refine .retrying ?_ ⟨e, he, hs⟩
    rw [hdoc, documentedAggregate, documentedStatus, if_pos (hopen e he _ rfl hs)]
  · have hno : ∀ e ∈ db.rowsOf taskId, e.status ≠ .retrying := fun e he hs => hretry ⟨e, he, hs⟩
    have hretry' : .retrying ∉ OpsTaskExecution.status '' latest (db.rowsOf taskId) :=
      fun ⟨e, he, hs⟩ => hno e he.1 hs
    by_cases hactive : ∃ e ∈ db.rowsOf taskId, e.status = .pending ∨ e.status = .running
    · obtain ⟨e, he, hs⟩ := hactive
      refine .running ?_ ⟨e, he, hs⟩ hno
      rw [hdoc, documentedAggregate, documentedStatus, if_neg hretry',
        if_pos (hs.imp (hopen e he _ rfl) (hopen e he _ rfl))]
    · have hactive' : ¬ (.pending ∈ OpsTaskExecution.status '' latest (db.rowsOf taskId) ∨
          .running ∈ OpsTaskExecution.status '' latest (db.rowsOf taskId)) := by
        rintro (⟨e, he, hs⟩ | ⟨e, he, hs⟩)
        · exact hactive ⟨e, he.1, .inl hs⟩
        · exact hactive ⟨e, he.1, .inr hs⟩
      refine .closed ?_ ?_ fun _ => ⟨hne, hdoc⟩
      · rw [hdoc, documentedAggregate, documentedStatus, if_neg hretry', if_neg hactive']
        split_ifs <;> rfl
      · intro e he
        cases hs : e.status with
        | pending => exact absurd ⟨e, he, .inl hs⟩ hactive
        | running => exact absurd ⟨e, he, .inr hs⟩ hactive
        | retrying => exact absurd hs (hno e he)
        | success | failed | timeout | cancelled | dead => rfl

/-! ## Writes in place -/

/-- Every row and every task of `db'` is one of `db` after a write; nothing is added. -/
structure Rewrites (now : Time) (db db' : Db) : Prop where
  rows : ∃ edit : OpsTaskExecution → OpsTaskExecution,
    (∀ r, r ∈ db'.executions ↔ ∃ s ∈ db.executions, edit s = r) ∧
    ∀ s ∈ db.executions, edit s = s ∨ ∃ t, RowStep now t s (edit s)
  tasks : ∃ upd : OpsTask → OpsTask,
    (∀ r, r ∈ db'.tasks ↔ ∃ s ∈ db.tasks, upd s = r) ∧ ∀ s, SameTask s (upd s)
  targets : ∀ g ∈ db.targets, ∃ g' ∈ db'.targets, g'.taskId = g.taskId

theorem rewrites_withTask {id : ℕ} {f : OpsTask → OpsTask}
    {hf : ∀ t, Keyed.key (f t) = Keyed.key t} (hsame : ∀ t, SameTask t (f t)) :
    Rewrites now db (db.withTask id f hf) where
  rows := ⟨fun s => s, by simp, fun s _ => .inl rfl⟩
  tasks := ⟨fun t => if t.id = id then f t else t, fun _ => Db.mem_withTask, fun t => by
    dsimp only
    split_ifs
    · exact hsame t
    · exact .rfl' t⟩
  targets := fun g hg => ⟨g, hg, rfl⟩

theorem rewrites_aggregate {taskId : ℕ} : Rewrites now db (aggregateTaskStatus db now taskId) := by
  rw [aggregateTaskStatus_eq]
  exact rewrites_withTask fun _ => ⟨rfl, rfl, rfl, rfl, rfl, rfl, rfl⟩

theorem rewrites_resetTarget {id : ℕ} : Rewrites now db (db.resetTarget id) where
  rows := ⟨fun s => s, by simp, fun s _ => .inl rfl⟩
  tasks := ⟨fun t => t, by simp, .rfl'⟩
  targets := by
    intro g hg
    refine ⟨if g.id = id then { g with targetStatus := .pending } else g,
      List.mem_map.mpr ⟨g, hg, rfl⟩, ?_⟩
    split_ifs <;> rfl

theorem RowEdit.rewrites {t : OpsTask} (w : RowEdit db now t) (logs : Table OpsTaskLog) :
    Rewrites now db (w.apply logs) where
  rows := by
    refine ⟨w.edit, fun _ => List.mem_map, fun s hs => ?_⟩
    by_cases h : s.taskId = t.id
    · exact .inr ⟨t, w.step s ⟨hs, h⟩⟩
    · exact .inl (w.other s hs h)
  tasks := ⟨fun t => t, by simp [RowEdit.apply], .rfl'⟩
  targets := fun g hg => ⟨g, hg, rfl⟩

section Rewrites
variable {edit : OpsTaskExecution → OpsTaskExecution}
  (hedit : ∀ s ∈ db.executions, edit s = s ∨ ∃ t, RowStep now t s (edit s))
  {s s' : OpsTaskExecution}
include hedit

theorem sameRow_of_edit (hs : s ∈ db.executions) : SameRow s (edit s) := by
  rcases hedit s hs with h | ⟨t, h⟩
  · rw [h]
    exact .rfl' s
  · exact h.sameRow

theorem edit_eq_of_finished (hs : s ∈ db.executions) (hfin : s.status.finished = true) :
    edit s = s := by
  rcases hedit s hs with h | ⟨t, h⟩
  · exact h
  · exact h.eq_or_open.resolve_right (by simp [hfin])

theorem sameChain_of_edit (hs : s ∈ db.executions) (hs' : s' ∈ db.executions) :
    SameChain (edit s) (edit s') ↔ SameChain s s' := by
  have h := sameRow_of_edit hedit hs
  have h' := sameRow_of_edit hedit hs'
  rw [SameChain, SameChain, h.taskId, h'.taskId, h.targetId, h'.targetId]

end Rewrites

theorem Chains.rewrites (h : Chains db) (hw : Rewrites now db db') : Chains db' := by
  obtain ⟨⟨edit, hrows, hedit⟩, ⟨upd, htasks, hupd⟩, htargets⟩ := hw
  refine ⟨?_, ?_, ?_, ?_, ?_, ?_, ?_⟩
  · intro r hr
    obtain ⟨s, hs, rfl⟩ := (hrows r).mp hr
    obtain ⟨t, ht, hid, hle⟩ := h.task_of s hs
    have hrow := sameRow_of_edit hedit hs
    refine ⟨upd t, (htasks _).mpr ⟨t, ht, rfl⟩, ?_, ?_⟩
    · rw [(hupd t).id, hrow.taskId, hid]
    · rwa [(hupd t).maxAttempts, hrow.attempt]
  · intro t' ht'
    obtain ⟨t, ht, rfl⟩ := (htasks t').mp ht'
    obtain ⟨g, hg, hid⟩ := h.has_target t ht
    obtain ⟨g', hg', hsame⟩ := htargets g hg
    exact ⟨g', hg', by rw [hsame, hid, (hupd t).id]⟩
  · intro t' ht'
    obtain ⟨t, ht, rfl⟩ := (htasks t').mp ht'
    rw [(hupd t).maxAttempts]
    exact h.budget t ht
  · intro r hr
    obtain ⟨s, hs, rfl⟩ := (hrows r).mp hr
    rw [(sameRow_of_edit hedit hs).attempt]
    exact h.positive s hs
  · intro r hr r' hr' hchain hattempt
    obtain ⟨s, hs, rfl⟩ := (hrows r).mp hr
    obtain ⟨s', hs', rfl⟩ := (hrows r').mp hr'
    rw [(sameRow_of_edit hedit hs).attempt, (sameRow_of_edit hedit hs').attempt] at hattempt
    rw [h.unique s hs s' hs' ((sameChain_of_edit hedit hs hs').mp hchain) hattempt]
  · intro r hr r' hr' hchain hlt
    obtain ⟨s, hs, rfl⟩ := (hrows r).mp hr
    obtain ⟨s', hs', rfl⟩ := (hrows r').mp hr'
    rw [(sameRow_of_edit hedit hs).attempt, (sameRow_of_edit hedit hs').attempt] at hlt
    have hfailed := h.superseded s hs s' hs' ((sameChain_of_edit hedit hs hs').mp hchain) hlt
    rwa [edit_eq_of_finished hedit hs (by rw [hfailed]; rfl)]
  · intro r hr r' hr' hchain k hk hk'
    obtain ⟨s, hs, rfl⟩ := (hrows r).mp hr
    obtain ⟨s', hs', rfl⟩ := (hrows r').mp hr'
    rw [(sameRow_of_edit hedit hs).attempt] at hk
    rw [(sameRow_of_edit hedit hs').attempt] at hk'
    obtain ⟨g, hg, hchain', rfl⟩ :=
      h.gapless s hs s' hs' ((sameChain_of_edit hedit hs hs').mp hchain) k hk hk'
    exact ⟨edit g, (hrows _).mpr ⟨g, hg, rfl⟩, (sameChain_of_edit hedit hs hg).mpr hchain',
      (sameRow_of_edit hedit hg).attempt⟩

theorem Timely.rewrites (h : Timely clock db) (hdb : Chains db) (hnow : clock ≤ now)
    (hw : Rewrites now db db') : Timely now db' := by
  obtain ⟨⟨edit, hrows, hedit⟩, -, -⟩ := hw
  have hfinished : ∀ s ∈ db.executions, (edit s).status.finished = true →
      edit s = s ∨ (edit s).finishedAt = some now := by
    intro s hs hfin
    rcases hedit s hs with heq | ⟨t, hstep⟩
    · exact .inl heq
    · exact hstep.finishedAt_of_finished hfin
  refine ⟨?_, ?_, ?_⟩
  · intro r hr hfin
    obtain ⟨s, hs, rfl⟩ := (hrows r).mp hr
    rcases hfinished s hs hfin with heq | hat
    · rw [heq] at hfin ⊢
      obtain ⟨a, ha, hle⟩ := h.finished s hs hfin
      exact ⟨a, ha, hle.trans hnow⟩
    · exact ⟨now, hat, le_rfl⟩
  · intro r hr r' hr' hchain hlt hfin a ha b hb
    obtain ⟨s, hs, rfl⟩ := (hrows r).mp hr
    obtain ⟨s', hs', rfl⟩ := (hrows r').mp hr'
    have hchain := (sameChain_of_edit hedit hs hs').mp hchain
    rw [(sameRow_of_edit hedit hs).attempt, (sameRow_of_edit hedit hs').attempt] at hlt
    have hsfin : s.status.finished = true := by
      rw [hdb.superseded s hs s' hs' hchain hlt]
      rfl
    rw [edit_eq_of_finished hedit hs hsfin] at ha
    rcases hfinished s' hs' hfin with heq | hat
    · rw [heq] at hfin hb
      exact h.ordered s hs s' hs' hchain hlt hfin a ha b hb
    · obtain ⟨a', ha', hle⟩ := h.finished s hs hsfin
      obtain rfl := Option.mem_unique ha ha'
      obtain rfl : now = b := Option.mem_unique hat hb
      exact hle.trans hnow
  · intro r hr hretry
    obtain ⟨s, hs, rfl⟩ := (hrows r).mp hr
    rw [(sameRow_of_edit hedit hs).attempt]
    have hold : edit s = s → ∃ r ∈ (edit s).nextRetryAt,
        r ≤ now + Clock.seconds (Retry.backoffSeconds s.attempt) := by
      intro heq
      rw [heq] at hretry ⊢
      obtain ⟨r, hr, hle⟩ := h.retry s hs hretry
      exact ⟨r, hr, hle.trans (by gcongr)⟩
    rcases hedit s hs with heq | ⟨t, hstep⟩
    · exact hold heq
    · rcases hstep.retrying hretry with heq | ⟨-, hat⟩
      · exact hold heq
      · exact ⟨_, hat, le_rfl⟩

end OpsMonitor.Task
