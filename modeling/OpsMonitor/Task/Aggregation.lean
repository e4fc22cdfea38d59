import OpsMonitor.Task.Calls

/-! The aggregate of a list of executions. The query behind it promises no order, and the
attempts that were superseded do not count. -/

namespace OpsMonitor.Task
open Library

/-- The status that `_aggregate_task_status` gives a task with these executions. -/
def aggregateOf (executions : List OpsTaskExecution) : TaskStatus :=
  if executions = [] then .pending
  else aggregateStatus ((latestAttempts executions).map (·.status))

theorem aggregated_eq_aggregateOf (db : Db) (taskId : ℕ) :
    db.aggregated taskId = aggregateOf (db.listByTask taskId) := rfl

/-- The unique key of the table: no two rows have both the target and the attempt in common. -/
def Distinct (executions : List OpsTaskExecution) : Prop :=
  (executions.map fun e => (e.targetId, e.attempt)).Nodup

/-- The rows of `rows`, and others that a later attempt on their target supersedes. -/
def Extends (rows more : List OpsTaskExecution) : Prop :=
  (∀ e ∈ rows, e ∈ more) ∧
    ∀ e ∈ more, e ∉ rows → ∃ f ∈ more, f.targetId = e.targetId ∧ e.attempt < f.attempt

variable {rows more : List OpsTaskExecution} {e : OpsTaskExecution}

theorem Distinct.eq (h : Distinct rows) : ∀ e ∈ rows, ∀ f ∈ rows,
    e.targetId = f.targetId → e.attempt = f.attempt → e = f := by
  intro e he f hf htarget hattempt
  exact List.inj_on_of_nodup_map h he hf (Prod.ext htarget hattempt)

theorem Distinct.perm (h : Distinct rows) (hperm : rows.Perm more) : Distinct more :=
  (hperm.map _).nodup_iff.mp h

theorem aggregateOf_eq (h : Distinct rows) (hne : rows ≠ []) :
    aggregateOf rows = documentedAggregate {x | x ∈ rows} := by
  have hlatest : latestAttempts rows ≠ [] := by
    obtain ⟨e, he⟩ := List.exists_mem_of_ne_nil _ hne
    obtain ⟨w, hw, -⟩ := (winners_latestAttempts rows).beats e he
    exact List.ne_nil_of_mem hw
  have hset : {s | s ∈ (latestAttempts rows).map (·.status)} =
      OpsTaskExecution.status '' latest {x | x ∈ rows} := by
    ext s
    simp only [Set.mem_ofPred_eq, List.mem_map, Set.mem_image, mem_latestAttempts h.eq]
  rw [aggregateOf, if_neg hne, aggregateStatus_eq (by simpa using hlatest), hset]
  rfl

/-- Two lists with the same latest attempts have the same aggregate. -/
theorem aggregateOf_congr (h : Distinct rows) (h' : Distinct more) (hnil : rows = [] ↔ more = [])
    (hlatest : latest {x | x ∈ rows} = latest {x | x ∈ more}) :
    aggregateOf rows = aggregateOf more := by
  by_cases hne : rows = []
  · rw [hne, hnil.mp hne]
  · rw [aggregateOf_eq h hne, aggregateOf_eq h' (mt hnil.mpr hne), documentedAggregate, hlatest]
    rfl

/-- Above every row stands a latest attempt on its target. -/
theorem exists_latest (h : Distinct rows) (he : e ∈ rows) :
    ∃ f ∈ latest {x | x ∈ rows}, f.targetId = e.targetId ∧ e.attempt ≤ f.attempt := by
  obtain ⟨f, hf, htarget, hle⟩ := (winners_latestAttempts rows).beats e he
  exact ⟨f, (mem_latestAttempts h.eq).mp hf, htarget, hle⟩

/-- A latest attempt is not among the rows that were added. -/
theorem Extends.mem_of_latest (hext : Extends rows more) (he : e ∈ latest {x | x ∈ more}) :
    e ∈ rows := by
  by_contra hnew
  obtain ⟨f, hf, htarget, hlt⟩ := hext.2 e he.1 hnew
  exact hlt.not_ge (he.2 f hf htarget)

theorem Extends.latest_eq (hext : Extends rows more) (h : Distinct more) :
    latest {x | x ∈ rows} = latest {x | x ∈ more} := by
  ext e
  constructor
  · rintro ⟨he, hmax⟩
    refine ⟨hext.1 e he, fun f hf htarget => ?_⟩
    obtain ⟨g, hg, hgtarget, hle⟩ := exists_latest h hf
    exact hle.trans (hmax g (hext.mem_of_latest hg) (hgtarget.trans htarget))
  · intro he
    exact ⟨hext.mem_of_latest he, fun f hf => he.2 f (hext.1 f hf)⟩

theorem Extends.aggregateOf_eq (hext : Extends rows more) (h : Distinct rows) (h' : Distinct more) :
    aggregateOf rows = aggregateOf more := by
  refine aggregateOf_congr h h' ?_ (hext.latest_eq h')
  constructor
  · rintro rfl
    refine List.eq_nil_iff_forall_not_mem.mpr fun e he => ?_
    obtain ⟨f, hf, -⟩ := exists_latest h' he
    exact absurd (hext.mem_of_latest hf) List.not_mem_nil
  · rintro rfl
    exact List.eq_nil_iff_forall_not_mem.mpr fun e he => absurd (hext.1 e he) List.not_mem_nil

/-- An open attempt keeps the task open. -/
theorem documentedStatus_open {statuses : Set ExecutionStatus} {s : ExecutionStatus}
    (hs : s ∈ statuses) (hopen : s.finished = false) : (documentedStatus statuses).finished = false := by
  unfold documentedStatus
  split_ifs with hretrying hactive hdead hfailed hcancelled
  · rfl
  · rfl
  -- every branch below is taken only without an open attempt
  all_goals
    cases s with
    | retrying => exact absurd hs hretrying
    | pending => exact absurd (.inl hs) hactive
    | running => exact absurd (.inr hs) hactive
    | success | failed | timeout | cancelled | dead => cases hopen

/-- The aggregate does not depend on the order of the rows or on the attempts that a later one
supersedes, and it is not final while a latest attempt is open. -/
theorem aggregateOf_of_latest (rows : List OpsTaskExecution) (h : Distinct rows) :
    (∀ more, rows.Perm more → aggregateOf more = aggregateOf rows) ∧
      (∀ more, Distinct more → Extends rows more ∨ Extends more rows →
        aggregateOf more = aggregateOf rows) ∧
      ∀ e ∈ latest {x | x ∈ rows}, e.status.finished = false →
        (aggregateOf rows).finished = false := by
  refine ⟨fun more hperm => ?_, fun more h' hext => ?_, fun e he hopen => ?_⟩
  · have hset : {x | x ∈ more} = {x | x ∈ rows} := Set.ext fun x => hperm.symm.mem_iff
    have hnil : more = [] ↔ rows = [] := ⟨fun hm => (hm ▸ hperm).eq_nil, fun hr => (hr ▸ hperm).nil_eq.symm⟩
    exact aggregateOf_congr (h.perm hperm) h hnil (by rw [hset])
  · rcases hext with hext | hext
    · exact (hext.aggregateOf_eq h h').symm
    · exact hext.aggregateOf_eq h' h
  · rw [Task.aggregateOf_eq h (List.ne_nil_of_mem he.1)]
    exact documentedStatus_open ⟨e, he, rfl⟩ hopen

/-- A first attempt that failed and the second one, which is running. -/
theorem aggregateOf_of_latest_retried :
    let failed := { OpsTaskExecution.initial 1 1 1 1 with status := .failed }
    let running := { OpsTaskExecution.initial 1 1 1 2 with status := .running }
    aggregateOf [running, failed] = aggregateOf [failed, running] :=
  (aggregateOf_of_latest [{ OpsTaskExecution.initial 1 1 1 1 with status := .failed },
    { OpsTaskExecution.initial 1 1 1 2 with status := .running }]
    (by simp [Distinct, OpsTaskExecution.initial])).1 _ (.swap _ _ _)

end OpsMonitor.Task
