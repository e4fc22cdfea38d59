import OpsMonitor.Task.Service

/-! The documented status of a task (`docs/modules/automation.md`), as a function of the set
of its execution rows, and that `_aggregate_task_status` computes it. -/

namespace OpsMonitor.Task
open Library

/-- The rows with the highest attempt number of their target. -/
def latest (rows : Set OpsTaskExecution) : Set OpsTaskExecution :=
  {e ∈ rows | ∀ f ∈ rows, f.targetId = e.targetId → f.attempt ≤ e.attempt}

open Classical in
/-- The documented rule, on the set of statuses of the latest attempts. -/
noncomputable def documentedStatus (statuses : Set ExecutionStatus) : TaskStatus :=
  if .retrying ∈ statuses then .retrying
  else if .pending ∈ statuses ∨ .running ∈ statuses then .running
  else if .dead ∈ statuses then .dead
  else if .failed ∈ statuses ∨ .timeout ∈ statuses then .failed
  else if ∀ s ∈ statuses, s = .cancelled then .cancelled
  else .success

noncomputable def documentedAggregate (rows : Set OpsTaskExecution) : TaskStatus :=
  documentedStatus (OpsTaskExecution.status '' latest rows)

/-- The executions of a task. -/
def Db.rowsOf (db : Db) (taskId : ℕ) : Set OpsTaskExecution :=
  {e | e ∈ db.executions ∧ e.taskId = taskId}

theorem Db.mem_rowsOf {db : Db} {taskId : ℕ} {e : OpsTaskExecution} :
    e ∈ db.rowsOf taskId ↔ e ∈ db.executions ∧ e.taskId = taskId := Iff.rfl

theorem Db.mem_listByTask {db : Db} {taskId : ℕ} {e : OpsTaskExecution} :
    e ∈ db.listByTask taskId ↔ e ∈ db.rowsOf taskId := by
  simp [Db.listByTask, Db.mem_rowsOf]

/-! ## The dictionary of latest attempts -/

/-- What the dictionary holds after the rows `seen`: one of them for each target, and no
row of that target has a higher attempt. -/
structure Winners (seen winners : List OpsTaskExecution) : Prop where
  sub : ∀ e ∈ winners, e ∈ seen
  one : (winners.map (·.targetId)).Nodup
  beats : ∀ f ∈ seen, ∃ e ∈ winners, e.targetId = f.targetId ∧ f.attempt ≤ e.attempt

theorem Winners.append {seen winners : List OpsTaskExecution} (h : Winners seen winners)
    {x : OpsTaskExecution} (hx : ∀ e ∈ winners, e.targetId ≠ x.targetId) :
    Winners (seen ++ [x]) (winners ++ [x]) where
  sub := by
    intro e he
    rcases List.mem_append.mp he with he | he
    · exact List.mem_append_left _ (h.sub e he)
    · exact List.mem_append_right _ he
  one := by
    rw [List.map_append, List.nodup_append]
    refine ⟨h.one, List.nodup_singleton _, ?_⟩
    intro a ha b hb
    obtain ⟨e, he, rfl⟩ := List.mem_map.mp ha
    obtain rfl : b = x.targetId := by simpa using hb
    exact hx e he
  beats := by
    intro f hf
    rcases List.mem_append.mp hf with hf | hf
    · obtain ⟨e, he, heq, hle⟩ := h.beats f hf
      exact ⟨e, List.mem_append_left _ he, heq, hle⟩
    · obtain rfl := List.mem_singleton.mp hf
      exact ⟨f, by simp, rfl, le_rfl⟩

theorem Winners.replace {seen winners : List OpsTaskExecution} (h : Winners seen winners)
    {x current : OpsTaskExecution} (hc : current ∈ winners)
    (ht : current.targetId = x.targetId) (hlt : current.attempt < x.attempt) :
    Winners (seen ++ [x])
      (winners.map fun e => if e.targetId = x.targetId then x else e) where
  sub := by
    intro e he
    obtain ⟨w, hw, rfl⟩ := List.mem_map.mp he
    split_ifs
    · simp
    · exact List.mem_append_left _ (h.sub w hw)
  one := by
    have hsame : (winners.map fun e => if e.targetId = x.targetId then x else e).map
        (·.targetId) = winners.map (·.targetId) := by
      rw [List.map_map]
      refine List.map_congr_left fun e _ => ?_
      by_cases he : e.targetId = x.targetId <;> simp [he]
    rw [hsame]
    exact h.one
  beats := by
    have hx : x ∈ winners.map fun e => if e.targetId = x.targetId then x else e :=
      List.mem_map.mpr ⟨current, hc, if_pos ht⟩
    intro f hf
    rcases List.mem_append.mp hf with hf | hf
    · obtain ⟨e, he, heq, hle⟩ := h.beats f hf
      by_cases hex : e.targetId = x.targetId
      · have hec : e = current :=
          List.inj_on_of_nodup_map h.one he hc (hex.trans ht.symm)
        exact ⟨x, hx, hex.symm.trans heq, hle.trans (hec ▸ hlt.le)⟩
      · exact ⟨e, List.mem_map.mpr ⟨e, he, if_neg hex⟩, heq, hle⟩
    · obtain rfl := List.mem_singleton.mp hf
      exact ⟨f, hx, rfl, le_rfl⟩

theorem Winners.keep {seen winners : List OpsTaskExecution} (h : Winners seen winners)
    {x current : OpsTaskExecution} (hc : current ∈ winners)
    (ht : current.targetId = x.targetId) (hle : x.attempt ≤ current.attempt) :
    Winners (seen ++ [x]) winners where
  sub := fun e he => List.mem_append_left _ (h.sub e he)
  one := h.one
  beats := by
    intro f hf
    rcases List.mem_append.mp hf with hf | hf
    · exact h.beats f hf
    · obtain rfl := List.mem_singleton.mp hf
      exact ⟨current, hc, ht, hle⟩

theorem Winners.step {seen winners : List OpsTaskExecution} (h : Winners seen winners)
    (x : OpsTaskExecution) : Winners (seen ++ [x]) (latestStep winners x) := by
  unfold latestStep
  cases hfind : winners.find? fun e => e.targetId = x.targetId with
  | none => exact h.append fun e he => by simpa using List.find?_eq_none.mp hfind e he
  | some current =>
    have hc := List.mem_of_find?_eq_some hfind
    have ht : current.targetId = x.targetId := by simpa using List.find?_some hfind
    dsimp only
    split_ifs with hgt
    · exact h.replace hc ht hgt
    · exact h.keep hc ht (not_lt.mp hgt)

theorem winners_latestAttempts (executions : List OpsTaskExecution) :
    Winners executions (latestAttempts executions) := by
  unfold latestAttempts
  induction executions using List.reverseRecOn with
  | nil => exact ⟨by simp, List.nodup_nil, by simp⟩
  | append_singleton seen x ih =>
    rw [List.foldl_append]
    exact ih.step x

theorem mem_latestAttempts {executions : List OpsTaskExecution}
    (huniq : ∀ e ∈ executions, ∀ f ∈ executions,
      e.targetId = f.targetId → e.attempt = f.attempt → e = f) {e : OpsTaskExecution} :
    e ∈ latestAttempts executions ↔ e ∈ latest {x | x ∈ executions} := by
  have hw := winners_latestAttempts executions
  constructor
  · intro he
    refine ⟨hw.sub e he, fun f hf hft => ?_⟩
    obtain ⟨e', he', ht, hle⟩ := hw.beats f hf
    rwa [List.inj_on_of_nodup_map hw.one he' he (ht.trans hft)] at hle
  · rintro ⟨he, hmax⟩
    obtain ⟨e', he', ht, hle⟩ := hw.beats e he
    have heq := huniq e he e' (hw.sub e' he') ht.symm (hle.antisymm (hmax e' (hw.sub e' he') ht))
    rwa [heq]

/-! ## The decision -/

theorem aggregateStatus_eq {statuses : List ExecutionStatus} (hne : statuses ≠ []) :
    aggregateStatus statuses = documentedStatus {s | s ∈ statuses} := by
  unfold aggregateStatus documentedStatus
  simp only [Set.mem_ofPred_eq, List.any_eq_true, List.all_eq_true, decide_eq_true_eq]
  have hactive : (∃ s ∈ statuses, s = .pending ∨ s = .running) ↔
      ExecutionStatus.pending ∈ statuses ∨ .running ∈ statuses := by
    simp [and_or_left, exists_or]
  have hfailed : (∃ s ∈ statuses, s = .failed ∨ s = .timeout) ↔
      ExecutionStatus.failed ∈ statuses ∨ .timeout ∈ statuses := by
    simp [and_or_left, exists_or]
  simp only [hactive, hfailed]
  split_ifs with h1 h2 h3 h4 h5 h6 h7 h8 <;> try rfl
  · -- all succeeded and all cancelled: only the empty list
    obtain ⟨s, hs⟩ := List.exists_mem_of_ne_nil _ hne
    exact absurd ((h5 s hs).symm.trans (h6 s hs)) (by decide)
  · -- neither only cancelled rows nor a success: every other status was met before
    exfalso
    refine h7 fun s hs => ?_
    cases s with
    | cancelled => rfl
    | success => exact absurd hs h8
    | pending => exact absurd (.inl hs) h2
    | running => exact absurd (.inr hs) h2
    | failed => exact absurd (.inl hs) h4
    | timeout => exact absurd (.inr hs) h4
    | retrying => exact absurd hs h1
    | dead => exact absurd hs h3

end OpsMonitor.Task
