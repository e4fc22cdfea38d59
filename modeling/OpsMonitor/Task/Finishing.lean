import OpsMonitor.Task.Status

/-! The finished rows over the calls other than a cleanup: they stay as they are, and the ones
that finish meanwhile carry the time of the call. -/

namespace OpsMonitor.Task
open Library

variable {croniter : CronIter} {now : Time} {db d db' : Db}

theorem RowEdit.edit_eq_of_finished {t : OpsTask} (w : RowEdit db now t) {e : OpsTaskExecution}
    (he : e ∈ db.executions) (hfin : e.status.finished = true) : w.edit e = e := by
  by_cases h : e.taskId = t.id
  · exact (w.step e ⟨he, h⟩).eq_or_open.resolve_right (by simp [hfin])
  · exact w.other e he h

theorem RowEdit.finished_persists {t : OpsTask} (w : RowEdit db now t) (logs : Table OpsTaskLog)
    {e : OpsTaskExecution} (he : e ∈ db.executions) (hfin : e.status.finished = true) :
    e ∈ (w.apply logs).executions := List.mem_map.mpr ⟨e, he, w.edit_eq_of_finished he hfin⟩

/-- A move other than a cleanup leaves the finished rows as they are. -/
theorem Move.finished_persists {act : Act} (hm : Move croniter now db act db')
    (hact : act ≠ .purge) {e : OpsTaskExecution} (he : e ∈ db.executions)
    (hfin : e.status.finished = true) : e ∈ db'.executions := by
  cases hm with
  | insert hinsert =>
    obtain ⟨action, serverIds, -, rfl, rfl⟩ := insertTask_created hinsert
    split_ifs
    · exact Table.mem_insertAll.mpr (.inl he)
    · exact he
  | confirm => exact he
  | cancel _ _ w =>
    rw [executions_aggregate]
    exact w.finished_persists _ he hfin
  | claim _ _ hrow hpending =>
    exact (claimEdit now hrow hpending).finished_persists db.logs he hfin
  | report _ _ _ w logs | expire _ _ _ w logs =>
    rw [executions_aggregate]
    exact w.finished_persists logs he hfin
  | archive _ _ _ _ w => exact w.finished_persists _ he hfin
  | retry _ _ _ _ _ _ w _ _ logs =>
    rw [executions_aggregate]
    exact Table.mem_insert.mpr (.inl (w.finished_persists logs he hfin))
  | fire => exact Table.mem_insertAll.mpr (.inl he)
  | purge => exact absurd rfl hact

/-- A finished row of the new state was there, or it carries the time of the move. -/
theorem RowEdit.finished_dated {t : OpsTask} (w : RowEdit db now t) (logs : Table OpsTaskLog)
    {r : OpsTaskExecution} (hr : r ∈ (w.apply logs).executions) (hfin : r.status.finished = true) :
    r ∈ db.executions ∨ r.finishedAt = some now := by
  obtain ⟨s, hs, rfl⟩ := List.mem_map.mp hr
  by_cases htask : s.taskId = t.id
  · rcases (w.step s ⟨hs, htask⟩).finishedAt_of_finished hfin with hsame | hat
    · rw [hsame]
      exact .inl hs
    · exact .inr hat
  · rw [w.other s hs htask]
    exact .inl hs

theorem Move.finished_dated {act : Act} (hm : Move croniter now db act db') {r : OpsTaskExecution}
    (hr : r ∈ db'.executions) (hfin : r.status.finished = true) :
    r ∈ db.executions ∨ r.finishedAt = some now := by
  -- the first attempts of a task are pending
  have hfirst : ∀ {n taskId : ℕ} {targets : List OpsTaskTarget},
      r ∉ Table.keyed n (firstAttempts taskId targets) := by
    intro n taskId targets hmem
    rw [(mem_firstAttempts hmem).2.2] at hfin
    cases hfin
  cases hm with
  | insert hinsert =>
    obtain ⟨action, serverIds, -, rfl, rfl⟩ := insertTask_created hinsert
    split_ifs at hr
    · exact .inl ((Table.mem_insertAll.mp hr).resolve_right hfirst)
    · exact .inl hr
  | confirm => exact .inl hr
  | cancel _ _ w =>
    rw [executions_aggregate] at hr
    exact w.finished_dated _ hr hfin
  | claim _ _ he hpending => exact (claimEdit now he hpending).finished_dated db.logs hr hfin
  | report _ _ _ w logs | expire _ _ _ w logs =>
    rw [executions_aggregate] at hr
    exact w.finished_dated logs hr hfin
  | archive _ _ _ _ w => exact w.finished_dated _ hr hfin
  | retry _ _ _ _ _ _ w _ _ logs =>
    rw [executions_aggregate] at hr
    rcases Table.mem_insert.mp hr with hr | rfl
    · exact w.finished_dated logs hr hfin
    · cases hfin
  | fire => exact .inl ((Table.mem_insertAll.mp hr).resolve_right hfirst)
  | purge => exact .inl (mem_purged.mp hr).1

structure Finishes (now : Time) (db db' : Db) : Prop where
  kept : ∀ r ∈ db.executions, r.status.finished = true → r ∈ db'.executions
  dated : ∀ r ∈ db'.executions, r.status.finished = true →
    r ∈ db.executions ∨ r.finishedAt = some now

theorem Finishes.refl (now : Time) (db : Db) : Finishes now db db :=
  ⟨fun _ hr _ => hr, fun _ hr _ => .inl hr⟩

theorem Finishes.trans (h : Finishes now db d) (h' : Finishes now d db') : Finishes now db db' where
  kept r hr hfin := h'.kept r (h.kept r hr hfin) hfin
  dated r hr hfin := (h'.dated r hr hfin).elim (fun hd => h.dated r hd hfin) .inr

theorem Moves.finishes {P : Act → Prop} (hm : Moves croniter now P db db')
    (hP : ∀ act, P act → act ≠ .purge) : Finishes now db db' := by
  induction hm with
  | refl => exact .refl _ _
  | tail _ hmove ih =>
    obtain ⟨act, hact, hmove⟩ := hmove
    exact ih.trans ⟨fun r hr hfin => hmove.finished_persists (hP act hact) hr hfin,
      fun r hr hfin => hmove.finished_dated hr hfin⟩

/-- A step other than a cleanup keeps the finished rows and dates the new ones. -/
theorem finishes_step {e : Event} (he : ∀ days, e.call ≠ .cleanupHistory days) :
    Finishes e.now db (step croniter db e) := by
  rcases step_cases croniter db e with ⟨heq, -⟩ | ⟨reply, -, hm⟩
  · rw [heq]
    exact .refl _ _
  · exact hm.finishes fun _ => Call.ne_purge_of_allows he

end OpsMonitor.Task
