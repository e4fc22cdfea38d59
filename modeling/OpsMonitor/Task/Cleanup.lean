import OpsMonitor.Task.Preservation

/-! The cleanup keeps the invariants: the rows it removes from a chain are a prefix of it. -/

namespace OpsMonitor.Task
open Library

variable {croniter : CronIter} {now clock cutoff : Time} {kept : Prop} {db db' : Db}

/-- The rows that a cleanup removes. -/
def Old (cutoff : Time) (e : OpsTaskExecution) : Prop :=
  e.status.finished = true ∧ ∃ a ∈ e.finishedAt, a < cutoff

theorem mem_deleteTerminalBefore {r : OpsTaskExecution} :
    r ∈ (db.deleteTerminalBefore cutoff).1.executions ↔ r ∈ db.executions ∧ ¬ Old cutoff r := by
  refine Table.mem_remove.trans (and_congr_right fun hr => ?_)
  rw [decide_eq_false_iff_not]
  exact not_congr ((Table.key_mem_select hr).trans decide_eq_true_iff)

/-- Only tasks without rows are removed. -/
theorem mem_deleteFinishedTasksBefore {t : OpsTask} (ht : t ∈ db.tasks)
    (hrow : ∃ e ∈ db.executions, e.taskId = t.id) :
    t ∈ (db.deleteFinishedTasksBefore cutoff).1.tasks := by
  refine Table.mem_remove.mpr ⟨ht, decide_eq_false fun hmem => ?_⟩
  have hold := of_decide_eq_true ((Table.key_mem_select ht).mp hmem)
  exact hold.2.2.2 hrow

theorem of_mem_deleteFinishedTasksBefore {t : OpsTask}
    (ht : t ∈ (db.deleteFinishedTasksBefore cutoff).1.tasks) :
    t ∈ db.tasks ∧ ∀ g ∈ db.targets, g.taskId = t.id →
      g ∈ (db.deleteFinishedTasksBefore cutoff).1.targets := by
  obtain ⟨ht, hkept⟩ := Table.mem_remove.mp ht
  exact ⟨ht, fun g hg hid => Table.mem_remove.mpr ⟨hg, by rw [hid]; exact hkept⟩⟩

section Purge
variable (db cutoff)

/-- The tables after `cleanup_history`. -/
def Db.purged : Db := ((db.deleteTerminalBefore cutoff).1.deleteFinishedTasksBefore cutoff).1

end Purge

theorem mem_purged {r : OpsTaskExecution} :
    r ∈ (db.purged cutoff).executions ↔ r ∈ db.executions ∧ ¬ Old cutoff r :=
  mem_deleteTerminalBefore

/-- Along a chain the old rows come first. -/
theorem Timely.old_of_lt (h : Timely clock db) (hdb : Chains db) {e f : OpsTaskExecution}
    (he : e ∈ db.executions) (hf : f ∈ db.executions) (hchain : SameChain e f)
    (hlt : e.attempt < f.attempt) (hold : Old cutoff f) : Old cutoff e := by
  have hfin : e.status.finished = true := by
    rw [hdb.superseded e he f hf hchain hlt]
    rfl
  obtain ⟨a, ha, -⟩ := h.finished e he hfin
  obtain ⟨hffin, b, hb, hb'⟩ := hold
  exact ⟨hfin, a, ha, (h.ordered e he f hf hchain hlt hffin a ha b hb).trans_lt hb'⟩

theorem Chains.purge (h : Chains db) (ht : Timely clock db) : Chains (db.purged cutoff) where
  task_of := by
    intro e he
    obtain ⟨t, htask, hid, hle⟩ := h.task_of e (mem_purged.mp he).1
    exact ⟨t, mem_deleteFinishedTasksBefore htask ⟨e, he, hid.symm⟩, hid, hle⟩
  has_target := by
    intro t htask
    obtain ⟨htask, htargets⟩ := of_mem_deleteFinishedTasksBefore htask
    obtain ⟨g, hg, hid⟩ := h.has_target t htask
    exact ⟨g, htargets g hg hid, hid⟩
  budget := fun t htask => h.budget t (of_mem_deleteFinishedTasksBefore htask).1
  positive := fun e he => h.positive e (mem_purged.mp he).1
  unique := fun e he f hf => h.unique e (mem_purged.mp he).1 f (mem_purged.mp hf).1
  superseded := fun e he f hf => h.superseded e (mem_purged.mp he).1 f (mem_purged.mp hf).1
  gapless := by
    intro e he f hf hchain k hk hk'
    obtain ⟨he, hkept⟩ := mem_purged.mp he
    obtain ⟨g, hg, heg, rfl⟩ := h.gapless e he f (mem_purged.mp hf).1 hchain k hk hk'
    refine ⟨g, mem_purged.mpr ⟨hg, fun hold => ?_⟩, heg, rfl⟩
    exact hkept (ht.old_of_lt h he hg heg hk hold)

theorem Timely.purge (h : Timely clock db) : Timely clock (db.purged cutoff) where
  finished := fun e he => h.finished e (mem_purged.mp he).1
  ordered := fun e he f hf => h.ordered e (mem_purged.mp he).1 f (mem_purged.mp hf).1
  retry := fun e he => h.retry e (mem_purged.mp he).1

theorem StatusOk.purge {t : OpsTask} (h : StatusOk False (db.rowsOf t.id) t) :
    StatusOk False ((db.purged cutoff).rowsOf t.id) t := by
  have hsub : ∀ e ∈ (db.purged cutoff).rowsOf t.id, e ∈ db.rowsOf t.id :=
    fun e he => ⟨(mem_purged.mp he.1).1, he.2⟩
  have hopen : ∀ e ∈ db.rowsOf t.id, e.status.finished = false →
      e ∈ (db.purged cutoff).rowsOf t.id :=
    fun e he hs => ⟨mem_purged.mpr ⟨he.1, fun hold => by simp [hold.1] at hs⟩, he.2⟩
  cases h with
  | waiting hs hrows hcron =>
    refine .waiting hs (fun e he => hrows e (hsub e he)) fun hc => ?_
    exact Set.subset_eq_empty hsub (hcron hc)
  | running hs hactive hrows =>
    obtain ⟨e, he, hact⟩ := hactive
    refine .running hs ⟨e, hopen e he ?_, hact⟩ fun e he => hrows e (hsub e he)
    rcases hact with hact | hact <;> rw [hact] <;> rfl
  | retrying hs hrow =>
    obtain ⟨e, he, hretrying⟩ := hrow
    exact .retrying hs ⟨e, hopen e he (by rw [hretrying]; rfl), hretrying⟩
  | closed hs hrows => exact .closed hs (fun e he => hrows e (hsub e he)) False.elim

theorem Inv.purge (h : Inv False db) (ht : Timely clock db) : Inv False (db.purged cutoff) where
  toChains := h.toChains.purge ht
  status := fun t htask => (h.status t (of_mem_deleteFinishedTasksBefore htask).1).purge

/-! ## Runs -/

theorem Inv.fresh (servers : Table OpsServer) (services : Table OpsServerService) :
    Inv kept (.fresh servers services) := by
  have hrows : ∀ e, e ∉ (Db.fresh servers services).executions := Table.notMem_empty
  have htasks : ∀ t, t ∉ (Db.fresh servers services).tasks := Table.notMem_empty
  exact {
    task_of := fun e he => absurd he (hrows e)
    has_target := fun t ht => absurd ht (htasks t)
    budget := fun t ht => absurd ht (htasks t)
    positive := fun e he => absurd he (hrows e)
    unique := fun e he => absurd he (hrows e)
    superseded := fun e he => absurd he (hrows e)
    gapless := fun e he => absurd he (hrows e)
    status := fun t ht => absurd ht (htasks t) }

theorem Timely.fresh (servers : Table OpsServer) (services : Table OpsServerService) :
    Timely clock (.fresh servers services) := by
  have hrows : ∀ e, e ∉ (Db.fresh servers services).executions := Table.notMem_empty
  exact {
    finished := fun e he => absurd he (hrows e)
    ordered := fun e he => absurd he (hrows e)
    retry := fun e he => absurd he (hrows e) }

/-- Moves without a cleanup keep the invariant whatever the clock shows. -/
theorem Inv.moves {P : Act → Prop} (hP : ∀ act, P act → act ≠ .purge) (h : Inv kept db)
    (hm : Moves croniter now P db db') : Inv kept db' := by
  induction hm with
  | refl => exact h
  | tail _ hmove ih =>
    obtain ⟨act, hact, hmove⟩ := hmove
    exact ih.move hmove (hP act hact)

/-- With a clock that does not run back, every move keeps the invariant. -/
theorem Inv.timed_move {act : Act} (h : Inv False db) (ht : Timely clock db) (hle : clock ≤ now)
    (hm : Move croniter now db act db') : Inv False db' ∧ Timely now db' := by
  by_cases hact : act = .purge
  · subst hact
    cases hm with
    | purge cutoff => exact ⟨h.purge ht, (ht.mono hle).purge⟩
  · exact ⟨h.move hm hact, (h.evolves hm hact).timely clock hle ht⟩

theorem Inv.timed_moves {P : Act → Prop} (h : Inv False db) (ht : Timely clock db)
    (hle : clock ≤ now) (hm : Moves croniter now P db db') : Inv False db' ∧ Timely now db' := by
  induction hm with
  | refl => exact ⟨h, ht.mono hle⟩
  | tail _ hmove ih =>
    obtain ⟨act, -, hmove⟩ := hmove
    exact ih.1.timed_move ih.2 le_rfl hmove

end OpsMonitor.Task
