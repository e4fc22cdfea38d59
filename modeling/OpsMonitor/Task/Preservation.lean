import OpsMonitor.Task.Invariant

/-! Every move preserves the invariants of the engine. -/

namespace OpsMonitor.Task
open Library

variable {croniter : CronIter} {now clock : Time} {kept : Prop} {db db' : Db}

/-! ## New rows -/

section InsertNext
variable {e : OpsTaskExecution}
  (htop : ∀ f ∈ db.executions, SameChain e f → f.attempt ≤ e.attempt)
include htop

theorem Chains.insertNext (h : Chains db) (he : e ∈ db.executions) (hfailed : e.status = .failed)
    (hbudget : ∃ t ∈ db.tasks, t.id = e.taskId ∧ e.attempt + 1 ≤ t.maxAttempts) :
    Chains { db with executions := db.executions.insert (nextAttempt e) } := by
  have hnew : ∀ f ∈ db.executions, SameChain f e → f.attempt ≤ e.attempt :=
    fun f hf hchain => htop f hf hchain.symm
  refine ⟨?_, h.has_target, h.budget, ?_, ?_, ?_, ?_⟩
  · intro r hr
    rcases Table.mem_insert.mp hr with hr | rfl
    · exact h.task_of r hr
    · exact hbudget
  · intro r hr
    rcases Table.mem_insert.mp hr with hr | rfl
    · exact h.positive r hr
    · exact Nat.le_add_left 1 e.attempt
  · intro r hr r' hr' hchain hattempt
    rcases Table.mem_insert.mp hr with hr | rfl <;> rcases Table.mem_insert.mp hr' with hr' | rfl
    · exact h.unique r hr r' hr' hchain hattempt
    · have hle := hnew r hr hchain
      rw [show r.attempt = e.attempt + 1 from hattempt] at hle
      omega
    · have hle := hnew r' hr' hchain.symm
      rw [show r'.attempt = e.attempt + 1 from hattempt.symm] at hle
      omega
    · rfl
  · intro r hr r' hr' hchain hlt
    rcases Table.mem_insert.mp hr with hr | rfl <;> rcases Table.mem_insert.mp hr' with hr' | rfl
    · exact h.superseded r hr r' hr' hchain hlt
    · rcases (hnew r hr hchain).lt_or_eq with hlt' | heq
      · exact h.superseded r hr e he hchain hlt'
      · rwa [h.unique r hr e he hchain heq]
    · have hle := hnew r' hr' hchain.symm
      have hlt : e.attempt + 1 < r'.attempt := hlt
      omega
    · exact absurd hlt (lt_irrefl _)
  · intro r hr r' hr' hchain k hk hk'
    have old : ∀ g ∈ db.executions, SameChain r g → g.attempt = k →
        ∃ g ∈ db.executions.insert (nextAttempt e), SameChain r g ∧ g.attempt = k :=
      fun g hg hrg hgk => ⟨g, Table.mem_insert.mpr (.inl hg), hrg, hgk⟩
    rcases Table.mem_insert.mp hr with hr | rfl <;> rcases Table.mem_insert.mp hr' with hr' | rfl
    · obtain ⟨g, hg, hrg, hgk⟩ := h.gapless r hr r' hr' hchain k hk hk'
      exact old g hg hrg hgk
    · rcases (Nat.lt_succ_iff.mp hk').lt_or_eq with hlt | rfl
      · obtain ⟨g, hg, hrg, hgk⟩ := h.gapless r hr e he hchain k hk hlt
        exact old g hg hrg hgk
      · exact old e he hchain rfl
    · have hle := hnew r' hr' hchain.symm
      have hk : e.attempt + 1 < k := hk
      omega
    · exact absurd (hk.trans hk') (lt_irrefl _)

theorem Timely.insertNext (h : Timely clock db) :
    Timely clock { db with executions := db.executions.insert (nextAttempt e) } := by
  refine ⟨?_, ?_, ?_⟩
  · intro r hr hfin
    rcases Table.mem_insert.mp hr with hr | rfl
    · exact h.finished r hr hfin
    · cases hfin
  · intro r hr r' hr' hchain hlt hfin
    rcases Table.mem_insert.mp hr' with hr' | rfl
    · rcases Table.mem_insert.mp hr with hr | rfl
      · exact h.ordered r hr r' hr' hchain hlt hfin
      · have hle := htop r' hr' hchain
        have hlt : e.attempt + 1 < r'.attempt := hlt
        omega
    · cases hfin
  · intro r hr hretry
    rcases Table.mem_insert.mp hr with hr | rfl
    · exact h.retry r hr hretry
    · cases hretry

end InsertNext

/-- The rows that a batch of first attempts adds. -/
theorem mem_firstAttempts {n taskId : ℕ} {targets : List OpsTaskTarget} {r : OpsTaskExecution}
    (h : r ∈ Table.keyed n (firstAttempts taskId targets)) :
    r.taskId = taskId ∧ r.attempt = 1 ∧ r.status = .pending := by
  obtain ⟨a, ha, k, -, rfl⟩ := Table.exists_of_mem_keyed h
  obtain ⟨g, -, rfl⟩ := List.mem_map.mp ha
  exact ⟨rfl, rfl, rfl⟩

theorem eq_of_targetId_eq {n taskId : ℕ} {targets : List OpsTaskTarget}
    (hids : (targets.map (·.id)).Nodup) {r r' : OpsTaskExecution}
    (hr : r ∈ Table.keyed n (firstAttempts taskId targets))
    (hr' : r' ∈ Table.keyed n (firstAttempts taskId targets)) (h : r.targetId = r'.targetId) :
    r = r' := by
  refine List.inj_on_of_nodup_map (f := OpsTaskExecution.targetId) ?_ hr hr' h
  rw [Table.map_keyed fun _ _ => rfl, firstAttempts, List.map_map]
  exact hids

section InsertFirst
variable {taskId : ℕ} {targets : List OpsTaskTarget}
  (hfree : ∀ e ∈ db.executions, e.taskId ≠ taskId)
include hfree

theorem Chains.insertFirst (h : Chains db) (hids : (targets.map (·.id)).Nodup)
    (htask : ∃ t ∈ db.tasks, t.id = taskId) :
    Chains { db with executions := db.executions.insertAll (firstAttempts taskId targets) } := by
  have hnew : ∀ {r}, r ∈ Table.keyed db.executions.next (firstAttempts taskId targets) →
      r.taskId = taskId ∧ r.attempt = 1 ∧ r.status = .pending := mem_firstAttempts
  refine ⟨?_, h.has_target, h.budget, ?_, ?_, ?_, ?_⟩
  · intro r hr
    rcases Table.mem_insertAll.mp hr with hr | hr
    · exact h.task_of r hr
    · obtain ⟨t, ht, hid⟩ := htask
      exact ⟨t, ht, by rw [hid, (hnew hr).1], by rw [(hnew hr).2.1]; exact h.budget t ht⟩
  · intro r hr
    rcases Table.mem_insertAll.mp hr with hr | hr
    · exact h.positive r hr
    · exact (hnew hr).2.1.ge
  · intro r hr r' hr' hchain hattempt
    rcases Table.mem_insertAll.mp hr with hr | hr <;>
      rcases Table.mem_insertAll.mp hr' with hr' | hr'
    · exact h.unique r hr r' hr' hchain hattempt
    · exact absurd (hchain.1.trans (hnew hr').1) (hfree r hr)
    · exact absurd (hchain.1.symm.trans (hnew hr).1) (hfree r' hr')
    · exact eq_of_targetId_eq hids hr hr' hchain.2
  · intro r hr r' hr' hchain hlt
    rcases Table.mem_insertAll.mp hr with hr | hr <;>
      rcases Table.mem_insertAll.mp hr' with hr' | hr'
    · exact h.superseded r hr r' hr' hchain hlt
    · exact absurd (hchain.1.trans (hnew hr').1) (hfree r hr)
    · exact absurd (hchain.1.symm.trans (hnew hr).1) (hfree r' hr')
    · rw [(hnew hr).2.1, (hnew hr').2.1] at hlt
      exact absurd hlt (lt_irrefl _)
  · intro r hr r' hr' hchain k hk hk'
    rcases Table.mem_insertAll.mp hr with hr | hr <;>
      rcases Table.mem_insertAll.mp hr' with hr' | hr'
    · obtain ⟨g, hg, hrg, hgk⟩ := h.gapless r hr r' hr' hchain k hk hk'
      exact ⟨g, Table.mem_insertAll.mpr (.inl hg), hrg, hgk⟩
    · exact absurd (hchain.1.trans (hnew hr').1) (hfree r hr)
    · exact absurd (hchain.1.symm.trans (hnew hr).1) (hfree r' hr')
    · rw [(hnew hr).2.1] at hk
      rw [(hnew hr').2.1] at hk'
      omega

theorem Timely.insertFirst (h : Timely clock db) :
    Timely clock { db with
      executions := db.executions.insertAll (firstAttempts taskId targets) } := by
  have hnew : ∀ {r}, r ∈ Table.keyed db.executions.next (firstAttempts taskId targets) →
      r.taskId = taskId ∧ r.attempt = 1 ∧ r.status = .pending := mem_firstAttempts
  refine ⟨?_, ?_, ?_⟩
  · intro r hr hfin
    rcases Table.mem_insertAll.mp hr with hr | hr
    · exact h.finished r hr hfin
    · rw [(hnew hr).2.2] at hfin
      cases hfin
  · intro r hr r' hr' hchain hlt hfin
    rcases Table.mem_insertAll.mp hr' with hr' | hr'
    · rcases Table.mem_insertAll.mp hr with hr | hr
      · exact h.ordered r hr r' hr' hchain hlt hfin
      · exact absurd (hchain.1.symm.trans (hnew hr).1) (hfree r' hr')
    · rw [(hnew hr').2.2] at hfin
      cases hfin
  · intro r hr hretry
    rcases Table.mem_insertAll.mp hr with hr | hr
    · exact h.retry r hr hretry
    · rw [(hnew hr).2.2] at hretry
      cases hretry

end InsertFirst

/-! ## Moves that keep every row -/

/-- `db'` follows `db` at time `now` without breaking a chain or the order of its times. -/
structure Evolves (now : Time) (db db' : Db) : Prop where
  chains : Chains db'
  timely : ∀ clock ≤ now, Timely clock db → Timely now db'

theorem Evolves.trans {d : Db} (h : Evolves now db d) (h' : Evolves now d db') :
    Evolves now db db' where
  chains := h'.chains
  timely := fun clock hle ht => h'.timely now le_rfl (h.timely clock hle ht)

theorem Chains.evolves (h : Chains db) (hw : Rewrites now db db') : Evolves now db db' where
  chains := h.rewrites hw
  timely := fun _ hle ht => ht.rewrites h hle hw

theorem Evolves.rewrite {d : Db} (h : Evolves now db d) (hw : Rewrites now d db') :
    Evolves now db db' := h.trans (h.chains.evolves hw)

theorem Timely.mono (h : Timely clock db) (hle : clock ≤ now) : Timely now db where
  finished := fun e he hfin => (h.finished e he hfin).imp fun _ ha => ⟨ha.1, ha.2.trans hle⟩
  ordered := h.ordered
  retry := fun e he hs => (h.retry e he hs).imp fun _ hr => ⟨hr.1, hr.2.trans (by gcongr)⟩

theorem Chains.evolves_aggregate (h : Chains db) {t : OpsTask} (w : RowEdit db now t)
    (logs : Table OpsTaskLog) : Evolves now db (aggregateTaskStatus (w.apply logs) now t.id) :=
  (h.evolves (w.rewrites logs)).rewrite rewrites_aggregate

theorem nextAttempt_congr {s r : OpsTaskExecution} (h : SameRow s r) :
    nextAttempt r = nextAttempt s := by
  rw [nextAttempt, h.taskId, h.targetId, h.serverId, h.attempt, nextAttempt]

theorem Chains.evolves_insertNext (h : Chains db) {t : OpsTask} {e : OpsTaskExecution}
    (ht : t ∈ db.tasks) (he : e ∈ db.rowsOf t.id) (hopen : e.status.finished = false)
    (hlt : e.attempt < t.maxAttempts) (w : RowEdit db now t)
    (hfailed : (w.edit e).status = .failed) (logs : Table OpsTaskLog) :
    Evolves now db (w.applyNext logs e) := by
  have hw := h.evolves (w.rewrites logs)
  have hrow := (w.step e he).sameRow
  have hmem : w.edit e ∈ (w.apply logs).executions := List.mem_map.mpr ⟨e, he.1, rfl⟩
  have htop : ∀ f ∈ (w.apply logs).executions, SameChain (w.edit e) f →
      f.attempt ≤ (w.edit e).attempt := by
    intro f hf hchain
    obtain ⟨s, hs, rfl⟩ := List.mem_map.mp hf
    have hrow' : SameRow s (w.edit s) := by
      by_cases hs' : s.taskId = t.id
      · exact (w.step s ⟨hs, hs'⟩).sameRow
      · rw [w.other s hs hs']
        exact .rfl' s
    rw [hrow.attempt, hrow'.attempt]
    rw [SameChain, hrow.taskId, hrow'.taskId, hrow.targetId, hrow'.targetId] at hchain
    exact h.attempt_le_of_open he.1 hs hchain hopen
  rw [RowEdit.applyNext, ← nextAttempt_congr hrow]
  refine hw.trans ⟨hw.chains.insertNext htop hmem hfailed ⟨t, ht, ?_, ?_⟩, ?_⟩
  · rw [hrow.taskId, he.2]
  · rw [hrow.attempt]
    exact hlt
  · exact fun _ hle htimely => (htimely.mono hle).insertNext htop

theorem Chains.evolves_insertFirst (h : Chains db) {taskId : ℕ} {targets : List OpsTaskTarget}
    (hfree : ∀ e ∈ db.executions, e.taskId ≠ taskId) (hids : (targets.map (·.id)).Nodup)
    (htask : ∃ t ∈ db.tasks, t.id = taskId) :
    Evolves now db { db with
      executions := db.executions.insertAll (firstAttempts taskId targets) } where
  chains := h.insertFirst hfree hids htask
  timely := fun _ hle ht => (ht.mono hle).insertFirst hfree

theorem Chains.free_next (h : Chains db) : ∀ e ∈ db.executions, e.taskId ≠ db.tasks.next := by
  intro e he
  obtain ⟨t, ht, hid, -⟩ := h.task_of e he
  rw [← hid]
  exact (Table.key_lt ht).ne

theorem nodup_ids_keyed (n : ℕ) (as : List OpsTaskTarget) : ((Table.keyed n as).map (·.id)).Nodup := by
  induction as generalizing n with
  | nil => exact List.nodup_nil
  | cons a as ih =>
    refine List.nodup_cons.mpr ⟨?_, ih (n + 1)⟩
    intro hmem
    obtain ⟨g, hg, hid⟩ := List.mem_map.mp hmem
    obtain ⟨b, -, k, hk, rfl⟩ := Table.exists_of_mem_keyed hg
    have hid : k = n := hid
    omega

theorem Chains.evolves_created (h : Chains db) {data : TaskCreate} {creatorId : ℕ}
    {key : Option String} {t : OpsTask} (hc : Created db now data creatorId key db' t) :
    Evolves now db db' := by
  obtain ⟨action, serverIds, hne, rfl, rfl⟩ := hc
  let targets : List OpsTaskTarget :=
    serverIds.map fun sid => ⟨0, db.tasks.next, sid, .pending⟩
  let d : Db := { db with
    tasks := db.tasks.insert (newTask now data action creatorId key)
    targets := db.targets.insertAll targets }
  have hd : Chains d := by
    refine ⟨?_, ?_, ?_, h.positive, h.unique, h.superseded, h.gapless⟩
    · intro e he
      obtain ⟨t, ht, hid⟩ := h.task_of e he
      exact ⟨t, Table.mem_insert.mpr (.inl ht), hid⟩
    · intro t ht
      rcases Table.mem_insert.mp ht with ht | rfl
      · obtain ⟨g, hg, hid⟩ := h.has_target t ht
        exact ⟨g, Table.mem_insertAll.mpr (.inl hg), hid⟩
      · obtain ⟨sid, hsid⟩ := List.exists_mem_of_ne_nil _ hne
        obtain ⟨k, hk⟩ := Table.exists_keyed_of_mem (n := db.targets.next)
          (List.mem_map_of_mem hsid : (⟨0, db.tasks.next, sid, .pending⟩ : OpsTaskTarget) ∈ targets)
        exact ⟨_, Table.mem_insertAll.mpr (.inr hk), rfl⟩
    · intro t ht
      rcases Table.mem_insert.mp ht with ht | rfl
      · exact h.budget t ht
      · exact data.maxAttempts_range.1
  have hfirst : Evolves now db d := ⟨hd, fun _ hle ht => ⟨(ht.mono hle).finished, ht.ordered,
    (ht.mono hle).retry⟩⟩
  split_ifs
  · refine hfirst.trans (hd.evolves_insertFirst h.free_next (nodup_ids_keyed _ _)
      ⟨_, Table.mem_insert.mpr (.inr rfl), rfl⟩)
  · exact hfirst

theorem nodup_ids_listTargets (db : Db) (taskId : ℕ) : ((db.listTargets taskId).map (·.id)).Nodup :=
  List.pairwise_map.mpr ((Table.select_sorted db.targets _).imp fun hlt => hlt.ne)

/-- A task that waits for its schedule has no rows yet. -/
theorem StatusOk.free_of_cron {rows : Set OpsTaskExecution} {t : OpsTask}
    (h : StatusOk kept rows t) (hs : t.status = .pending ∨ t.status = .created)
    (hcron : t.scheduleType = "CRON") : rows = ∅ := by
  cases h with
  | waiting _ _ hfree => exact hfree hcron
  | running h | retrying h => simp [h] at hs
  | closed h => rcases hs with hs | hs <;> simp [hs, TaskStatus.finished] at h

theorem Inv.evolves {act : Act} (h : Inv kept db) (hm : Move croniter now db act db')
    (hact : act ≠ .purge) : Evolves now db db' := by
  cases hm with
  | insert hinsert => exact h.evolves_created (insertTask_created hinsert)
  | confirm => exact h.toChains.evolves (rewrites_withTask fun _ => ⟨rfl, rfl, rfl, rfl, rfl, rfl, rfl⟩)
  | cancel _ _ w => exact h.evolves_aggregate w _
  | claim ht _ he hpending =>
    exact (h.toChains.evolves ((claimEdit now he hpending).rewrites db.logs)).rewrite
      (rewrites_withTask fun _ => ⟨rfl, rfl, rfl, rfl, rfl, rfl, rfl⟩)
  | report _ _ _ w logs | expire _ _ _ w logs => exact h.evolves_aggregate w logs
  | archive _ _ _ _ w => exact h.toChains.evolves (w.rewrites _)
  | retry ht _ he hretrying _ hretry w hfailed _ logs =>
    have hnew := h.evolves_insertNext ht he (by rw [hretrying]; rfl)
      (canRetry_iff.mp hretry).1 w hfailed logs
    refine Evolves.rewrite (Evolves.rewrite (hnew.rewrite ?_) rewrites_resetTarget)
      rewrites_aggregate
    exact rewrites_withTask fun _ => ⟨rfl, rfl, rfl, rfl, rfl, rfl, rfl⟩
  | @fire t _ ht hs hcron =>
    have hfree := Set.eq_empty_iff_forall_notMem.mp ((h.status t ht).free_of_cron hs hcron.1)
    exact (h.evolves_insertFirst (fun e he htask => hfree e ⟨he, htask⟩)
      (nodup_ids_listTargets db t.id) ⟨t, ht, rfl⟩).rewrite
        (rewrites_withTask fun _ => ⟨rfl, rfl, rfl, rfl, rfl, rfl, rfl⟩)
  | purge => exact absurd rfl hact

/-! ## What a move leaves alone -/

/-- Only the task `taskId` and its rows differ. -/
structure Touches (taskId : ℕ) (db db' : Db) : Prop where
  tasks : ∀ t, t.id ≠ taskId → (t ∈ db'.tasks ↔ t ∈ db.tasks)
  rows : ∀ k ≠ taskId, db'.rowsOf k = db.rowsOf k

theorem Touches.trans {taskId : ℕ} {d : Db} (h : Touches taskId db d) (h' : Touches taskId d db') :
    Touches taskId db db' where
  tasks := fun t hne => (h'.tasks t hne).trans (h.tasks t hne)
  rows := fun k hne => (h'.rows k hne).trans (h.rows k hne)

theorem touches_withTask {taskId : ℕ} {f : OpsTask → OpsTask}
    {hf : ∀ t, Keyed.key (f t) = Keyed.key t} : Touches taskId db (db.withTask taskId f hf) where
  tasks := by
    intro t hne
    rw [Db.mem_withTask]
    constructor
    · rintro ⟨s, hs, rfl⟩
      split_ifs at hne ⊢ with h
      · exact absurd ((hf s).trans h) hne
      · exact hs
    · exact fun ht => ⟨t, ht, if_neg hne⟩
  rows := fun _ _ => rfl

theorem touches_resetTarget {taskId id : ℕ} : Touches taskId db (db.resetTarget id) where
  tasks := fun _ _ => Iff.rfl
  rows := fun _ _ => rfl

theorem touches_aggregate {taskId : ℕ} : Touches taskId db (aggregateTaskStatus db now taskId) := by
  rw [aggregateTaskStatus_eq]
  exact touches_withTask

theorem RowEdit.touches {t : OpsTask} (w : RowEdit db now t) (logs : Table OpsTaskLog) :
    Touches t.id db (w.apply logs) where
  tasks := fun _ _ => Iff.rfl
  rows := by
    intro k hne
    have hother : ∀ s ∈ db.executions, s.taskId = k → w.edit s = s :=
      fun s hs hk => w.other s hs (hk ▸ hne)
    ext r
    constructor
    · rintro ⟨hr, hk⟩
      obtain ⟨s, hs, rfl⟩ := List.mem_map.mp hr
      by_cases hs' : s.taskId = t.id
      · exact absurd (hk.symm.trans ((w.step s ⟨hs, hs'⟩).sameRow.taskId.trans hs')) hne
      · rw [w.other s hs hs'] at hk ⊢
        exact ⟨hs, hk⟩
    · rintro ⟨hr, hk⟩
      exact ⟨List.mem_map.mpr ⟨r, hr, hother r hr hk⟩, hk⟩

theorem RowEdit.touches_next {t : OpsTask} {e : OpsTaskExecution} (he : e ∈ db.rowsOf t.id)
    (w : RowEdit db now t) (logs : Table OpsTaskLog) : Touches t.id db (w.applyNext logs e) := by
  refine (w.touches logs).trans ⟨fun _ _ => Iff.rfl, fun k hne => ?_⟩
  ext r
  constructor
  · rintro ⟨hr, hk⟩
    rcases Table.mem_insert.mp hr with hr | rfl
    · exact ⟨hr, hk⟩
    · exact absurd (hk.symm.trans he.2) hne
  · rintro ⟨hr, hk⟩
    exact ⟨Table.mem_insert.mpr (.inl hr), hk⟩

theorem touches_insertFirst {taskId : ℕ} {targets : List OpsTaskTarget} :
    Touches taskId db { db with
      executions := db.executions.insertAll (firstAttempts taskId targets) } where
  tasks := fun _ _ => Iff.rfl
  rows := by
    intro k hne
    ext r
    constructor
    · rintro ⟨hr, hk⟩
      rcases Table.mem_insertAll.mp hr with hr | hr
      · exact ⟨hr, hk⟩
      · exact absurd (hk.symm.trans (mem_firstAttempts hr).1) hne
    · rintro ⟨hr, hk⟩
      exact ⟨Table.mem_insertAll.mpr (.inl hr), hk⟩

theorem Created.touches {data : TaskCreate} {creatorId : ℕ} {key : Option String} {t : OpsTask}
    (hc : Created db now data creatorId key db' t) : Touches t.id db db' := by
  obtain ⟨action, serverIds, -, rfl, rfl⟩ := hc
  have htasks : ∀ t, t.id ≠ db.tasks.next → (t ∈ db.tasks.insert
      (newTask now data action creatorId key) ↔ t ∈ db.tasks) := by
    intro t hne
    rw [Table.mem_insert]
    exact or_iff_left fun h => hne (by rw [h]; rfl)
  split_ifs
  · exact ⟨htasks, (@touches_insertFirst db _ _).rows⟩
  · exact ⟨htasks, fun _ _ => rfl⟩

/-- The task a move is about. -/
def Act.taskId : Act → ℕ
  | .insert t => t.id
  | .confirm k | .cancel k | .claim k | .report k | .expire k | .archive k | .retry k | .fire k => k
  | .purge => 0

theorem Move.touches {act : Act} (hm : Move croniter now db act db') (hact : act ≠ .purge) :
    Touches act.taskId db db' := by
  cases hm with
  | insert hinsert => exact (insertTask_created hinsert).touches
  | confirm => exact touches_withTask
  | cancel _ _ w => exact (w.touches _).trans touches_aggregate
  | claim _ _ he hpending =>
    exact ((claimEdit now he hpending).touches db.logs).trans touches_withTask
  | report _ _ _ w logs | expire _ _ _ w logs => exact (w.touches logs).trans touches_aggregate
  | archive _ _ _ _ w => exact w.touches _
  | retry _ _ he _ _ _ w _ _ logs =>
    refine .trans (.trans ((w.touches_next he logs).trans ?_) touches_resetTarget) touches_aggregate
    exact touches_withTask
  | fire => exact touches_insertFirst.trans touches_withTask
  | purge => exact absurd rfl hact

/-! ## The status of the task -/

theorem Inv.of_touches {taskId : ℕ} (h : Inv kept db) (hch : Chains db')
    (ht : Touches taskId db db')
    (hs : ∀ t ∈ db'.tasks, t.id = taskId → StatusOk kept (db'.rowsOf t.id) t) : Inv kept db' where
  toChains := hch
  status := by
    intro t ht'
    by_cases hid : t.id = taskId
    · exact hs t ht' hid
    · rw [ht.rows t.id hid]
      exact h.status t ((ht.tasks t hid).mp ht')

theorem Chains.statusOk_of_aggregate {d : Db} {taskId : ℕ}
    (h : Chains (aggregateTaskStatus d now taskId)) {t : OpsTask}
    (ht : t ∈ (aggregateTaskStatus d now taskId).tasks) (hid : t.id = taskId) :
    StatusOk kept ((aggregateTaskStatus d now taskId).rowsOf t.id) t := by
  have hstatus : t.status = (aggregateTaskStatus d now taskId).aggregated taskId := by
    rw [aggregateTaskStatus_eq] at ht ⊢
    obtain ⟨s, -, -, rfl⟩ := Db.of_mem_withTask ht hid
    rfl
  rw [hid]
  by_cases hne : ((aggregateTaskStatus d now taskId).rowsOf taskId).Nonempty
  · exact h.statusOk_aggregate hne hstatus
  · have hempty := Set.not_nonempty_iff_eq_empty.mp hne
    have hlist : (aggregateTaskStatus d now taskId).listByTask taskId = [] :=
      List.eq_nil_iff_forall_not_mem.mpr fun e he => hne ⟨e, Db.mem_listByTask.mp he⟩
    rw [Db.aggregated, if_pos hlist] at hstatus
    rw [hempty]
    exact .waiting (.inr hstatus) (by simp) fun _ => rfl

/-- A finished task has only finished rows. -/
theorem StatusOk.finished_rows {rows : Set OpsTaskExecution} {t : OpsTask}
    (h : StatusOk kept rows t) (hs : t.status.finished = true) :
    ∀ e ∈ rows, e.status.finished = true := by
  cases h with
  | waiting h => rcases h with h | h <;> simp [h, TaskStatus.finished] at hs
  | running h | retrying h => simp [h, TaskStatus.finished] at hs
  | closed _ hrows => exact hrows

/-- A claimed row makes the task `RUNNING`; nothing else of it waits for a retry. -/
theorem StatusOk.claimed {t t' : OpsTask} {e : OpsTaskExecution}
    (h : StatusOk kept (db.rowsOf t.id) t) (hs : t.status = .pending ∨ t.status = .running)
    (he : e ∈ db.rowsOf t.id) (ht' : t'.status = .running) :
    StatusOk kept ((db.withExecution e.id (.markRunning now)).rowsOf t.id) t' := by
  have hno : ∀ s ∈ db.rowsOf t.id, s.status ≠ .retrying := by
    intro s hs'
    cases h with
    | waiting _ hrows => simp [(hrows s hs').1]
    | running _ _ hrows => exact hrows s hs'
    | retrying h => simp [h] at hs
    | closed h => rcases hs with hs | hs <;> simp [hs, TaskStatus.finished] at h
  refine .running ht' ⟨e.markRunning now, ⟨Db.mem_withExecution.mpr ⟨e, he.1, if_pos rfl⟩, he.2⟩,
    .inr rfl⟩ ?_
  rintro r ⟨hr, hrt⟩
  obtain ⟨s, hs', rfl⟩ := Db.mem_withExecution.mp hr
  split_ifs at hrt ⊢
  · simp [OpsTaskExecution.markRunning]
  · exact hno s ⟨hs', hrt⟩

/-- A task that was just created waits, with first attempts only when it is a one-time task. -/
theorem Chains.statusOk_created (h : Chains db) {data : TaskCreate} {creatorId : ℕ}
    {key : Option String} {t t' : OpsTask} (hc : Created db now data creatorId key db' t)
    (ht' : t' ∈ db'.tasks) (hid : t'.id = t.id) : StatusOk kept (db'.rowsOf t'.id) t' := by
  obtain ⟨action, serverIds, -, rfl, rfl⟩ := hc
  rcases Table.mem_insert.mp ht' with ht' | rfl
  · exact absurd hid (Table.key_lt ht').ne
  · have hstatus : ∀ b : Prop, [Decidable b] → ∀ s : TaskStatus,
        s = (if b then .created else .pending) → s = .created ∨ s = .pending := by
      intro b _ s hs
      split_ifs at hs
      · exact .inl hs
      · exact .inr hs
    by_cases honce : data.scheduleType = "ONCE"
    · refine .waiting (hstatus _ _ rfl) ?_ fun hcron => absurd (honce.symm.trans hcron) (by decide)
      rintro r ⟨hr, hk⟩
      rw [if_pos honce] at hr
      rcases Table.mem_insertAll.mp hr with hr | hr
      · exact absurd hk (h.free_next r hr)
      · exact ⟨(mem_firstAttempts hr).2.2, (mem_firstAttempts hr).2.1⟩
    · have hfree : ∀ r ∈ db.executions, r.taskId ≠ db.tasks.next := h.free_next
      refine .waiting (hstatus _ _ rfl) ?_ fun _ => ?_
      · rintro r ⟨hr, hk⟩
        rw [if_neg honce] at hr
        exact absurd hk (hfree r hr)
      · refine Set.eq_empty_iff_forall_notMem.mpr ?_
        rintro r ⟨hr, hk⟩
        rw [if_neg honce] at hr
        exact hfree r hr hk

/-- The first attempts of a fired task are all there is of it, and there is one. -/
theorem Chains.statusOk_fired (h : Chains db) {t t' : OpsTask} (ht : t ∈ db.tasks)
    (hfree : db.rowsOf t.id = ∅) (ht' : t'.status = .running) :
    StatusOk kept (({ db with
      executions := db.executions.insertAll (firstAttempts t.id (db.listTargets t.id)) } : Db).rowsOf
        t.id) t' := by
  obtain ⟨g, hg, hid⟩ := h.has_target t ht
  have hmem : OpsTaskExecution.initial t.id g.id g.serverId 1 ∈
      firstAttempts t.id (db.listTargets t.id) := by
    refine List.mem_map.mpr ⟨g, Table.mem_select.mpr ⟨hg, ?_⟩, rfl⟩
    exact decide_eq_true hid
  obtain ⟨k, hk⟩ := Table.exists_keyed_of_mem (n := db.executions.next) hmem
  refine .running ht' ⟨_, ⟨Table.mem_insertAll.mpr (.inr hk), rfl⟩, .inl rfl⟩ ?_
  rintro r ⟨hr, hrt⟩
  rcases Table.mem_insertAll.mp hr with hr | hr
  · exact absurd ⟨hr, hrt⟩ (Set.eq_empty_iff_forall_notMem.mp hfree r)
  · rw [(mem_firstAttempts hr).2.2]
    exact nofun

theorem Inv.move {act : Act} (h : Inv kept db) (hm : Move croniter now db act db')
    (hact : act ≠ .purge) : Inv kept db' := by
  have hch := (h.evolves hm hact).chains
  refine h.of_touches hch (hm.touches hact) fun t' ht' hid => ?_
  cases hm with
  | insert hinsert =>
    exact h.statusOk_created (insertTask_created hinsert) ht' hid
  | @confirm t ht hs =>
    obtain ⟨s, hs', hid', rfl⟩ := Db.of_mem_withTask ht' hid
    obtain rfl : s = t := Table.eq_of_key_eq hs' ht hid'
    cases h.status s hs' with
    | waiting _ hrows hcron => exact .waiting (.inr rfl) hrows hcron
    | running hs' | retrying hs' => simp [hs] at hs'
    | closed hs' => simp [hs, TaskStatus.finished] at hs'
  | cancel | report | expire | retry => exact hch.statusOk_of_aggregate ht' hid
  | @claim t e ht hs he hpending =>
    obtain ⟨s, hs', hid', rfl⟩ := Db.of_mem_withTask ht' hid
    obtain rfl : s = t := Table.eq_of_key_eq hs' ht hid'
    exact (h.status s hs').claimed hs he rfl
  | @archive t e ht hs he hretrying =>
    have hfin := (h.status t ht).finished_rows hs e he
    rw [hretrying] at hfin
    cases hfin
  | @fire t next ht hs hcron =>
    obtain ⟨s, hs', hid', rfl⟩ := Db.of_mem_withTask ht' hid
    obtain rfl : s = t := Table.eq_of_key_eq hs' ht hid'
    exact h.statusOk_fired ht ((h.status s ht).free_of_cron hs hcron.1) rfl
  | purge => exact absurd rfl hact

end OpsMonitor.Task
