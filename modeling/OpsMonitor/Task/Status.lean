import OpsMonitor.Task.Cleanup

/-! While no history is removed, the status of every task is the documented aggregate. -/

namespace OpsMonitor.Task
open Library

variable {croniter : CronIter} {kept : Prop} {db : Db}

/-- A call that is rolled back changes nothing, every other call is a run of moves. -/
theorem step_cases (croniter : CronIter) (db : Db) (e : Event) :
    (step croniter db e = db ∧ ∀ r, perform croniter db e.now e.call ≠ .ok r) ∨
      ∃ reply, perform croniter db e.now e.call = .ok (step croniter db e, reply) ∧
        Moves croniter e.now (e.call.allows croniter db e.now reply) db (step croniter db e) := by
  rcases error_or_ok (perform croniter db e.now e.call) with ⟨x, h⟩ | ⟨r, h⟩
  · exact .inl ⟨step_of_error h, fun r hr => by rw [h] at hr; cases hr⟩
  · rw [step_of_ok h]
    exact .inr ⟨r.2, h, perform_moves h⟩

/-- What every move keeps, every run keeps. -/
theorem run_of_moves {I : Db → Prop}
    (hmove : ∀ now act db db', I db → Move croniter now db act db' → I db') (h : I db)
    (es : List Event) : I (run (step croniter) db es) := by
  induction es using List.reverseRecOn with
  | nil => exact h
  | append_singleton es ev ih =>
    rw [run_concat]
    rcases step_cases croniter (run (step croniter) db es) ev with ⟨heq, -⟩ | ⟨reply, -, hm⟩
    · rwa [heq]
    · clear h
      generalize step croniter (run (step croniter) db es) ev = db' at hm
      induction hm with
      | refl => exact ih
      | tail _ hstep ih =>
        obtain ⟨act, -, hstep⟩ := hstep
        exact hmove _ act _ _ ih hstep

theorem Call.ne_purge_of_allows {call : Call} {now : Time} {reply : Reply} {act : Act}
    (hcall : ∀ days, call ≠ .cleanupHistory days) (h : call.allows croniter db now reply act) :
    act ≠ .purge := by
  rintro rfl
  cases call with
  | cleanupHistory days => exact hcall days rfl
  | _ => simp [Call.allows] at h

/-- What the four kinds of status say about the aggregate. -/
theorem Inv.documented (h : Inv True db) {t : OpsTask} (ht : t ∈ db.tasks) :
    ((t.status = .created ∨ t.status = .pending) ∧
        ∀ e ∈ db.rowsOf t.id, e.status = .pending ∧ e.attempt = 1) ∨
      (db.rowsOf t.id).Nonempty ∧ t.status = documentedAggregate (db.rowsOf t.id) := by
  cases h.status t ht with
  | waiting hs hrows => exact .inl ⟨hs, hrows⟩
  | running hs hactive hrows =>
    obtain ⟨e, he, hactive⟩ := hactive
    refine .inr ⟨⟨e, he⟩, ?_⟩
    have hlatest : e ∈ latest (db.rowsOf t.id) := by
      refine h.mem_latest he ?_
      rcases hactive with hs | hs <;> simp [hs]
    have hretry : .retrying ∉ OpsTaskExecution.status '' latest (db.rowsOf t.id) :=
      by
        rintro ⟨f, hf, hs⟩
        exact hrows f hf.1 hs
    rw [hs, documentedAggregate, documentedStatus, if_neg hretry, if_pos]
    exact hactive.imp (fun hs => ⟨e, hlatest, hs⟩) fun hs => ⟨e, hlatest, hs⟩
  | retrying hs hrow =>
    obtain ⟨e, he, hretrying⟩ := hrow
    refine .inr ⟨⟨e, he⟩, ?_⟩
    rw [hs, documentedAggregate, documentedStatus, if_pos]
    exact ⟨e, h.mem_latest he (by simp [hretrying]), hretrying⟩
  | closed _ _ hkept => exact .inr (hkept trivial)

theorem Inv.untimed_step {e : Event} (h : Inv kept db) (he : ∀ days, e.call ≠ .cleanupHistory days) :
    Inv kept (step croniter db e) := by
  rcases step_cases croniter db e with ⟨heq, -⟩ | ⟨reply, -, hm⟩
  · rwa [heq]
  · exact h.moves (fun _ => Call.ne_purge_of_allows he) hm

section Run
variable (croniter : CronIter) (servers : Table OpsServer) (services : Table OpsServerService)
  (es : List Event)

/-- The invariant along a run without cleanups, whatever the clock shows. -/
theorem inv_after (hes : ∀ e ∈ es, ∀ days, e.call ≠ .cleanupHistory days) :
    Inv True (after croniter servers services es) := by
  refine run_induction (C := fun _ e => ∀ days, e.call ≠ .cleanupHistory days)
    (I := fun _ db => Inv True db) (.fresh servers services) ?_ es ?_
  · exact fun es e hC h => h.untimed_step hC.last
  · rintro pre e post rfl
    exact hes e (by simp)

/-- Every task either waits, with nothing but unclaimed first attempts, or has rows and shows
the documented aggregate of their latest attempts. -/
theorem task_status_documented (hes : ∀ e ∈ es, ∀ days, e.call ≠ .cleanupHistory days)
    (t : OpsTask) (ht : t ∈ (after croniter servers services es).tasks) :
    ((t.status = .created ∨ t.status = .pending) ∧
        ∀ e ∈ (after croniter servers services es).rowsOf t.id,
          e.status = .pending ∧ e.attempt = 1) ∨
      ((after croniter servers services es).rowsOf t.id).Nonempty ∧
        t.status = documentedAggregate ((after croniter servers services es).rowsOf t.id) := by
  exact (inv_after croniter servers services es hes).documented ht

end Run

/-- A check whose only attempt failed with a network error shows `RETRYING`. -/
theorem task_status_documented_retrying :
    ∃ t ∈ (after Sample.everyMinute Sample.servers Sample.services Sample.retryingCheck).tasks,
      t.status = .retrying ∧ t.status = documentedAggregate
        ((after Sample.everyMinute Sample.servers Sample.services Sample.retryingCheck).rowsOf
          t.id) := by
  obtain ⟨t, ht, hs⟩ : ∃ t ∈ (after Sample.everyMinute Sample.servers Sample.services
      Sample.retryingCheck).tasks.rows, t.status = .retrying := by decide
  refine ⟨t, ht, hs, ?_⟩
  have hdoc := task_status_documented Sample.everyMinute Sample.servers Sample.services
    Sample.retryingCheck (by simp [Sample.retryingCheck]) t ht
  exact (hdoc.resolve_left fun hwait => by simp [hs] at hwait).2

end OpsMonitor.Task
