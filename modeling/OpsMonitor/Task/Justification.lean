import OpsMonitor.Task.Cancellation
import OpsMonitor.Task.Lifecycle

/-! Why a retry happens. A row waits for its retry only because of a report, the last one
about it, and only the dispatch of such a row adds an attempt; a finished attempt is the last
one of its target. -/

namespace OpsMonitor.Task
open Library

variable {croniter : CronIter} {kept : Prop} {db : Db} {ev : Event} {es : List Event}

/-! ## The report behind a waiting row -/

/-- The event is a report of the row's server about the row. -/
def ReportOn (e : OpsTaskExecution) (ev : Event) : Prop :=
  ∃ data, ev.call = .reportResult e.serverId data ∧ data.executionId = e.id

/-- The last report about the row `e` in the history `es`. -/
def LastReport (e : OpsTaskExecution) (es : List Event) (t₀ : Time) (data : TaskResultRequest) :
    Prop :=
  ∃ pre post, es = pre ++ ⟨t₀, .reportResult e.serverId data⟩ :: post ∧ data.executionId = e.id ∧
    ∀ ev ∈ post, ¬ ReportOn e ev

/-- The last report about `e` was a retryable failure, and the next attempt is due one backoff
after it. -/
def Justified (es : List Event) (e : OpsTaskExecution) : Prop :=
  ∃ t₀ data, LastReport e es t₀ data ∧ data.status ≠ "SUCCESS" ∧
    Retry.classifyError data.errorType data.errorMessage ∈ Retry.retryableErrorTypes ∧
    e.nextRetryAt = some (t₀ + Clock.seconds (Retry.backoffSeconds e.attempt))

theorem LastReport.concat {e : OpsTaskExecution} {t₀ : Time} {data : TaskResultRequest}
    (h : LastReport e es t₀ data) (hev : ¬ ReportOn e ev) : LastReport e (es ++ [ev]) t₀ data := by
  obtain ⟨pre, post, rfl, hid, hpost⟩ := h
  refine ⟨pre, post ++ [ev], by simp, hid, fun ev' hmem => ?_⟩
  rcases List.mem_append.mp hmem with hmem | hmem
  · exact hpost ev' hmem
  · rwa [List.mem_singleton.mp hmem]

/-- A report about an unfinished row decides about it. -/
theorem Inv.verdict_of_reportOn (h : Inv kept db) {e : OpsTaskExecution} (he : e ∈ db.executions)
    (hopen : e.status.finished = false) (hev : ReportOn e ev) :
    verdict db ev.now e ev.call ≠ none := by
  obtain ⟨data, hcall, hid⟩ := hev
  obtain ⟨t, ht, htid, -⟩ := h.task_of e he
  rw [hcall, verdict, if_pos ⟨hid.symm, rfl, hopen⟩, getTask_eq ht htid]
  simp

theorem Inv.justified_step (h : Inv kept db)
    (hjust : ∀ e ∈ db.executions, e.status = .retrying → Justified es e) :
    ∀ e ∈ (step croniter db ev).executions, e.status = .retrying → Justified (es ++ [ev]) e := by
  intro r hr hretrying
  rcases h.rowOrigin hr with ⟨hr, hnone⟩ | ⟨hs, hrow, hdec⟩ | ⟨-, hpending, -⟩ | ⟨-, -, -, hpending, -⟩
  · obtain ⟨t₀, data, hlast, hrest⟩ := hjust r hr hretrying
    have hother : ¬ ReportOn r ev := fun hon =>
      h.verdict_of_reportOn hr (by rw [hretrying]; rfl) hon hnone
    exact ⟨t₀, data, hlast.concat hother, hrest⟩
  · obtain ⟨data, t, hcall, hid, -, -, hfail, hretryable, -⟩ := hdec.of_retrying hretrying
    have hevent : ev = ⟨ev.now, .reportResult r.serverId data⟩ := by
      rw [hrow.serverId, ← hcall]
    refine ⟨ev.now, data, ⟨es, [], by rw [← hevent], (hrow.id.trans hid).symm, nofun⟩, hfail,
      of_decide_eq_true hretryable, ?_⟩
    rw [hdec.delayed hretrying, hrow.attempt]
  · rw [hpending] at hretrying
    cases hretrying
  · rw [hpending] at hretrying
    cases hretrying

/-! ## Deadlines -/

theorem Move.deadlines {now : Time} {act : Act} {db' : Db} (hm : Move croniter now db act db')
    (h : ∀ t ∈ db.tasks, t.deadlineAt.isSome = true) :
    ∀ t ∈ db'.tasks, t.deadlineAt.isSome = true := by
  intro t ht
  cases hm.taskOrigin ht with
  | old hs hsame | confirmed hs hsame =>
    rw [hsame.deadlineAt]
    exact h _ hs
  | inserted _ _ _ hdeadline => exact hdeadline

/-! ## Finished chains -/

/-- Every row on the target of `e` is one of the first `n` rows and finished, and the task of
`e` had its first attempts. -/
structure Closed (e : OpsTaskExecution) (n : ℕ) (db : Db) : Prop where
  started : Started e.taskId db
  rows : ∀ r ∈ db.executions, SameChain e r → r.id < n ∧ r.status.finished = true

theorem SameChain.trans {e f g : OpsTaskExecution} (h : SameChain e f) (h' : SameChain f g) :
    SameChain e g := ⟨h.1.trans h'.1, h.2.trans h'.2⟩

theorem Closed.step {e : OpsTaskExecution} {n : ℕ} (hc : Closed e n db) (h : Inv False db)
    (ht : Timely ev.now db) : Closed e n (step croniter db ev) := by
  obtain ⟨hstarted, hfirst⟩ := started_step croniter h ht hc.started
  refine ⟨hstarted, fun r hr hchain => ?_⟩
  rcases h.rowOrigin hr with ⟨hr, -⟩ | ⟨hs, hrow, hdec⟩ | ⟨hnew, -, hattempt⟩ | ⟨-, -, hs, -, hnext⟩
  · exact hc.rows r hr hchain
  · have hopen := hdec.open
    rw [(hc.rows _ hs (hchain.trans ⟨hrow.taskId, hrow.targetId⟩)).2] at hopen
    cases hopen
  · refine absurd ⟨r, hr, hchain.1.symm, hattempt, fun s hs heq => ?_⟩ hfirst
    have hlt : s.id < db.executions.next := Table.key_lt hs
    omega
  · have hfin := (hc.rows _ hs.mem (hchain.trans hnext.1.symm)).2
    rw [(mem_listDueRetries hs.1).2.1] at hfin
    cases hfin

/-- A finished row without a later attempt closes its target. -/
theorem Inv.closed (h : Inv kept db) {e : OpsTaskExecution} (he : e ∈ db.executions)
    (hfin : e.status.finished = true)
    (hlast : ∀ f ∈ db.executions, SameChain e f → f.attempt ≤ e.attempt) :
    Closed e db.executions.next db where
  started := h.started he
  rows := by
    intro r hr hchain
    refine ⟨Table.key_lt hr, ?_⟩
    rcases (hlast r hr hchain).lt_or_eq with hlt | heq
    · rw [h.superseded r hr e he hchain.symm hlt]
      rfl
    · rwa [h.unique r hr e he hchain.symm heq]

/-! ## Runs -/

section Run
variable (croniter : CronIter) (servers : Table OpsServer) (services : Table OpsServerService)

theorem justified_after (hes : Chronological es) :
    ∀ e ∈ (after croniter servers services es).executions, e.status = .retrying →
      Justified es e := by
  induction es using List.reverseRecOn with
  | nil => exact fun e he => absurd he (Table.notMem_empty e)
  | append_singleton es ev ih =>
    have hpre : Chronological es := (List.pairwise_append.mp hes).1
    rw [after_concat]
    exact (timed_inv_after croniter servers services hpre).1.justified_step (ih hpre)

theorem deadlines_after (es : List Event) :
    ∀ t ∈ (after croniter servers services es).tasks, t.deadlineAt.isSome = true :=
  run_of_moves (fun _ _ _ _ h hm => hm.deadlines h) (fun t ht => absurd ht (Table.notMem_empty t)) es

theorem closed_after {e : OpsTaskExecution} {n : ℕ} {pre post : List Event}
    (hes : Chronological (pre ++ post)) (hc : Closed e n (after croniter servers services pre)) :
    Closed e n (after croniter servers services (pre ++ post)) := by
  induction post using List.reverseRecOn with
  | nil => rwa [List.append_nil]
  | append_singleton post ev ih =>
    rw [← List.append_assoc] at hes ⊢
    have hpre : Chronological (pre ++ post) := (List.pairwise_append.mp hes).1
    obtain ⟨hinv, htimely⟩ := timed_inv_after croniter servers services hpre
    rw [after_concat]
    exact (ih hpre).step hinv (htimely ev.now hes.along.last)

/-- What stands behind a new attempt `r` that an event at `now` adds after the history `es`. -/
structure JustifiedRetry (es : List Event) (now : Time) (r s : OpsTaskExecution) (t₀ : Time)
    (data : TaskResultRequest) (t : OpsTask) : Prop where
  next : IsNext s r
  waiting : s.status = .retrying
  report : LastReport s es t₀ data
  failure : data.status ≠ "SUCCESS"
  retryable : Retry.classifyError data.errorType data.errorMessage ∈ Retry.retryableErrorTypes
  backoff : t₀ + Clock.seconds (Retry.backoffSeconds (r.attempt - 1)) ≤ now
  task : t.id = r.taskId
  budget : r.attempt ≤ t.maxAttempts
  deadline : ∃ d ∈ t.deadlineAt, now < d
  unfinished : t.status.finished = false

theorem justifiedRetry_of_new (hes : Chronological (es ++ [ev])) {r : OpsTaskExecution}
    (hr : r ∈ (after croniter servers services (es ++ [ev])).executions)
    (hnew : ∀ s ∈ (after croniter servers services es).executions, s.id ≠ r.id)
    (hattempt : 2 ≤ r.attempt) :
    ∃ s ∈ (after croniter servers services es).executions,
      ∃ t ∈ (after croniter servers services es).tasks, ∃ t₀ data,
        JustifiedRetry es ev.now r s t₀ data t := by
  have hpre : Chronological es := (List.pairwise_append.mp hes).1
  have hinv := (timed_inv_after croniter servers services hpre).1
  rw [after_concat] at hr
  rcases hinv.rowOrigin hr with ⟨hr, -⟩ | ⟨hs, hrow, -⟩ | ⟨-, -, hfirst⟩ | ⟨-, -, hs, -, hnext⟩
  · exact absurd rfl (hnew r hr)
  · exact absurd hrow.id.symm (hnew _ hs)
  · omega
  · rename_i limit s
    obtain ⟨hdue, t, hget, hretry⟩ := hs
    obtain ⟨ht, htid⟩ := Table.get?_eq_some.mp hget
    obtain ⟨hmem, hretrying, a, ha, hle⟩ := mem_listDueRetries hdue
    obtain ⟨t₀, data, hlast, hfail, hretryable, hat⟩ :=
      justified_after croniter servers services hpre s hmem hretrying
    obtain rfl := Option.mem_unique ha hat
    obtain ⟨hlt, hdeadline⟩ := canRetry_iff.mp hretry
    obtain ⟨d, hd⟩ := Option.isSome_iff_exists.mp
      (deadlines_after croniter servers services es t ht)
    have hnum := hnext.2
    refine ⟨s, hmem, t, ht, t₀, data, hnext, hretrying, hlast, hfail, hretryable, ?_, ?_, ?_,
      ⟨d, hd, hdeadline d hd⟩, ?_⟩
    · rwa [hnum, Nat.add_sub_cancel]
    · exact htid.trans hnext.1.1
    · omega
    · rw [← Bool.not_eq_true]
      intro hfin
      have hsfin := (hinv.status t ht).finished_rows hfin s ⟨hmem, htid.symm⟩
      rw [hretrying] at hsfin
      cases hsfin

/-- Behind every attempt after the first one stands the last report about the attempt before
it, a retryable failure at least one backoff ago, and the task had attempts and time left. A
finished attempt that is the latest of its target stays the latest. -/
theorem retries_justified (hes : Chronological es) :
    (∀ pre ev post, es = pre ++ ev :: post →
      ∀ r ∈ (after croniter servers services (pre ++ [ev])).executions,
        (∀ s ∈ (after croniter servers services pre).executions, s.id ≠ r.id) → 2 ≤ r.attempt →
          ∃ s ∈ (after croniter servers services pre).executions,
            ∃ t ∈ (after croniter servers services pre).tasks, ∃ t₀ data,
              JustifiedRetry pre ev.now r s t₀ data t) ∧
    ∀ pre post, es = pre ++ post → ∀ e ∈ (after croniter servers services pre).executions,
      e.status.finished = true →
      (∀ f ∈ (after croniter servers services pre).executions, SameChain e f →
        f.attempt ≤ e.attempt) →
      ∀ r ∈ (after croniter servers services es).executions, SameChain e r →
        r.id < (after croniter servers services pre).executions.next := by
  constructor
  · rintro pre ev post rfl r hr hnew hattempt
    have hpre : Chronological (pre ++ [ev]) := by
      have hall : Chronological ((pre ++ [ev]) ++ post) := by simpa using hes
      exact (List.pairwise_append.mp hall).1
    exact justifiedRetry_of_new croniter servers services hpre hr hnew hattempt
  · rintro pre post rfl e he hfin hlast r hr hchain
    have hinv := (timed_inv_after croniter servers services (List.pairwise_append.mp hes).1).1
    have hclosed := closed_after croniter servers services hes (hinv.closed he hfin hlast)
    exact (hclosed.rows r hr hchain).1

end Run

/-- The second attempt of a check, five seconds after its network error. -/
theorem retries_justified_retried :
    ∃ r ∈ (after Sample.everyMinute Sample.servers Sample.services
        (Sample.retryingCheck ++ [⟨7000, .dispatchRetries 50⟩])).executions, r.attempt = 2 ∧
      ∃ s ∈ (after Sample.everyMinute Sample.servers Sample.services
          Sample.retryingCheck).executions,
        ∃ t ∈ (after Sample.everyMinute Sample.servers Sample.services Sample.retryingCheck).tasks,
          ∃ t₀ data, JustifiedRetry Sample.retryingCheck 7000 r s t₀ data t := by
  obtain ⟨r, hr, hattempt, hnew⟩ : ∃ r ∈ (after Sample.everyMinute Sample.servers Sample.services
      (Sample.retryingCheck ++ [⟨7000, .dispatchRetries 50⟩])).executions, r.attempt = 2 ∧
        ∀ s ∈ (after Sample.everyMinute Sample.servers Sample.services
          Sample.retryingCheck).executions, s.id ≠ r.id := by decide
  refine ⟨r, hr, hattempt, ?_⟩
  exact (retries_justified Sample.everyMinute Sample.servers Sample.services
    (by decide : Chronological (Sample.retryingCheck ++ [⟨7000, .dispatchRetries 50⟩]))).1
    Sample.retryingCheck ⟨7000, .dispatchRetries 50⟩ [] rfl r hr hnew hattempt.ge

end OpsMonitor.Task
