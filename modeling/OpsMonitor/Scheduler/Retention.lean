import OpsMonitor.Scheduler.Jobs
import OpsMonitor.Task.Finishing

/-! The retention of the samples and of the task history in a backend process. The two cleanups
are registered paused, so what has arrived stays. -/

namespace OpsMonitor.Scheduler
open Library Library.Intervals

/-- At `t` no sample and no finished execution is a day older than its retention. -/
def Retained (settings : Settings) (t : ℕ) (s : Site) : Prop :=
  (∀ m ∈ s.samples.metrics,
      (t : Time) - Clock.days settings.metricRetentionDays - hours 24 ≤ m.collectedAt) ∧
    ∀ r ∈ s.tasks.executions,
      ¬ Task.Old (t - Clock.days settings.taskRetentionDays - hours 24) r

section
variable (settings : Settings) (croniter : Task.CronIter) (inputs : ℕ → List Input)
  (start : Redis × Site)

/-- The execution `r` becomes terminal within the millisecond after `n`. -/
def FinishesAfter (n : ℕ) (r : Task.OpsTaskExecution) : Prop :=
  r ∈ (backendAt settings croniter inputs start (n + 1)).2.tasks.executions ∧
    r ∉ (backendAt settings croniter inputs start n).2.tasks.executions ∧ r.status.finished = true

/-- At `T` everything that was there, arrived or finished is still within its retention and a
day. -/
structure AllRecent (T : ℕ) : Prop where
  stored : Retained settings T start.2
  arrived : ∀ n < T, ∀ metric, .record metric ∈ inputs (n + 1) →
    (T : Time) - Clock.days settings.metricRetentionDays - hours 24 ≤ metric.collectedAt
  finished : ∀ n < T, ∀ r, FinishesAfter settings croniter inputs start n r →
    (T : Time) - Clock.days settings.taskRetentionDays - hours 24 ≤ n + 1

end

variable {settings : Settings} {croniter : Task.CronIter} {inputs : ℕ → List Input}
  {start : Redis × Site} {n : ℕ}

/-! ## One millisecond -/

/-- Neither cleanup is ever due. -/
theorem ne_cleanup_of_active {k : JobName} (h : Active (setupScheduler settings) k) :
    k ≠ .cleanupOldMetrics ∧ k ≠ .cleanupOldTaskExecutions := by
  have hpaused : ∀ j ∈ setupScheduler settings, j.nextRunTime ≠ none →
      j.name ≠ .cleanupOldMetrics ∧ j.name ≠ .cleanupOldTaskExecutions := by
    simp [setupScheduler, addJob]
  obtain ⟨j, hj, rfl, hactive⟩ := h
  exact hpaused j hj hactive

/-- What the other jobs preserve holds after a millisecond, once the requests establish it. -/
theorem site_succ {P : Site → Prop}
    (hjob : ∀ k, k ≠ .cleanupOldMetrics → k ≠ .cleanupOldTaskExecutions → ∀ s, P s →
      P (job settings croniter (n + 1 : ℕ) s k))
    (hs : P ((inputs (n + 1)).foldl (fun site x => x.apply croniter (n + 1 : ℕ) site)
      (backendAt settings croniter inputs start n).2)) :
    P (backendAt settings croniter inputs start (n + 1)).2 := by
  refine elapse_succ (P := fun s : Redis × Site => P s.2) n (fun k hk s hP => ?_) hs
  obtain ⟨hmetrics, hexecutions⟩ := ne_cleanup_of_active hk
  rcases runWithLock_snd settings k.id (n + 1 : ℕ)
    (fun site => job settings croniter (n + 1 : ℕ) site k) s with hrun | hskip
  · rw [perform, hrun]
    exact hjob k hmetrics hexecutions s.2 hP
  · rw [perform, hskip]
    exact hP

/-- The samples of a list of requests. -/
theorem forall_samples_foldl {P : Time → Prop} {now : Time} {l : List Input} {s : Site} :
    (∀ m ∈ (l.foldl (fun site x => x.apply croniter now site) s).samples.metrics, P m.collectedAt) ↔
      (∀ m ∈ s.samples.metrics, P m.collectedAt) ∧
        ∀ metric, .record metric ∈ l → P metric.collectedAt := by
  induction l generalizing s with
  | nil => simp
  | cons x l ih =>
    rw [List.foldl_cons, ih]
    cases x with
    | record metric =>
      have hinsert : (∀ m ∈ ((Input.record metric).apply croniter now s).samples.metrics,
          P m.collectedAt) ↔ (∀ m ∈ s.samples.metrics, P m.collectedAt) ∧ P metric.collectedAt := by
        constructor
        · intro h
          exact ⟨fun m hm => h m (Table.mem_insert.mpr (.inl hm)),
            h (Keyed.withKey s.samples.metrics.next metric) (Table.mem_insert.mpr (.inr rfl))⟩
        · rintro ⟨hold, hnew⟩ m hm
          rcases Table.mem_insert.mp hm with hm | rfl
          · exact hold m hm
          · exact hnew
      rw [hinsert, and_assoc]
      refine and_congr_right fun _ => ?_
      simp
    | task call request | other servers services rules events eventLogs => simp [Input.apply]

/-- After a millisecond the samples are the old ones and those that arrived. -/
theorem forall_samples_succ {P : Time → Prop} :
    (∀ m ∈ (backendAt settings croniter inputs start (n + 1)).2.samples.metrics,
        P m.collectedAt) ↔
      (∀ m ∈ (backendAt settings croniter inputs start n).2.samples.metrics, P m.collectedAt) ∧
        ∀ metric, .record metric ∈ inputs (n + 1) → P metric.collectedAt := by
  have hrequests := @forall_samples_foldl croniter P (n + 1 : ℕ) (inputs (n + 1))
    (backendAt settings croniter inputs start n).2
  have hsame : (backendAt settings croniter inputs start (n + 1)).2.samples.metrics =
      ((inputs (n + 1)).foldl (fun site x => x.apply croniter (n + 1 : ℕ) site)
        (backendAt settings croniter inputs start n).2).samples.metrics := by
    refine site_succ (P := fun s => s.samples.metrics = _) (fun k hmetrics _ s hP => ?_) rfl
    rw [← hP]
    cases k with
    | cleanupOldMetrics => exact absurd rfl hmetrics
    | cleanupOldTaskExecutions =>
      unfold job
      split_ifs <;> rfl
    | _ => rfl
  rw [hsame, hrequests]

theorem finishes_foldl {now : Time} {l : List Input} {s : Site} :
    Task.Finishes now s.tasks (l.foldl (fun site x => x.apply croniter now site) s).tasks := by
  induction l generalizing s with
  | nil => exact .refl _ _
  | cons x l ih =>
    refine .trans ?_ ih
    cases x with
    | task call request => exact @Task.finishes_step croniter s.tasks ⟨now, call⟩ request
    | record metric => exact .refl _ _
    | other servers services rules events eventLogs =>
      exact ⟨fun _ hr _ => hr, fun _ hr _ => .inl hr⟩

/-- Over a millisecond the finished executions stay, and those that finish carry its time. -/
theorem finishes_succ :
    Task.Finishes (n + 1 : ℕ) (backendAt settings croniter inputs start n).2.tasks
      (backendAt settings croniter inputs start (n + 1)).2.tasks := by
  refine site_succ (P := fun s => Task.Finishes (n + 1 : ℕ)
    (backendAt settings croniter inputs start n).2.tasks s.tasks) (fun k _ hexecutions s hP => ?_)
    finishes_foldl
  cases k with
  | cleanupOldTaskExecutions => exact absurd rfl hexecutions
  | scanTaskTimeouts => exact hP.trans (@Task.finishes_step croniter s.tasks ⟨_, .scanTimeouts⟩ nofun)
  | dispatchTaskRetries =>
    exact hP.trans (@Task.finishes_step croniter s.tasks ⟨_, .dispatchRetries 50⟩ nofun)
  | fireDueCronTasks => exact hP.trans (@Task.finishes_step croniter s.tasks ⟨_, .fireDueCron⟩ nofun)
  | refreshAgentStatus | cleanupOldMetrics | evaluateAlerts =>
    exact ⟨hP.kept, hP.dated⟩

/-! ## The whole run -/

theorem forall_samples_at {P : Time → Prop} :
    (∀ m ∈ (backendAt settings croniter inputs start n).2.samples.metrics, P m.collectedAt) ↔
      (∀ m ∈ start.2.samples.metrics, P m.collectedAt) ∧
        ∀ i < n, ∀ metric, .record metric ∈ inputs (i + 1) → P metric.collectedAt := by
  induction n with
  | zero => simp [backendAt, elapse]
  | succ n ih =>
    rw [forall_samples_succ, ih, and_assoc]
    refine and_congr_right fun _ => ?_
    rw [Nat.forall_lt_succ_right]

theorem forall_finished_at {P : Task.OpsTaskExecution → Prop} :
    (∀ r ∈ (backendAt settings croniter inputs start n).2.tasks.executions,
        r.status.finished = true → P r) ↔
      (∀ r ∈ start.2.tasks.executions, r.status.finished = true → P r) ∧
        ∀ i < n, ∀ r, FinishesAfter settings croniter inputs start i r → P r := by
  induction n with
  | zero => simp [backendAt, elapse]
  | succ n ih =>
    rw [Nat.forall_lt_succ_right, ← and_assoc, ← ih]
    constructor
    · intro h
      exact ⟨fun r hr hfin => h r (finishes_succ.kept r hr hfin) hfin, fun r hr => h r hr.1 hr.2.2⟩
    · rintro ⟨hold, hnew⟩ r hr hfin
      by_cases hbefore : r ∈ (backendAt settings croniter inputs start n).2.tasks.executions
      · exact hold r hbefore hfin
      · exact hnew r ⟨hr, hbefore, hfin⟩

theorem FinishesAfter.finishedAt {r : Task.OpsTaskExecution}
    (h : FinishesAfter settings croniter inputs start n r) : r.finishedAt = some ((n + 1 : ℕ) : Time) :=
  (finishes_succ.dated r h.1 h.2.2).resolve_left h.2.1

theorem not_old_iff {cutoff : Time} {r : Task.OpsTaskExecution} :
    ¬ Task.Old cutoff r ↔ (r.status.finished = true → ∀ a ∈ r.finishedAt, cutoff ≤ a) := by
  simp only [Task.Old, not_and, not_exists, not_lt]

/-- What is retained at a time depends on what was there, arrived and finished before. -/
theorem retained_iff {t : ℕ} :
    Retained settings t (backendAt settings croniter inputs start n).2 ↔
      Retained settings t start.2 ∧
        (∀ i < n, ∀ metric, .record metric ∈ inputs (i + 1) →
          (t : Time) - Clock.days settings.metricRetentionDays - hours 24 ≤ metric.collectedAt) ∧
        ∀ i < n, ∀ r, FinishesAfter settings croniter inputs start i r →
          (t : Time) - Clock.days settings.taskRetentionDays - hours 24 ≤ (i + 1 : ℕ) := by
  have hfinished := fun i r (h : FinishesAfter settings croniter inputs start i r) => h.finishedAt
  unfold Retained
  simp only [not_old_iff]
  rw [forall_samples_at (P := fun c => (t : Time) - Clock.days settings.metricRetentionDays -
    hours 24 ≤ c), forall_finished_at]
  constructor
  · rintro ⟨⟨hstored, harrived⟩, hstored', hfin⟩
    refine ⟨⟨hstored, hstored'⟩, harrived, fun i hi r hr => ?_⟩
    exact hfin i hi r hr _ (hfinished i r hr)
  · rintro ⟨⟨hstored, hstored'⟩, harrived, hfin⟩
    refine ⟨⟨hstored, harrived⟩, hstored', fun i hi r hr a ha => ?_⟩
    obtain rfl := Option.some.inj (Option.mem_def.mp ha ▸ hfinished i r hr)
    exact hfin i hi r hr

theorem Retained.mono {t t' : ℕ} {s : Site} (h : Retained settings t' s) (hle : t ≤ t') :
    Retained settings t s := by
  have hcast : (t : Time) ≤ t' := by exact_mod_cast hle
  refine ⟨fun m hm => le_trans ?_ (h.1 m hm), fun r hr hold => h.2 r hr ⟨hold.1, ?_⟩⟩
  · exact sub_le_sub_right (sub_le_sub_right hcast _) _
  · obtain ⟨a, ha, hlt⟩ := hold.2
    exact ⟨a, ha, hlt.trans_le (sub_le_sub_right (sub_le_sub_right hcast _) _)⟩

/-- Up to `T` the retention is kept exactly when the process is younger than a day or nothing
has had the time to grow old. -/
theorem retention_kept (settings : Settings) (croniter : Task.CronIter) (inputs : ℕ → List Input)
    (start : Redis × Site) (T : ℕ) :
    (∀ t, hours 24 < t → t ≤ T → Retained settings t (backendAt settings croniter inputs start t).2) ↔
      T ≤ hours 24 ∨ AllRecent settings croniter inputs start T := by
  constructor
  · intro h
    rcases le_or_gt T (hours 24) with hyoung | hday
    · exact .inl hyoung
    · obtain ⟨hstored, harrived, hfinished⟩ := retained_iff.mp (h T hday le_rfl)
      exact .inr ⟨hstored, harrived, fun i hi r hr => by exact_mod_cast hfinished i hi r hr⟩
  · rintro (hyoung | hrecent) t hday hle
    · exact absurd (hday.trans_le hle) hyoung.not_gt
    · have hall : Retained settings T (backendAt settings croniter inputs start t).2 :=
        retained_iff.mpr ⟨hrecent.stored, fun i hi => hrecent.arrived i (hi.trans_le hle),
          fun i hi r hr => by exact_mod_cast hrecent.finished i (hi.trans_le hle) r hr⟩
      exact hall.mono hle

/-! ## One sample -/

/-- The tables of a new installation. -/
def freshSite : Site := ⟨.fresh .empty .empty, .empty, .empty, .empty, .empty⟩

/-- A sample of the first millisecond that reports nothing but the time. -/
def firstSample : Metric.MonitorServerMetric :=
  ⟨0, 1, 1, none, none, none, none, none, none, none, none, none, none, none⟩

/-- A single sample is still there eight days later. -/
theorem first_sample_stays :
    ¬ ∀ (settings : Settings) (croniter : Task.CronIter) (inputs : ℕ → List Input)
      (start : Redis × Site), settings.metricCleanupEnabled = true →
      settings.taskCleanupEnabled = true →
      (∀ (n : ℕ) (metric : Metric.MonitorServerMetric), .record metric ∈ inputs n →
        |metric.collectedAt - n| ≤ Clock.seconds 300) →
        ∀ t, hours 24 < t → Retained settings t (backendAt settings croniter inputs start t).2 := by
  intro h
  have hall := h {} (fun _ _ => none) (fun n => if n = 1 then [.record firstSample] else [])
    (.empty, freshSite) rfl rfl ?_ (hours (8 * 24) + 2) (by decide)
  · have harrived := (retained_iff.mp hall).2.1 0 (by decide) firstSample (by simp)
    revert harrived
    decide
  · intro n metric hmem
    split_ifs at hmem with hn
    · rw [List.mem_singleton, Input.record.injEq] at hmem
      rw [hmem, hn]
      decide
    · cases hmem

end OpsMonitor.Scheduler
