import OpsMonitor.Config
import OpsMonitor.Metric.Repository

/-! The job that archives and deletes old samples (`_cleanup_old_metrics`), and what one run of
it does to the samples and to the row of a server and a date. -/

namespace OpsMonitor.Metric
open Library

/-- The instants at which the job reads the clock: for the aggregation, for the deletion of the
samples and for the deletion of the aggregates. -/
structure Readings where
  aggregated : Time
  deleted : Time
  purged : Time
  deleted_later : aggregated ≤ deleted
  purged_later : deleted ≤ purged

variable (settings : Settings) (clock : Readings)

def aggregateCutoff : Time := clock.aggregated - Clock.days settings.metricRetentionDays

def deleteCutoff : Time := clock.deleted - Clock.days settings.metricRetentionDays

def purgeCutoff : ℤ := Clock.date (clock.purged - Clock.days settings.metricAggRetentionDays)

def cleanupOldMetrics (db : Db) : Db :=
  if settings.metricCleanupEnabled then
    match db.aggregateDaily (aggregateCutoff settings clock) with
    | none => db
    | some (db, _) =>
      let (db, _) := db.deleteOlderThan clock.deleted settings.metricRetentionDays
      (db.deleteDailyBefore clock.purged settings.metricAggRetentionDays).1
  else db

/-- The job is switched on and every value of the aggregates fits its column. -/
def Runs (db : Db) : Prop :=
  settings.metricCleanupEnabled = true ∧ ∀ k, db.group (aggregateCutoff settings clock) k ≠ [] →
    (dailyRow k (db.group (aggregateCutoff settings clock) k)).isSome

/-- The job deletes the row of the server and the date. -/
def Purges (db : Db) (k : ℕ × ℤ) : Prop :=
  k.2 < purgeCutoff settings clock ∧
    (db.daily.get? k ≠ none ∨ db.group (aggregateCutoff settings clock) k ≠ [])

namespace Db

/-- The samples of a server and a date. -/
def samplesOf (db : Db) (k : ℕ × ℤ) : List MonitorServerMetric :=
  db.metrics.select fun m => dayOf m = k

def sampleCount (db : Db) (k : ℕ × ℤ) : ℕ :=
  match db.daily.get? k with
  | none => 0
  | some row => row.sampleCount

end Db

variable {settings clock} {db : Db} {k : ℕ × ℤ}

theorem aggregateCutoff_le : aggregateCutoff settings clock ≤ deleteCutoff settings clock :=
  sub_le_sub_right clock.deleted_later _

theorem mem_samplesOf {m : MonitorServerMetric} : m ∈ db.samplesOf k ↔ m ∈ db.metrics ∧ dayOf m = k := by
  simp [Db.samplesOf]

theorem group_eq (cutoff : Time) :
    db.group cutoff k = (db.samplesOf k).filter fun m => m.collectedAt < cutoff := by
  simp only [Db.group, Db.olderThan, Db.samplesOf, Table.select, List.filter_filter, Bool.and_comm]

theorem cleanup_of_not_runs (h : ¬ Runs settings clock db) : cleanupOldMetrics settings clock db = db := by
  unfold cleanupOldMetrics
  split_ifs with henabled
  · cases hrun : db.aggregateDaily (aggregateCutoff settings clock) with
    | none => rfl
    | some p =>
      refine absurd ⟨henabled, isSome_aggregateDaily.mp ?_⟩ h
      rw [hrun]
      rfl
  · rfl

/-- One run of the job: the old samples go, and each group has left its row, unless that is
old as well. -/
theorem cleanup_of_runs (h : Runs settings clock db) :
    (cleanupOldMetrics settings clock db).metrics =
        db.metrics.remove (fun m => m.collectedAt < deleteCutoff settings clock) ∧
      ∀ k, (Purges settings clock db k ∧ (cleanupOldMetrics settings clock db).daily.get? k = none) ∨
        ¬ Purges settings clock db k ∧
          ((db.group (aggregateCutoff settings clock) k = [] ∧
              (cleanupOldMetrics settings clock db).daily.get? k = db.daily.get? k) ∨
            db.group (aggregateCutoff settings clock) k ≠ [] ∧
              ∃ row, (cleanupOldMetrics settings clock db).daily.get? k = some row ∧
                IsRowOf row k (db.group (aggregateCutoff settings clock) k)) := by
  obtain ⟨⟨db', n⟩, hrun⟩ := Option.isSome_iff_exists.mp (isSome_aggregateDaily.mpr h.2)
  obtain ⟨hmetrics, hdaily⟩ := of_aggregateDaily hrun
  have hresult : cleanupOldMetrics settings clock db =
      ⟨db'.metrics.remove fun m => m.collectedAt < deleteCutoff settings clock,
        db'.daily.remove fun d => d.metricDate < purgeCutoff settings clock⟩ := by
    rw [cleanupOldMetrics, if_pos h.1, hrun]
    rfl
  rw [hresult, hmetrics]
  refine ⟨rfl, fun k => ?_⟩
  have hget := UniqueTable.get?_remove db'.daily
    (fun d => d.metricDate < purgeCutoff settings clock) k
  -- a row stays unless its date is old
  have hstays : ∀ row, db'.daily.get? k = some row →
      (db'.daily.remove fun d => d.metricDate < purgeCutoff settings clock).get? k =
        if k.2 < purgeCutoff settings clock then none else some row := by
    intro row hrow
    have hdate : row.metricDate = k.2 := congrArg Prod.snd (UniqueTable.index_of_get? hrow)
    rw [hget, hrow, Option.filter_some]
    by_cases hold : k.2 < purgeCutoff settings clock <;> simp [hdate, hold]
  rcases hdaily k with ⟨hempty, hkeep⟩ | ⟨hgroup, row, hrow, hisrow⟩
  · cases hold : db.daily.get? k with
    | none =>
      rw [hold] at hkeep
      refine .inr ⟨fun hp => hp.2.elim (fun hne => hne hold) fun hne => hne hempty,
        .inl ⟨hempty, ?_⟩⟩
      rw [hget, hkeep]
      rfl
    | some row =>
      rw [hold] at hkeep
      by_cases hdate : k.2 < purgeCutoff settings clock
      · refine .inl ⟨⟨hdate, .inl (by rw [hold]; exact nofun)⟩, ?_⟩
        rw [hstays row hkeep, if_pos hdate]
      · refine .inr ⟨fun hp => hdate hp.1, .inl ⟨hempty, ?_⟩⟩
        rw [hstays row hkeep, if_neg hdate]
  · by_cases hdate : k.2 < purgeCutoff settings clock
    · refine .inl ⟨⟨hdate, .inr hgroup⟩, ?_⟩
      rw [hstays row hrow, if_pos hdate]
    · refine .inr ⟨fun hp => hdate hp.1, .inr ⟨hgroup, row, ?_, hisrow⟩⟩
      rw [hstays row hrow, if_neg hdate]

end OpsMonitor.Metric
