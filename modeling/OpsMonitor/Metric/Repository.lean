import OpsMonitor.Library.Columns
import OpsMonitor.Metric.Records

/-! The statements of `MetricRepository` that write: a sample is recorded, old samples are
aggregated by server and date, and old rows are deleted. -/

namespace OpsMonitor.Metric
open Library

/-- The group of a sample: its server and its date. -/
def dayOf (m : MonitorServerMetric) : ℕ × ℤ := (m.serverId, Clock.date m.collectedAt)

/-- What a `NUMERIC(12, 4)` column holds of a value, unless the value is out of its range. -/
def store : Option ℚ → Option (Option (Decimal 12 4))
  | none => some none
  | some x => (Decimal.ofRat? 12 4 x).map some

/-- The `_avg` and the `_max` of a column. -/
def aggregate (scale : ℕ) (column : List (Option ℚ)) :
    Option (Option (Decimal 12 4) × Option (Decimal 12 4)) := do
  let avg ← store (sqlAvg scale column)
  let max ← store (sqlMax column)
  pure (avg, max)

/-- The values of the row of a group. MySQL gives an average four digits more than its column. -/
def dailyRow (k : ℕ × ℤ) (samples : List MonitorServerMetric) : Option MonitorServerMetricDaily := do
  let cpuUsage ← aggregate 6 (samples.map fun m => m.cpuUsage.map Decimal.value)
  let memoryUsage ← aggregate 6 (samples.map fun m => m.memoryUsage.map Decimal.value)
  let diskUsage ← aggregate 6 (samples.map fun m => m.diskUsage.map Decimal.value)
  let load1m ← aggregate 6 (samples.map fun m => m.load1m.map Decimal.value)
  let tcpConnections ← aggregate 4 (samples.map fun m => m.tcpConnections.map Nat.cast)
  pure
    { serverId := k.1
      metricDate := k.2
      cpuUsageAvg := cpuUsage.1
      cpuUsageMax := cpuUsage.2
      memoryUsageAvg := memoryUsage.1
      memoryUsageMax := memoryUsage.2
      diskUsageAvg := diskUsage.1
      diskUsageMax := diskUsage.2
      load1mAvg := load1m.1
      load1mMax := load1m.2
      tcpConnectionsAvg := tcpConnections.1
      tcpConnectionsMax := tcpConnections.2
      sampleCount := samples.length }

namespace Db

def record (db : Db) (metric : MonitorServerMetric) : Db :=
  { db with metrics := db.metrics.insert metric }

def deleteOlderThan (db : Db) (now : Time) (days : ℤ) : Db × ℕ :=
  let old : MonitorServerMetric → Bool := fun m => m.collectedAt < now - Clock.days days
  ({ db with metrics := db.metrics.remove old }, (db.metrics.select old).length)

/-- The samples that `aggregate_daily` reads. -/
def olderThan (db : Db) (cutoff : Time) : List MonitorServerMetric :=
  db.metrics.select fun m => m.collectedAt < cutoff

def group (db : Db) (cutoff : Time) (k : ℕ × ℤ) : List MonitorServerMetric :=
  (db.olderThan cutoff).filter fun m => dayOf m = k

/-- The body of the loop over the groups. A value out of range makes the database refuse the
statement. -/
def upsertGroup (db : Db) (cutoff : Time) (acc : Db × ℕ) (k : ℕ × ℤ) : Option (Db × ℕ) := do
  let row ← dailyRow k (db.group cutoff k)
  pure ({ acc.1 with daily := acc.1.daily.upsert row }, acc.2 + 1)

def aggregateDaily (db : Db) (cutoff : Time) : Option (Db × ℕ) :=
  ((db.olderThan cutoff).map dayOf).dedup.foldlM (db.upsertGroup cutoff) (db, 0)

def deleteDailyBefore (db : Db) (now : Time) (days : ℤ) : Db × ℕ :=
  let old : MonitorServerMetricDaily → Bool :=
    fun d => d.metricDate < Clock.date (now - Clock.days days)
  ({ db with daily := db.daily.remove old }, (db.daily.rows.filter old).length)

end Db

/-! ## The row of a group -/

/-- A column that is aggregated, with its `_max`. -/
structure Column where
  of : MonitorServerMetric → Option ℚ
  maximum : MonitorServerMetricDaily → Option (Decimal 12 4)

def columns : List Column :=
  [⟨fun m => m.cpuUsage.map Decimal.value, (·.cpuUsageMax)⟩,
    ⟨fun m => m.memoryUsage.map Decimal.value, (·.memoryUsageMax)⟩,
    ⟨fun m => m.diskUsage.map Decimal.value, (·.diskUsageMax)⟩,
    ⟨fun m => m.load1m.map Decimal.value, (·.load1mMax)⟩,
    ⟨fun m => m.tcpConnections.map Nat.cast, (·.tcpConnectionsMax)⟩]

theorem of_aggregate {scale : ℕ} {column : List (Option ℚ)}
    {p : Option (Decimal 12 4) × Option (Decimal 12 4)} (h : aggregate scale column = some p)
    (hexact : ∀ x, some x ∈ column → ∃ n : ℤ, x * 10 ^ 4 = n) :
    p.2.map Decimal.value = sqlMax column := by
  obtain ⟨avg, -, h⟩ := Option.bind_eq_some_iff.mp h
  obtain ⟨max, hmax, h⟩ := Option.bind_eq_some_iff.mp h
  obtain rfl := Option.some.inj h
  cases hcolumn : sqlMax column with
  | none =>
    rw [hcolumn] at hmax
    rw [← Option.some.inj hmax]
    rfl
  | some x =>
    rw [hcolumn] at hmax
    obtain ⟨d, hd, rfl⟩ := Option.map_eq_some_iff.mp hmax
    obtain ⟨n, hn⟩ := hexact x (sqlMax_eq_some.mp hcolumn).1
    rw [Option.map_some, Decimal.value_of_ofRat? hd hn]

/-- The columns have at most four digits after the point. -/
theorem exact_of_decimal {p s : ℕ} (hs : s ≤ 4) {f : MonitorServerMetric → Option (Decimal p s)}
    {samples : List MonitorServerMetric} (x : ℚ)
    (h : some x ∈ samples.map fun m => (f m).map Decimal.value) : ∃ n : ℤ, x * 10 ^ 4 = n := by
  obtain ⟨m, -, hm⟩ := List.mem_map.mp h
  obtain ⟨d, -, rfl⟩ := Option.map_eq_some_iff.mp hm
  exact ⟨_, d.value_mul_pow hs⟩

theorem exact_of_nat {f : MonitorServerMetric → Option ℕ} {samples : List MonitorServerMetric}
    (x : ℚ) (h : some x ∈ samples.map fun m => (f m).map Nat.cast) : ∃ n : ℤ, x * 10 ^ 4 = n := by
  obtain ⟨m, -, hm⟩ := List.mem_map.mp h
  obtain ⟨n, -, rfl⟩ := Option.map_eq_some_iff.mp hm
  exact ⟨n * 10 ^ 4, by push_cast; rfl⟩

structure IsRowOf (row : MonitorServerMetricDaily) (k : ℕ × ℤ) (samples : List MonitorServerMetric) :
    Prop where
  key : index row = k
  count : row.sampleCount = samples.length
  maximum : ∀ c ∈ columns, (c.maximum row).map Decimal.value = sqlMax (samples.map c.of)

theorem of_dailyRow {k : ℕ × ℤ} {samples : List MonitorServerMetric} {row : MonitorServerMetricDaily}
    (h : dailyRow k samples = some row) : IsRowOf row k samples := by
  obtain ⟨cpuUsage, hcpu, h⟩ := Option.bind_eq_some_iff.mp h
  obtain ⟨memoryUsage, hmemory, h⟩ := Option.bind_eq_some_iff.mp h
  obtain ⟨diskUsage, hdisk, h⟩ := Option.bind_eq_some_iff.mp h
  obtain ⟨load1m, hload, h⟩ := Option.bind_eq_some_iff.mp h
  obtain ⟨tcpConnections, htcp, h⟩ := Option.bind_eq_some_iff.mp h
  obtain rfl := Option.some.inj h
  refine ⟨rfl, rfl, ?_⟩
  simp only [columns, List.forall_mem_cons, List.not_mem_nil, false_imp_iff, implies_true, and_true]
  exact ⟨of_aggregate hcpu (exact_of_decimal (by decide)),
    of_aggregate hmemory (exact_of_decimal (by decide)),
    of_aggregate hdisk (exact_of_decimal (by decide)),
    of_aggregate hload (exact_of_decimal (by decide)), of_aggregate htcp exact_of_nat⟩

/-! ## The statements -/

variable {db db' : Db} {cutoff : Time} {n : ℕ} {k : ℕ × ℤ}

theorem mem_group {m : MonitorServerMetric} :
    m ∈ db.group cutoff k ↔ m ∈ db.metrics ∧ m.collectedAt < cutoff ∧ dayOf m = k := by
  simp [Db.group, Db.olderThan, and_assoc]

theorem mem_groups :
    k ∈ ((db.olderThan cutoff).map dayOf).dedup ↔ db.group cutoff k ≠ [] := by
  rw [List.mem_dedup, List.mem_map, Db.group, ne_eq, List.filter_eq_nil_iff]
  simp

/-- `aggregate_daily` writes the row of each group, leaves the rest alone and counts the groups. -/
theorem get?_aggregateDaily (h : db.aggregateDaily cutoff = some (db', n)) :
    db'.metrics = db.metrics ∧ n = ((db.olderThan cutoff).map dayOf).dedup.length ∧
      ∀ k, db'.daily.get? k =
        if db.group cutoff k = [] then db.daily.get? k else dailyRow k (db.group cutoff k) := by
  have hloop : ∀ (groups : List (ℕ × ℤ)) (acc acc' : Db × ℕ),
      groups.foldlM (db.upsertGroup cutoff) acc = some acc' →
      acc'.1.metrics = acc.1.metrics ∧ acc'.2 = acc.2 + groups.length ∧ ∀ k,
        acc'.1.daily.get? k =
          if k ∈ groups then dailyRow k (db.group cutoff k) else acc.1.daily.get? k := by
    intro groups
    induction groups with
    | nil =>
      intro acc acc' hrun
      obtain rfl : acc = acc' := Option.some.inj hrun
      exact ⟨rfl, rfl, fun k => (if_neg List.not_mem_nil).symm⟩
    | cons k groups ih =>
      intro acc acc' hrun
      rw [List.foldlM_cons] at hrun
      obtain ⟨next, hnext, hrest⟩ := Option.bind_eq_some_iff.mp hrun
      obtain ⟨row, hrow, hnext⟩ := Option.bind_eq_some_iff.mp hnext
      obtain rfl := Option.some.inj hnext
      obtain ⟨hmetrics, hcount, hdaily⟩ := ih _ _ hrest
      refine ⟨hmetrics, by rw [hcount, List.length_cons]; omega, fun j => ?_⟩
      rw [hdaily, UniqueTable.get?_upsert, (of_dailyRow hrow).key]
      by_cases hmem : j ∈ groups
      · rw [if_pos hmem, if_pos (List.mem_cons_of_mem _ hmem)]
      · by_cases hj : k = j
        · subst hj
          rw [if_neg hmem, if_pos rfl, if_pos List.mem_cons_self, hrow]
        · have hnot : j ∉ k :: groups := List.not_mem_cons_of_ne_of_not_mem (Ne.symm hj) hmem
          rw [if_neg hmem, if_neg hj, if_neg hnot]
  obtain ⟨hmetrics, hcount, hdaily⟩ := hloop _ _ _ h
  refine ⟨hmetrics, hcount.trans (Nat.zero_add _), fun k => ?_⟩
  rw [hdaily, if_congr mem_groups rfl rfl, ite_not]

/-- It fails only on a group whose values do not fit. -/
theorem isSome_aggregateDaily :
    (db.aggregateDaily cutoff).isSome ↔
      ∀ k, db.group cutoff k ≠ [] → (dailyRow k (db.group cutoff k)).isSome := by
  have hloop : ∀ (groups : List (ℕ × ℤ)) (acc : Db × ℕ),
      (groups.foldlM (db.upsertGroup cutoff) acc).isSome ↔
        ∀ k ∈ groups, (dailyRow k (db.group cutoff k)).isSome := by
    intro groups
    induction groups with
    | nil =>
      intro acc
      simp
    | cons k groups ih =>
      intro acc
      rw [List.foldlM_cons, List.forall_mem_cons, Db.upsertGroup]
      cases hrow : dailyRow k (db.group cutoff k) with
      | none => simp
      | some row => simpa using ih _
  rw [Db.aggregateDaily, hloop]
  simp only [mem_groups]

/-- The row that a group gets holds its aggregates. -/
theorem of_aggregateDaily (h : db.aggregateDaily cutoff = some (db', n)) :
    db'.metrics = db.metrics ∧ ∀ k,
      (db.group cutoff k = [] ∧ db'.daily.get? k = db.daily.get? k) ∨
        db.group cutoff k ≠ [] ∧
          ∃ row, db'.daily.get? k = some row ∧ IsRowOf row k (db.group cutoff k) := by
  obtain ⟨hmetrics, -, hdaily⟩ := get?_aggregateDaily h
  refine ⟨hmetrics, fun k => ?_⟩
  rw [hdaily k]
  by_cases hgroup : db.group cutoff k = []
  · exact .inl ⟨hgroup, if_pos hgroup⟩
  · have hfits := isSome_aggregateDaily.mp (Option.isSome_iff_exists.mpr ⟨_, h⟩) k hgroup
    obtain ⟨row, hrow⟩ := Option.isSome_iff_exists.mp hfits
    rw [if_neg hgroup]
    exact .inr ⟨hgroup, row, hrow, of_dailyRow hrow⟩

end OpsMonitor.Metric
