import OpsMonitor.Exceptions
import OpsMonitor.Library.Columns
import OpsMonitor.Library.Double
import OpsMonitor.Metric.Records
import OpsMonitor.Server.Records

/-! The summary of a server (`MonitorService.get_summary`): the samples of a window of time, put
in buckets of one width and aggregated. -/

namespace OpsMonitor.Metric
open Library

/-! ## The rows of the buckets -/

structure Aggregates where
  avg : Option ℚ
  max : Option ℚ
  min : Option ℚ
  deriving DecidableEq

def aggregates (scale : ℕ) (column : List (Option ℚ)) : Aggregates :=
  ⟨sqlAvg scale column, sqlMax column, sqlMin column⟩

structure SummaryRow where
  bucket : Time
  cpuUsage : Aggregates
  memoryUsage : Aggregates
  diskUsage : Aggregates
  load1m : Aggregates
  load5m : Aggregates
  load15m : Aggregates
  tcpConnections : Aggregates
  networkInMax : Option ℕ
  networkOutMax : Option ℕ
  deriving DecidableEq

/-- `FLOOR(UNIX_TIMESTAMP(t) / bucket_seconds)`. -/
def bucketOf (bucketSeconds : ℕ) (t : Time) : ℤ := t / Clock.seconds bucketSeconds

/-- `FROM_UNIXTIME(k * bucket_seconds)`. -/
def bucketTime (bucketSeconds : ℕ) (k : ℤ) : Time := k * Clock.seconds bucketSeconds

def decimals {p s : ℕ} (of : MonitorServerMetric → Option (Decimal p s))
    (samples : List MonitorServerMetric) : List (Option ℚ) :=
  samples.map fun m => (of m).map Decimal.value

/-- The row of a bucket. MySQL gives an average four digits more than its column. -/
def summaryRow (bucketSeconds : ℕ) (k : ℤ) (samples : List MonitorServerMetric) : SummaryRow where
  bucket := bucketTime bucketSeconds k
  cpuUsage := aggregates 6 (decimals (·.cpuUsage) samples)
  memoryUsage := aggregates 6 (decimals (·.memoryUsage) samples)
  diskUsage := aggregates 6 (decimals (·.diskUsage) samples)
  load1m := aggregates 6 (decimals (·.load1m) samples)
  load5m := aggregates 6 (decimals (·.load5m) samples)
  load15m := aggregates 6 (decimals (·.load15m) samples)
  tcpConnections := aggregates 4 (samples.map fun m => m.tcpConnections.map Nat.cast)
  networkInMax := (samples.filterMap (·.networkInBytes)).max?
  networkOutMax := (samples.filterMap (·.networkOutBytes)).max?

/-- The samples of a server between two instants in microseconds, both included. -/
def window (metrics : Table MonitorServerMetric) (serverId : ℕ) (start stop : ℤ) :
    List MonitorServerMetric :=
  metrics.select fun m =>
    m.serverId = serverId ∧ start ≤ 1000 * m.collectedAt ∧ 1000 * m.collectedAt ≤ stop

def inBucket (bucketSeconds : ℕ) (samples : List MonitorServerMetric) (k : ℤ) :
    List MonitorServerMetric := samples.filter fun m => bucketOf bucketSeconds m.collectedAt = k

/-- The buckets that have a sample, in order. -/
def buckets (bucketSeconds : ℕ) (samples : List MonitorServerMetric) : List ℤ :=
  (samples.map fun m => bucketOf bucketSeconds m.collectedAt).dedup.insertionSort (· ≤ ·)

/-- `MetricRepository.get_summary`. -/
def MetricRepository.getSummary (metrics : Table MonitorServerMetric) (serverId : ℕ) (start stop : ℤ)
    (bucketSeconds : ℕ) : List SummaryRow :=
  let samples := window metrics serverId start stop
  (buckets bucketSeconds samples).map fun k =>
    summaryRow bucketSeconds k (inBucket bucketSeconds samples k)

/-! ## The points -/

structure MetricBucketValue where
  avg : Option ℚ
  max : Option ℚ
  min : Option ℚ
  deriving DecidableEq

structure MetricBucket where
  time : Time
  cpuUsage : Option MetricBucketValue
  memoryUsage : Option MetricBucketValue
  diskUsage : Option MetricBucketValue
  load1m : Option MetricBucketValue
  load5m : Option MetricBucketValue
  load15m : Option MetricBucketValue
  tcpConnections : Option MetricBucketValue
  networkInRate : ℚ
  networkOutRate : ℚ
  deriving DecidableEq

structure MetricSummary where
  range : String
  bucketSeconds : ℕ
  start : ℤ
  stop : ℤ
  points : List MetricBucket

/-- `RANGE_CONFIG`: the seconds of a range and of its buckets. -/
def rangeConfig (rangeKey : String) : Option (ℕ × ℕ) :=
  if rangeKey = "1h" then some (3600, 60)
  else if rangeKey = "6h" then some (21600, 60)
  else if rangeKey = "24h" then some (86400, 300)
  else if rangeKey = "7d" then some (604800, 3600)
  else none

/-- `_bucket`. -/
def bucketValue (a : Aggregates) : Option MetricBucketValue :=
  if a.avg = none ∧ a.max = none ∧ a.min = none then none
  else
    let round (x : ℚ) := Double.roundTo 2 (Double.ofRat x)
    some ⟨a.avg.map round, a.max.map round, a.min.map round⟩

/-- `round(max(0, current - prev) / bucket / _MB, 4)`, or `0.0` without two counters. -/
def networkRate (bucketSeconds : ℕ) (prev current : Option ℕ) : ℚ :=
  match prev, current with
  | some prev, some current =>
    Double.roundTo 4 (Double.ofRat (Double.ofRat (((current - prev : ℕ) : ℚ) / bucketSeconds) / 2 ^ 20))
  | _, _ => 0

/-- The loop over the rows, with the counters of the row before. -/
def points (bucketSeconds : ℕ) (prevIn prevOut : Option ℕ) : List SummaryRow → List MetricBucket
  | [] => []
  | row :: rows =>
    { time := row.bucket
      cpuUsage := bucketValue row.cpuUsage
      memoryUsage := bucketValue row.memoryUsage
      diskUsage := bucketValue row.diskUsage
      load1m := bucketValue row.load1m
      load5m := bucketValue row.load5m
      load15m := bucketValue row.load15m
      tcpConnections := bucketValue row.tcpConnections
      networkInRate := networkRate bucketSeconds prevIn row.networkInMax
      networkOutRate := networkRate bucketSeconds prevOut row.networkOutMax } ::
    points bucketSeconds row.networkInMax row.networkOutMax rows

/-- `MonitorService.get_summary` at the instant `now`, in microseconds. -/
def MonitorService.getSummary (servers : Table OpsServer) (metrics : Table MonitorServerMetric)
    (now : ℤ) (serverId : ℕ) (rangeKey : String) : Except Failure MetricSummary :=
  match getServer servers serverId with
  | none => .error (.app ⟨.serverNotFound, "服务器不存在", 404⟩)
  | some server =>
    match rangeConfig rangeKey with
    | none => .error (.app ⟨.badRequest, "不支持的 time range", 400⟩)
    | some (seconds, bucketSeconds) =>
      let start := now - 1000000 * seconds
      let rows := MetricRepository.getSummary metrics server.id start now bucketSeconds
      .ok ⟨rangeKey, bucketSeconds, start, now, points bucketSeconds none none rows⟩

/-! ## Buckets -/

variable {bucketSeconds : ℕ} {samples : List MonitorServerMetric} {k : ℤ}

theorem mem_buckets : k ∈ buckets bucketSeconds samples ↔
    ∃ m ∈ samples, bucketOf bucketSeconds m.collectedAt = k := by
  rw [buckets, List.mem_insertionSort, List.mem_dedup, List.mem_map]

theorem buckets_sorted (bucketSeconds : ℕ) (samples : List MonitorServerMetric) :
    (buckets bucketSeconds samples).Pairwise (· < ·) := by
  have hle : (buckets bucketSeconds samples).Pairwise (· ≤ ·) := List.pairwise_insertionSort _ _
  have hnodup : (buckets bucketSeconds samples).Nodup :=
    (List.perm_insertionSort _ _).nodup_iff.mpr (List.nodup_dedup _)
  exact (hle.and hnodup).imp fun h => lt_of_le_of_ne h.1 h.2

/-- The samples that fall in the bucket that starts at `time`. -/
def contributors (bucketSeconds : ℕ) (samples : List MonitorServerMetric) (time : Time) :
    List MonitorServerMetric :=
  samples.filter fun m => time ≤ m.collectedAt ∧ m.collectedAt < time + Clock.seconds bucketSeconds

theorem seconds_pos (h : 0 < bucketSeconds) : 0 < Clock.seconds bucketSeconds := by
  unfold Clock.seconds
  positivity

theorem bucketOf_eq_iff (h : 0 < bucketSeconds) {t : Time} : bucketOf bucketSeconds t = k ↔
    bucketTime bucketSeconds k ≤ t ∧ t < bucketTime bucketSeconds k + Clock.seconds bucketSeconds := by
  have hpos := seconds_pos h
  rw [bucketOf, bucketTime, Int.ediv_eq_iff_of_pos hpos]

theorem contributors_bucketTime (h : 0 < bucketSeconds) :
    contributors bucketSeconds samples (bucketTime bucketSeconds k) =
      inBucket bucketSeconds samples k :=
  List.filter_congr fun _ _ => decide_eq_decide.mpr (bucketOf_eq_iff h).symm

/-! ## Points -/

/-- A field that is aggregated. -/
structure SummaryField where
  scale : ℕ
  of : MonitorServerMetric → Option ℚ
  row : SummaryRow → Aggregates
  value : MetricBucket → Option MetricBucketValue

/-- `SUMMARY_NUMERIC_FIELDS`. -/
def summaryFields : List SummaryField :=
  [⟨6, fun m => m.cpuUsage.map Decimal.value, (·.cpuUsage), (·.cpuUsage)⟩,
    ⟨6, fun m => m.memoryUsage.map Decimal.value, (·.memoryUsage), (·.memoryUsage)⟩,
    ⟨6, fun m => m.diskUsage.map Decimal.value, (·.diskUsage), (·.diskUsage)⟩,
    ⟨6, fun m => m.load1m.map Decimal.value, (·.load1m), (·.load1m)⟩,
    ⟨6, fun m => m.load5m.map Decimal.value, (·.load5m), (·.load5m)⟩,
    ⟨6, fun m => m.load15m.map Decimal.value, (·.load15m), (·.load15m)⟩,
    ⟨4, fun m => m.tcpConnections.map Nat.cast, (·.tcpConnections), (·.tcpConnections)⟩]

theorem map_time_points (prevIn prevOut : Option ℕ) (rows : List SummaryRow) :
    (points bucketSeconds prevIn prevOut rows).map (·.time) = rows.map (·.bucket) := by
  induction rows generalizing prevIn prevOut with
  | nil => rfl
  | cons row rows ih => rw [points, List.map_cons, List.map_cons, ih]

/-- Each point carries the fields of a row. -/
theorem exists_row {prevIn prevOut : Option ℕ} {rows : List SummaryRow} {p : MetricBucket}
    (h : p ∈ points bucketSeconds prevIn prevOut rows) : ∃ row ∈ rows, p.time = row.bucket ∧
      ∀ f ∈ summaryFields, f.value p = bucketValue (f.row row) := by
  induction rows generalizing prevIn prevOut with
  | nil => cases h
  | cons row rows ih =>
    rcases List.mem_cons.mp h with rfl | h
    · exact ⟨row, List.mem_cons_self, rfl, by simp [summaryFields]⟩
    · obtain ⟨row', hrow', hrest⟩ := ih h
      exact ⟨row', List.mem_cons_of_mem _ hrow', hrest⟩

theorem row_summaryRow {f : SummaryField} (hf : f ∈ summaryFields) :
    f.row (summaryRow bucketSeconds k samples) = aggregates f.scale (samples.map f.of) := by
  revert f
  simp [summaryFields, summaryRow, decimals]

/-- The columns have no more digits than their averages. -/
theorem exact_of_field {f : SummaryField} (hf : f ∈ summaryFields) (y : ℚ)
    (hy : some y ∈ samples.map f.of) : ∃ n : ℤ, y * 10 ^ f.scale = n := by
  obtain ⟨m, -, hm⟩ := List.mem_map.mp hy
  have hdecimal : ∀ {p s : ℕ} (hs : s ≤ 6) (d : Option (Decimal p s)), d.map Decimal.value = some y →
      ∃ n : ℤ, y * 10 ^ 6 = n := by
    intro p s hs d hd
    obtain ⟨d, -, rfl⟩ := Option.map_eq_some_iff.mp hd
    exact ⟨_, d.value_mul_pow hs⟩
  simp only [summaryFields, List.mem_cons, List.not_mem_nil, or_false] at hf
  rcases hf with rfl | rfl | rfl | rfl | rfl | rfl | rfl
  · exact hdecimal (by decide) _ hm
  · exact hdecimal (by decide) _ hm
  · exact hdecimal (by decide) _ hm
  · exact hdecimal (by decide) _ hm
  · exact hdecimal (by decide) _ hm
  · exact hdecimal (by decide) _ hm
  · obtain ⟨n, -, rfl⟩ := Option.map_eq_some_iff.mp hm
    exact ⟨n * 10 ^ 4, by push_cast; rfl⟩

/-- The rounded average of a column lies between its rounded extremes. -/
theorem bucketValue_between {scale : ℕ} {column : List (Option ℚ)} {v : MetricBucketValue}
    (hexact : ∀ y, some y ∈ column → ∃ n : ℤ, y * 10 ^ scale = n)
    (hv : bucketValue (aggregates scale column) = some v) :
    ∃ low avg high, v = ⟨some avg, some high, some low⟩ ∧ low ≤ avg ∧ avg ≤ high := by
  unfold bucketValue aggregates at hv
  dsimp only at hv
  cases hmin : sqlMin column with
  | none =>
    have hempty := sqlMin_eq_none.mp hmin
    rw [if_pos ⟨sqlAvg_eq_none.mpr hempty, sqlMax_eq_none.mpr hempty, hmin⟩] at hv
    cases hv
  | some low =>
    have hmem := (sqlMin_eq_some.mp hmin).1
    obtain ⟨high, hmax⟩ : ∃ high, sqlMax column = some high :=
      Option.ne_none_iff_exists'.mp fun h => sqlMax_eq_none.mp h low hmem
    obtain ⟨avg, havg⟩ : ∃ avg, sqlAvg scale column = some avg :=
      Option.ne_none_iff_exists'.mp fun h => sqlAvg_eq_none.mp h low hmem
    obtain ⟨hlow, hhigh⟩ := sqlAvg_mem hmin hmax havg hexact
    rw [if_neg (by simp [hmin]), hmin, hmax, havg] at hv
    refine ⟨_, _, _, (Option.some.inj hv).symm, ?_, ?_⟩
    · exact Double.roundTo_mono 2 (Double.ofRat_mono hlow)
    · exact Double.roundTo_mono 2 (Double.ofRat_mono hhigh)

/-! ## The shape of a summary -/

/-- The points that a range may have. -/
def pointLimit (rangeKey : String) : ℕ :=
  match rangeConfig rangeKey with
  | none => 0
  | some (seconds, bucketSeconds) => seconds / bucketSeconds

example : ["1h", "6h", "24h", "7d"].map pointLimit = [60, 360, 288, 168] := by decide

/-- The points of the samples of a window, at most `limit` of them. -/
structure Shaped (bucketSeconds limit : ℕ) (samples : List MonitorServerMetric)
    (points : List MetricBucket) : Prop where
  increasing : (points.map (·.time)).Pairwise (· < ·)
  multiple : ∀ p ∈ points, Clock.seconds bucketSeconds ∣ p.time
  once : ∀ m ∈ samples, ∃! time, time ∈ points.map (·.time) ∧
    m ∈ contributors bucketSeconds samples time
  values : ∀ p ∈ points, ∀ f ∈ summaryFields, f.value p =
    bucketValue (aggregates f.scale ((contributors bucketSeconds samples p.time).map f.of))
  between : ∀ p ∈ points, ∀ f ∈ summaryFields, ∀ v, f.value p = some v →
    ∃ low avg high, v = ⟨some avg, some high, some low⟩ ∧ low ≤ avg ∧ avg ≤ high
  count : points.length ≤ limit

section Rows
variable {metrics : Table MonitorServerMetric} {serverId : ℕ} {start stop : ℤ} {m : MonitorServerMetric}

theorem mem_window : m ∈ window metrics serverId start stop ↔ m ∈ metrics ∧ m.serverId = serverId ∧
    start ≤ 1000 * m.collectedAt ∧ 1000 * m.collectedAt ≤ stop := by
  rw [window, Table.mem_select, decide_eq_true_iff]

/-- The number of the bucket of an instant in microseconds. -/
def bucketAt (bucketSeconds : ℕ) (t : ℤ) : ℤ := t / (1000000 * bucketSeconds)

theorem bucketOf_eq_bucketAt (t : Time) : bucketOf bucketSeconds t = bucketAt bucketSeconds (1000 * t) := by
  have hassoc : (1000000 * bucketSeconds : ℤ) = 1000 * Clock.seconds bucketSeconds := by
    unfold Clock.seconds
    ring
  rw [bucketOf, bucketAt, hassoc, Int.mul_ediv_mul_of_pos _ _ (by norm_num)]

/-- The samples of a window fall in the buckets from its start to its end. -/
theorem bucketOf_mem_Icc (h : 0 < bucketSeconds) (hm : m ∈ window metrics serverId start stop) :
    bucketOf bucketSeconds m.collectedAt ∈
      Finset.Icc (bucketAt bucketSeconds start) (bucketAt bucketSeconds stop) := by
  obtain ⟨-, -, hstart, hstop⟩ := mem_window.mp hm
  have hpos : (0 : ℤ) < 1000000 * bucketSeconds := by positivity
  rw [bucketOf_eq_bucketAt, Finset.mem_Icc]
  exact ⟨Int.ediv_le_ediv hpos hstart, Int.ediv_le_ediv hpos hstop⟩

/-- A window whose length is `n` widths touches one bucket more. -/
theorem bucketAt_add (h : 0 < bucketSeconds) (n : ℕ) :
    bucketAt bucketSeconds (start + 1000000 * (bucketSeconds * n : ℕ)) = bucketAt bucketSeconds start + n := by
  have hne : (1000000 * bucketSeconds : ℤ) ≠ 0 := by positivity
  have hsplit : start + 1000000 * (bucketSeconds * n : ℕ) = start + n * (1000000 * bucketSeconds) := by
    push_cast
    ring
  rw [bucketAt, hsplit, Int.add_mul_ediv_right _ _ hne, bucketAt]

theorem length_buckets_le_iff (h : 0 < bucketSeconds) {n : ℕ}
    (hstop : stop = start + 1000000 * (bucketSeconds * n : ℕ)) :
    (buckets bucketSeconds (window metrics serverId start stop)).length ≤ n ↔
      ∃ k, bucketAt bucketSeconds start ≤ k ∧ k ≤ bucketAt bucketSeconds stop ∧
        ∀ m ∈ window metrics serverId start stop, bucketOf bucketSeconds m.collectedAt ≠ k := by
  obtain ⟨found, hfound⟩ : ∃ found, found =
      (buckets bucketSeconds (window metrics serverId start stop)).toFinset := ⟨_, rfl⟩
  have hmem : ∀ k, k ∈ found ↔
      ∃ m ∈ window metrics serverId start stop, bucketOf bucketSeconds m.collectedAt = k := fun k => by
    rw [hfound, List.mem_toFinset, mem_buckets]
  have hcard : found.card = (buckets bucketSeconds (window metrics serverId start stop)).length := by
    rw [hfound]
    exact List.toFinset_card_of_nodup ((buckets_sorted _ _).imp fun h => h.ne)
  have hsub : found ⊆ Finset.Icc (bucketAt bucketSeconds start) (bucketAt bucketSeconds stop) := by
    intro k hk
    obtain ⟨m, hm, rfl⟩ := (hmem k).mp hk
    exact bucketOf_mem_Icc h hm
  have hall : (Finset.Icc (bucketAt bucketSeconds start) (bucketAt bucketSeconds stop)).card = n + 1 := by
    rw [hstop, bucketAt_add h, Int.card_Icc]
    omega
  rw [← hcard]
  constructor
  · intro hle
    have hlt : found.card < (Finset.Icc (bucketAt bucketSeconds start) (bucketAt bucketSeconds stop)).card := by
      rw [hall]
      exact Nat.lt_succ_of_le hle
    obtain ⟨k, hk, hnot⟩ := Finset.exists_mem_notMem_of_card_lt_card hlt
    rw [Finset.mem_Icc] at hk
    exact ⟨k, hk.1, hk.2, fun m hm heq => hnot ((hmem k).mpr ⟨m, hm, heq⟩)⟩
  · rintro ⟨k, hlow, hhigh, hnot⟩
    have hk : k ∉ found := fun hk => by
      obtain ⟨m, hm, heq⟩ := (hmem k).mp hk
      exact hnot m hm heq
    have hlt := Finset.card_lt_card (Finset.ssubset_iff_subset_ne.mpr ⟨hsub, fun heq => hk (heq ▸ Finset.mem_Icc.mpr ⟨hlow, hhigh⟩)⟩)
    rw [hall] at hlt
    exact Nat.le_of_lt_succ hlt

theorem length_points (prevIn prevOut : Option ℕ) (rows : List SummaryRow) :
    (points bucketSeconds prevIn prevOut rows).length = rows.length := by
  have hlength := congrArg List.length (@map_time_points bucketSeconds prevIn prevOut rows)
  simpa using hlength

/-- Whatever the samples, only the number of the points is in question. -/
theorem shaped_iff (h : 0 < bucketSeconds) (limit : ℕ) :
    Shaped bucketSeconds limit (window metrics serverId start stop)
      (points bucketSeconds none none
        (MetricRepository.getSummary metrics serverId start stop bucketSeconds)) ↔
      (buckets bucketSeconds (window metrics serverId start stop)).length ≤ limit := by
  obtain ⟨samples, hsamples⟩ : ∃ samples, samples = window metrics serverId start stop := ⟨_, rfl⟩
  obtain ⟨rows, hrows⟩ : ∃ rows, rows =
      MetricRepository.getSummary metrics serverId start stop bucketSeconds := ⟨_, rfl⟩
  rw [← hsamples, ← hrows]
  have hrow : ∀ row, row ∈ rows ↔ ∃ k ∈ buckets bucketSeconds samples,
      summaryRow bucketSeconds k (inBucket bucketSeconds samples k) = row := fun row => by
    rw [hrows, MetricRepository.getSummary, ← hsamples, List.mem_map]
  have htimes : (points bucketSeconds none none rows).map (·.time) =
      (buckets bucketSeconds samples).map (bucketTime bucketSeconds) := by
    rw [map_time_points, hrows, MetricRepository.getSummary, ← hsamples, List.map_map]
    rfl
  have hlength : (points bucketSeconds none none rows).length = (buckets bucketSeconds samples).length := by
    rw [length_points, hrows, MetricRepository.getSummary, ← hsamples, List.length_map]
  have hpos := seconds_pos h
  have hvalues : ∀ p ∈ points bucketSeconds none none rows, ∀ f ∈ summaryFields, f.value p =
      bucketValue (aggregates f.scale ((contributors bucketSeconds samples p.time).map f.of)) := by
    intro p hp f hf
    obtain ⟨row, hmem, htime, hvalue⟩ := exists_row hp
    obtain ⟨k, -, rfl⟩ := (hrow row).mp hmem
    have hk : contributors bucketSeconds samples p.time = inBucket bucketSeconds samples k := by
      rw [htime]
      exact contributors_bucketTime h
    rw [hvalue f hf, row_summaryRow hf, hk]
  constructor
  · intro hshaped
    rw [← hlength]
    exact hshaped.count
  · intro hcount
    refine ⟨?_, ?_, ?_, hvalues, ?_, hlength ▸ hcount⟩
    · rw [htimes, List.pairwise_map]
      exact (buckets_sorted _ _).imp fun hlt => mul_lt_mul_of_pos_right hlt hpos
    · intro p hp
      obtain ⟨row, hmem, htime, -⟩ := exists_row hp
      obtain ⟨k, -, rfl⟩ := (hrow row).mp hmem
      rw [htime]
      exact Dvd.intro_left k rfl
    -- the bucket of a sample is the only one
    · intro m hm
      have hcontributes : ∀ k, m ∈ contributors bucketSeconds samples (bucketTime bucketSeconds k) ↔
          bucketOf bucketSeconds m.collectedAt = k := by
        intro k
        rw [contributors_bucketTime h, inBucket, List.mem_filter, decide_eq_true_iff, and_iff_right hm]
      refine ⟨bucketTime bucketSeconds (bucketOf bucketSeconds m.collectedAt), ⟨?_, ?_⟩, ?_⟩
      · rw [htimes]
        exact List.mem_map_of_mem (mem_buckets.mpr ⟨m, hm, rfl⟩)
      · exact (hcontributes _).mpr rfl
      · rintro time ⟨htime, hmem⟩
        rw [htimes] at htime
        obtain ⟨k, -, rfl⟩ := List.mem_map.mp htime
        rw [(hcontributes k).mp hmem]
    · intro p hp f hf v hv
      rw [hvalues p hp f hf] at hv
      exact bucketValue_between (exact_of_field hf) hv

end Rows

theorem of_getSummary {servers : Table OpsServer} {metrics : Table MonitorServerMetric} {now : ℤ}
    {serverId : ℕ} {rangeKey : String} {summary : MetricSummary}
    (h : MonitorService.getSummary servers metrics now serverId rangeKey = .ok summary) :
    ∃ server seconds, getServer servers serverId = some server ∧
      rangeConfig rangeKey = some (seconds, summary.bucketSeconds) ∧
      summary.start = now - 1000000 * seconds ∧ summary.stop = now ∧
      summary.points = points summary.bucketSeconds none none
        (MetricRepository.getSummary metrics server.id summary.start summary.stop summary.bucketSeconds) := by
  unfold MonitorService.getSummary at h
  cases hserver : getServer servers serverId with
  | none =>
    rw [hserver] at h
    cases h
  | some server =>
    rw [hserver] at h
    cases hrange : rangeConfig rangeKey with
    | none =>
      rw [hrange] at h
      cases h
    | some cfg =>
      rw [hrange] at h
      obtain rfl := Except.ok.inj h
      exact ⟨server, cfg.1, rfl, rfl, rfl, rfl, rfl⟩

theorem rangeConfig_widths {rangeKey : String} {seconds width : ℕ}
    (h : rangeConfig rangeKey = some (seconds, width)) :
    (width = 60 ∨ width = 300 ∨ width = 3600) ∧ seconds = width * (seconds / width) ∧
      seconds ≤ 604800 := by
  unfold rangeConfig at h
  split_ifs at h <;> obtain ⟨rfl, rfl⟩ := Prod.mk.inj (Option.some.inj h) <;> decide

theorem getServer_id {servers : Table OpsServer} {serverId : ℕ} {server : OpsServer}
    (h : getServer servers serverId = some server) : server.id = serverId := by
  unfold getServer at h
  cases hget : servers.get? serverId with
  | none =>
    rw [hget] at h
    cases h
  | some s =>
    rw [hget] at h
    dsimp only at h
    split_ifs at h
    rw [← Option.some.inj h]
    exact (Table.get?_eq_some.mp hget).2

/-- A summary has the documented shape if and only if one of the buckets that its window touches has
no sample: they are one more than the limit. -/
theorem summary_shaped_iff (servers : Table OpsServer) (metrics : Table MonitorServerMetric) (now : ℤ)
    (serverId : ℕ) (rangeKey : String) (summary : MetricSummary)
    (hok : MonitorService.getSummary servers metrics now serverId rangeKey = .ok summary) :
    Shaped summary.bucketSeconds (pointLimit rangeKey)
      (window metrics serverId summary.start summary.stop) summary.points ↔
    ∃ k, bucketAt summary.bucketSeconds summary.start ≤ k ∧ k ≤ bucketAt summary.bucketSeconds summary.stop ∧
      ∀ m ∈ window metrics serverId summary.start summary.stop,
        bucketOf summary.bucketSeconds m.collectedAt ≠ k := by
  obtain ⟨server, seconds, hserver, hrange, hstart, hstop, hpoints⟩ := of_getSummary hok
  obtain ⟨hwidth, hseconds, -⟩ := rangeConfig_widths hrange
  have hpos : 0 < summary.bucketSeconds := by omega
  have hlimit : pointLimit rangeKey = seconds / summary.bucketSeconds := by rw [pointLimit, hrange]
  have hlast : summary.stop =
      summary.start + 1000000 * (summary.bucketSeconds * (seconds / summary.bucketSeconds) : ℕ) := by
    rw [← hseconds, hstart, hstop]
    ring
  rw [hpoints, ← getServer_id hserver, shaped_iff hpos, hlimit]
  exact length_buckets_le_iff hpos hlast

/-! ## Sixty-one buckets of an hour -/

def minuteSample (i : ℕ) : MonitorServerMetric where
  id := 0
  serverId := 1
  collectedAt := Clock.seconds (60 * i)
  cpuUsage := none
  memoryUsage := none
  memoryUsedBytes := none
  diskUsage := none
  networkInBytes := none
  networkOutBytes := none
  load1m := none
  load5m := none
  load15m := none
  tcpConnections := none
  uptimeSeconds := none

def plainServer : OpsServer where
  id := 0
  serverCode := "web-01"
  hostname := "web-01"
  ipAddress := "10.0.0.1"
  sshPort := 22
  osName := none
  osVersion := none
  kernelVersion := none
  architecture := none
  cpuModel := none
  cpuCores := none
  memoryTotalBytes := none
  diskTotalBytes := none
  agentVersion := none
  agentStatus := "ONLINE"
  lastHeartbeatAt := none
  registeredAt := none
  status := 1
  deletedAt := none

theorem getSummary_hour (metrics : Table MonitorServerMetric) :
    MonitorService.getSummary (Table.empty.insert plainServer) metrics 3600000000 1 "1h" =
      .ok ⟨"1h", 60, 0, 3600000000,
        points 60 none none (MetricRepository.getSummary metrics 1 0 3600000000 60)⟩ := by
  have hserver : getServer (Table.empty.insert plainServer) 1 = some { plainServer with id := 1 } := by decide
  have hrange : rangeConfig "1h" = some (3600, 60) := by decide
  rw [MonitorService.getSummary, hserver, hrange]
  rfl

/-- An hour without samples. -/
theorem summary_shaped_iff_empty :
    Shaped 60 (pointLimit "1h") (window .empty 1 0 3600000000)
      (points 60 none none (MetricRepository.getSummary .empty 1 0 3600000000 60)) ↔
    ∃ k, bucketAt 60 0 ≤ k ∧ k ≤ bucketAt 60 3600000000 ∧
      ∀ m ∈ window .empty 1 0 3600000000, bucketOf 60 m.collectedAt ≠ k :=
  summary_shaped_iff _ _ _ _ _ _ (getSummary_hour .empty)

/-- A sample at every full minute of an hour. -/
def everyMinute : Table MonitorServerMetric := Table.empty.insertAll ((List.range 61).map minuteSample)

theorem length_buckets_everyMinute :
    (buckets 60 (window everyMinute 1 0 3600000000)).length = 61 := by decide +kernel

theorem sixty_one_points :
    ¬ ∀ (servers : Table OpsServer) (metrics : Table MonitorServerMetric) (now : ℤ) (serverId : ℕ)
      (rangeKey : String) (summary : MetricSummary),
      MonitorService.getSummary servers metrics now serverId rangeKey = .ok summary →
      Shaped summary.bucketSeconds (pointLimit rangeKey)
        (window metrics serverId summary.start summary.stop) summary.points := by
  intro h
  have hcount := (h _ _ _ _ _ _ (getSummary_hour everyMinute)).count
  have hlimit : pointLimit "1h" = 60 := by decide
  rw [length_points, MetricRepository.getSummary, List.length_map, hlimit,
    length_buckets_everyMinute] at hcount
  exact absurd hcount (by decide)

end OpsMonitor.Metric
