import OpsMonitor.Metric.Repository

/-! The daily archive is aggregated again and again: a later run covers an earlier one. -/

namespace OpsMonitor.Metric
open Library

/-! ## What fits in a row -/

/-- A `NUMERIC(12, 4)` column holds a number between two that it holds. -/
theorem isSome_store {x : ℚ} {n : ℤ} (hn : n < 10 ^ 12) (hlow : -n ≤ x * 10 ^ 4) (hhigh : x * 10 ^ 4 ≤ n) :
    (store (some x)).isSome := by
  have hle := roundHalfUp_mono hhigh
  have hge := roundHalfUp_mono hlow
  have hneg : ((-n : ℤ) : ℚ) = -n := by push_cast; rfl
  rw [roundHalfUp_intCast] at hle
  rw [← hneg, roundHalfUp_intCast] at hge
  rw [store, Option.isSome_map, Decimal.ofRat?, dif_pos]
  · rfl
  · omega

variable {scale : ℕ} {column : List (Option ℚ)}

/-- The average of a column lies between its values, so only these matter. -/
theorem isSome_aggregate {n : ℤ} (hn : n < 10 ^ 12)
    (hexact : ∀ y, some y ∈ column → ∃ k : ℤ, y * 10 ^ scale = k)
    (hbound : ∀ y, some y ∈ column → -n ≤ y * 10 ^ 4 ∧ y * 10 ^ 4 ≤ n) :
    (aggregate scale column).isSome := by
  suffices h : (store (sqlAvg scale column)).isSome ∧ (store (sqlMax column)).isSome by
    obtain ⟨avg, havg⟩ := Option.isSome_iff_exists.mp h.1
    obtain ⟨max, hmax⟩ := Option.isSome_iff_exists.mp h.2
    simp [aggregate, havg, hmax]
  cases hmax : sqlMax column with
  | none =>
    have hempty := sqlMax_eq_none.mp hmax
    rw [sqlAvg_eq_none.mpr hempty]
    exact ⟨rfl, rfl⟩
  | some high =>
    obtain ⟨hhigh, -⟩ := sqlMax_eq_some.mp hmax
    obtain ⟨low, hmin⟩ : ∃ low, sqlMin column = some low :=
      Option.ne_none_iff_exists'.mp fun h => sqlMin_eq_none.mp h high hhigh
    obtain ⟨avg, havg⟩ : ∃ avg, sqlAvg scale column = some avg :=
      Option.ne_none_iff_exists'.mp fun h => sqlAvg_eq_none.mp h high hhigh
    obtain ⟨hlowAvg, havgHigh⟩ := sqlAvg_mem hmin hmax havg hexact
    have hlowBound := (hbound low (sqlMin_eq_some.mp hmin).1).1
    have hhighBound := hbound high hhigh
    rw [havg]
    exact ⟨isSome_store hn (by linarith) (by linarith), isSome_store hn hhighBound.1 hhighBound.2⟩

theorem isSome_aggregate_decimal {p s : ℕ} (hs : s ≤ 4) (hdigits : p + 4 ≤ 12 + s)
    (f : MonitorServerMetric → Option (Decimal p s)) (samples : List MonitorServerMetric) :
    (aggregate 6 (samples.map fun m => (f m).map Decimal.value)).isSome := by
  have hpow : (10 : ℤ) ^ p * 10 ^ (4 - s) ≤ 10 ^ 12 := by
    rw [← pow_add]
    exact pow_le_pow_right₀ (by norm_num) (by omega)
  have hpos : (0 : ℤ) < 10 ^ (4 - s) := by positivity
  have hvalue : ∀ y, some y ∈ samples.map (fun m => (f m).map Decimal.value) →
      ∃ d : Decimal p s, y = d.value := by
    intro y hy
    obtain ⟨m, -, hm⟩ := List.mem_map.mp hy
    obtain ⟨d, -, hd⟩ := Option.map_eq_some_iff.mp hm
    exact ⟨d, hd.symm⟩
  refine isSome_aggregate (n := 10 ^ 12 - 1) (by norm_num) ?_ ?_
  · intro y hy
    obtain ⟨d, rfl⟩ := hvalue y hy
    exact ⟨_, d.value_mul_pow (by omega)⟩
  · intro y hy
    obtain ⟨d, rfl⟩ := hvalue y hy
    rw [d.value_mul_pow hs]
    have hunits : d.units ≤ 10 ^ p - 1 ∧ -(10 ^ p - 1) ≤ d.units := by
      have hdigits := d.digits
      have hcast : ((10 ^ p : ℕ) : ℤ) = 10 ^ p := by push_cast; rfl
      omega
    constructor
    · have hle : -(10 ^ 12 - 1 : ℤ) ≤ d.units * 10 ^ (4 - s) := by nlinarith
      exact_mod_cast hle
    · have hle : d.units * 10 ^ (4 - s) ≤ (10 ^ 12 - 1 : ℤ) := by nlinarith
      exact_mod_cast hle

/-- The column of the connections is wider than that of their maximum. -/
def ConnectionsFit (m : MonitorServerMetric) : Prop := ∀ n, m.tcpConnections = some n → n < 10 ^ 8

theorem isSome_aggregate_connections {samples : List MonitorServerMetric} :
    (aggregate 4 (samples.map fun m => m.tcpConnections.map Nat.cast)).isSome ↔
      ∀ m ∈ samples, ConnectionsFit m := by
  constructor
  · intro h m hm n hn
    obtain ⟨⟨avg, max⟩, h⟩ := Option.isSome_iff_exists.mp h
    have hmax := of_aggregate h exact_of_nat
    have hmem : some (n : ℚ) ∈ samples.map fun m => m.tcpConnections.map Nat.cast :=
      List.mem_map.mpr ⟨m, hm, by rw [hn]; rfl⟩
    cases max with
    | none => exact absurd hmem (sqlMax_eq_none.mp hmax.symm n)
    | some d =>
      have hle := (sqlMax_eq_some.mp hmax.symm).2 n hmem
      have hunits : d.units < 10 ^ 12 := by
        have hdigits := d.digits
        omega
      have hcast : (d.units : ℚ) < 10 ^ 12 := by exact_mod_cast hunits
      have hlt : (n : ℚ) < 10 ^ 8 := by
        rw [Decimal.value, le_div_iff₀ (by norm_num)] at hle
        linarith
      exact_mod_cast hlt
  · intro h
    refine isSome_aggregate (n := 10 ^ 12 - 1) (by norm_num) ?_ ?_
    · intro y hy
      obtain ⟨m, -, hm⟩ := List.mem_map.mp hy
      obtain ⟨n, -, rfl⟩ := Option.map_eq_some_iff.mp hm
      exact ⟨n * 10 ^ 4, by push_cast; rfl⟩
    · intro y hy
      obtain ⟨m, hmem, hm⟩ := List.mem_map.mp hy
      obtain ⟨n, hn, rfl⟩ := Option.map_eq_some_iff.mp hm
      have hlt : n + 1 ≤ 10 ^ 8 := h m hmem n hn
      have hcast : ((n + 1 : ℕ) : ℚ) ≤ 10 ^ 8 := by exact_mod_cast hlt
      have hpos : (0 : ℚ) ≤ n := Nat.cast_nonneg n
      push_cast at hcast ⊢
      constructor <;> linarith

theorem isSome_dailyRow {k : ℕ × ℤ} {samples : List MonitorServerMetric} :
    (dailyRow k samples).isSome ↔ ∀ m ∈ samples, ConnectionsFit m := by
  rw [← isSome_aggregate_connections]
  obtain ⟨cpuUsage, hcpu⟩ := Option.isSome_iff_exists.mp
    (isSome_aggregate_decimal (by decide) (by decide) (·.cpuUsage) samples)
  obtain ⟨memoryUsage, hmemory⟩ := Option.isSome_iff_exists.mp
    (isSome_aggregate_decimal (by decide) (by decide) (·.memoryUsage) samples)
  obtain ⟨diskUsage, hdisk⟩ := Option.isSome_iff_exists.mp
    (isSome_aggregate_decimal (by decide) (by decide) (·.diskUsage) samples)
  obtain ⟨load1m, hload⟩ := Option.isSome_iff_exists.mp
    (isSome_aggregate_decimal (by decide) (by decide) (·.load1m) samples)
  cases htcp : aggregate 4 (samples.map fun m => m.tcpConnections.map Nat.cast) with
  | none => simp [dailyRow, hcpu, hmemory, hdisk, hload, htcp]
  | some tcpConnections => simp [dailyRow, hcpu, hmemory, hdisk, hload, htcp]

/-! ## Calls and their outcomes -/

/-- The samples before a cutoff fit in the rows. -/
def Fits (db : Db) (cutoff : Time) : Prop :=
  ∀ m ∈ db.metrics, m.collectedAt < cutoff → ConnectionsFit m

/-- Two calls are both refused, or they leave the same samples, the same row of each day, and return
the same number. -/
def SameOutcome : Option (Db × ℕ) → Option (Db × ℕ) → Prop
  | none, none => True
  | some (a, m), some (b, n) =>
    a.metrics = b.metrics ∧ (∀ k, a.daily.get? k = b.daily.get? k) ∧ m = n
  | _, _ => False

/-- A call after another one. -/
def aggregateTwice (db : Db) (first second : Time) : Option (Db × ℕ) :=
  (db.aggregateDaily first).bind fun r => r.1.aggregateDaily second

variable {db db' : Db} {c₁ c₂ cutoff : Time} {n : ℕ} {k : ℕ × ℤ}

theorem isSome_aggregateDaily_iff : (db.aggregateDaily cutoff).isSome ↔ Fits db cutoff := by
  rw [isSome_aggregateDaily]
  constructor
  · intro h m hm hold
    have hgroup : m ∈ db.group cutoff (dayOf m) := mem_group.mpr ⟨hm, hold, rfl⟩
    exact isSome_dailyRow.mp (h _ (List.ne_nil_of_mem hgroup)) m hgroup
  · intro h k _
    refine isSome_dailyRow.mpr fun m hm => ?_
    obtain ⟨hmem, hold, -⟩ := mem_group.mp hm
    exact h m hmem hold

theorem Fits.mono (hle : c₁ ≤ c₂) (h : Fits db c₂) : Fits db c₁ :=
  fun m hm hold => h m hm (hold.trans_le hle)

theorem Fits.congr (hmetrics : db'.metrics = db.metrics) : Fits db' cutoff ↔ Fits db cutoff := by
  rw [Fits, Fits, hmetrics]

theorem olderThan_congr (hmetrics : db'.metrics = db.metrics) :
    db'.olderThan cutoff = db.olderThan cutoff := by
  rw [Db.olderThan, Db.olderThan, hmetrics]

theorem group_congr (hmetrics : db'.metrics = db.metrics) : db'.group cutoff k = db.group cutoff k := by
  rw [Db.group, Db.group, olderThan_congr hmetrics]

/-- The group of an earlier cutoff is a part of the later one. -/
theorem group_eq_nil_of_le (hle : c₁ ≤ c₂) (h : db.group c₂ k = []) : db.group c₁ k = [] := by
  rw [List.eq_nil_iff_forall_not_mem] at h ⊢
  intro m hm
  obtain ⟨hmem, hold, hday⟩ := mem_group.mp hm
  exact h m (mem_group.mpr ⟨hmem, hold.trans_le hle, hday⟩)

/-- A later call does not see what an earlier one has written. -/
theorem aggregateTwice_same (hle : c₁ ≤ c₂) :
    SameOutcome (aggregateTwice db c₁ c₂) (db.aggregateDaily c₂) := by
  rw [aggregateTwice]
  by_cases hfits : Fits db c₂
  · obtain ⟨⟨db₁, n₁⟩, hfirst⟩ := Option.isSome_iff_exists.mp (isSome_aggregateDaily_iff.mpr (hfits.mono hle))
    obtain ⟨⟨db₂, n₂⟩, hsecond⟩ := Option.isSome_iff_exists.mp (isSome_aggregateDaily_iff.mpr hfits)
    obtain ⟨hmetrics₁, -, hdaily₁⟩ := get?_aggregateDaily hfirst
    obtain ⟨hmetrics₂, hcount₂, hdaily₂⟩ := get?_aggregateDaily hsecond
    obtain ⟨⟨db₃, n₃⟩, hboth⟩ := Option.isSome_iff_exists.mp
      (isSome_aggregateDaily_iff.mpr ((Fits.congr hmetrics₁).mpr hfits))
    obtain ⟨hmetrics₃, hcount₃, hdaily₃⟩ := get?_aggregateDaily hboth
    rw [hfirst, hsecond, Option.bind_some, hboth]
    refine ⟨?_, ?_, ?_⟩
    · rw [hmetrics₃, hmetrics₁, hmetrics₂]
    · intro k
      rw [hdaily₃, hdaily₂, group_congr hmetrics₁, hdaily₁]
      -- a day without samples before the later cutoff was not written by the earlier call either
      split_ifs with hgroup hearlier
      · rfl
      · exact absurd (group_eq_nil_of_le hle hgroup) hearlier
      · rfl
    · rw [hcount₃, hcount₂, olderThan_congr hmetrics₁]
  · have hsecond : db.aggregateDaily c₂ = none :=
      Option.not_isSome_iff_eq_none.mp fun h => hfits (isSome_aggregateDaily_iff.mp h)
    rw [hsecond]
    cases hfirst : db.aggregateDaily c₁ with
    | none => trivial
    | some r =>
      have hmetrics := (get?_aggregateDaily hfirst).1
      have hrest : r.1.aggregateDaily c₂ = none := Option.not_isSome_iff_eq_none.mp fun h =>
        hfits ((Fits.congr hmetrics).mp (isSome_aggregateDaily_iff.mp h))
      rw [Option.bind_some, hrest]
      trivial

/-! ## Aggregating again -/

/-- What two calls of `aggregate_daily` do, the second not before the first. -/
structure Reaggregates (db : Db) (c₁ c₂ : Time) : Prop where
  absorbed : SameOutcome (aggregateTwice db c₁ c₂) (db.aggregateDaily c₂)
  repeated : SameOutcome (aggregateTwice db c₁ c₁) (db.aggregateDaily c₁)
  returns : (db.aggregateDaily c₁).isSome ↔ Fits db c₁
  untouched : ∀ db' n, db.aggregateDaily c₁ = some (db', n) → db'.metrics = db.metrics ∧
    ∀ k, (∀ m ∈ db.metrics, dayOf m = k → c₁ ≤ m.collectedAt) → db'.daily.get? k = db.daily.get? k
  counted : ∀ db' n, db.aggregateDaily c₁ = some (db', n) →
    n = ((db.olderThan c₁).map dayOf).toFinset.card

/-- Aggregating again is idempotent, and a later cutoff absorbs an earlier one. -/
theorem aggregateDaily_reaggregates (db : Db) (c₁ c₂ : Time) (hle : c₁ ≤ c₂) :
    Reaggregates db c₁ c₂ where
  absorbed := aggregateTwice_same hle
  repeated := aggregateTwice_same le_rfl
  returns := isSome_aggregateDaily_iff
  untouched := by
    intro db' n h
    obtain ⟨hmetrics, -, hdaily⟩ := get?_aggregateDaily h
    refine ⟨hmetrics, fun k hk => ?_⟩
    have hgroup : db.group c₁ k = [] := by
      rw [List.eq_nil_iff_forall_not_mem]
      intro m hm
      obtain ⟨hmem, hold, hday⟩ := mem_group.mp hm
      exact absurd hold (not_lt.mpr (hk m hmem hday))
    rw [hdaily, if_pos hgroup]
  counted := by
    intro db' n h
    rw [(get?_aggregateDaily h).2.1, List.card_toFinset]

/-- Midnight and noon of a day. -/
theorem aggregateDaily_reaggregates_zero : (0 : Time) ≤ 43200000 ∧ Reaggregates .empty 0 43200000 :=
  ⟨by decide, aggregateDaily_reaggregates .empty 0 43200000 (by decide)⟩

end OpsMonitor.Metric
