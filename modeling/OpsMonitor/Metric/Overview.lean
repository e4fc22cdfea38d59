import OpsMonitor.Alert.Records
import OpsMonitor.Metric.Summary

/-! The dashboard (`MonitorService.get_overview`): the averages come from one query and the list of
the servers from another. -/

namespace OpsMonitor.Metric
open Library

/-- The samples whose `collected_at` is the latest of their server. -/
def latestRows (metrics : Table MonitorServerMetric) : List MonitorServerMetric :=
  metrics.select fun m =>
    ∀ m' ∈ metrics.rows, m'.serverId = m.serverId → m'.collectedAt ≤ m.collectedAt

structure AvgUsage where
  cpu : Option ℚ
  memory : Option ℚ
  disk : Option ℚ
  deriving DecidableEq

/-- `round(x, 2)` of a `Decimal`. -/
def roundCents (x : ℚ) : ℚ := Double.roundEven (x * 100) / 100

/-- `round(avg, 2)` of a column, or `None`. -/
def meanUsage (of : MonitorServerMetric → Option (Decimal 5 2)) (samples : List MonitorServerMetric) :
    Option ℚ := (sqlAvg 6 (decimals of samples)).map roundCents

/-- `MetricRepository.get_server_usage_avg`. -/
def getServerUsageAvg (metrics : Table MonitorServerMetric) : AvgUsage where
  cpu := meanUsage (·.cpuUsage) (latestRows metrics)
  memory := meanUsage (·.memoryUsage) (latestRows metrics)
  disk := meanUsage (·.diskUsage) (latestRows metrics)

/-- `counts[status] = count`. -/
def setCount (counts : List (String × ℕ)) (status : String) (count : ℕ) : List (String × ℕ) :=
  if status ∈ counts.map Prod.fst then
    counts.map fun c => if c.1 = status then (status, count) else c
  else counts ++ [(status, count)]

/-- `ServerRepository.get_status_counts`, from the servers in use. -/
def getStatusCounts (servers : List OpsServer) : List (String × ℕ) :=
  let counts := (servers.map (·.agentStatus)).dedup.foldl
    (fun counts status => setCount counts status (servers.countP (·.agentStatus = status)))
    [("ONLINE", 0), ("WARNING", 0), ("OFFLINE", 0), ("UNKNOWN", 0)]
  setCount counts "total" (counts.map Prod.snd).sum

/-- `AlertEventRepository.count_active`. -/
def countActive (events : Table Alert.AlertEvent) : ℕ :=
  (events.select fun e => e.status.isActive).length

structure Overview where
  serverStats : List (String × ℕ)
  avgUsage : AvgUsage
  activeAlerts : ℕ
  servers : List (OpsServer × Option MonitorServerMetric)

/-- `MonitorService.get_overview`. -/
def MonitorService.getOverview (db : Alert.Db) : Overview :=
  let servers := db.listActive
  let latestMap := getLatestMap db.metrics (servers.map (·.id))
  { serverStats := getStatusCounts servers
    avgUsage := getServerUsageAvg db.metrics
    activeAlerts := countActive db.events
    servers := (servers.map fun server => (server, latestMap server.id)).insertionSort
      fun a b => b.1.id ≤ a.1.id }

/-! ## Means in cents -/

def cents (of : MonitorServerMetric → Option (Decimal 5 2)) (samples : List MonitorServerMetric) :
    List ℤ := samples.filterMap fun m => (of m).map Decimal.units

/-- The numbers, `n` of them with this sum, have a mean that rounds to `c` cents. The database rounds it
to four more digits first, so half a cent is 10001 or 9999 of 20000 parts. -/
def RoundsTo (c : ℤ) (n : ℕ) (sum : ℤ) : Prop :=
  let slack : ℤ := if c % 2 = 0 then 10001 else 9999
  (if 0 < c then (20000 * c - slack) * n ≤ 20000 * sum else (20000 * c - slack) * n < 20000 * sum) ∧
    if 0 ≤ c then 20000 * sum < (20000 * c + slack) * n else 20000 * sum ≤ (20000 * c + slack) * n

theorem reduceOption_decimals (of : MonitorServerMetric → Option (Decimal 5 2))
    (samples : List MonitorServerMetric) :
    (decimals of samples).reduceOption = (cents of samples).map fun u : ℤ => (u : ℚ) / 10 ^ 2 := by
  rw [decimals, cents, List.reduceOption, List.filterMap_map, List.map_filterMap]
  refine List.filterMap_congr fun m _ => ?_
  rw [Function.comp_apply, id, Option.map_map]
  rfl

theorem sum_map_cents (values : List ℤ) :
    (values.map fun u : ℤ => (u : ℚ) / 10 ^ 2).sum = (values.sum : ℚ) / 10 ^ 2 := by
  induction values with
  | nil => simp
  | cons u values ih =>
    rw [List.map_cons, List.sum_cons, ih, List.sum_cons]
    push_cast
    ring

/-- Ten thousandths of a cent that round to a number of cents. -/
theorem roundEven_ten_thousandths (u c : ℤ) : Double.roundEven ((u : ℚ) / 10 ^ 4) = c ↔
    let half : ℤ := if c % 2 = 0 then 5000 else 4999
    10000 * c - half ≤ u ∧ u ≤ 10000 * c + half := by
  have hscale : |(u : ℚ) / 10 ^ 4 - c| = |((u - 10000 * c : ℤ) : ℚ)| / 10 ^ 4 := by
    have hdiff : (u : ℚ) / 10 ^ 4 - c = ((u - 10000 * c : ℤ) : ℚ) / 10 ^ 4 := by
      push_cast
      ring
    rw [hdiff, abs_div, abs_of_pos (by norm_num : (0 : ℚ) < 10 ^ 4)]
  rw [Double.roundEven_eq_iff, hscale, div_lt_iff₀ (by norm_num), div_eq_iff (by norm_num)]
  have hlt : |((u - 10000 * c : ℤ) : ℚ)| < 1 / 2 * 10 ^ 4 ↔ |u - 10000 * c| < 5000 := by
    norm_num
    exact_mod_cast Iff.rfl
  have heq : |((u - 10000 * c : ℤ) : ℚ)| = 1 / 2 * 10 ^ 4 ↔ |u - 10000 * c| = 5000 := by
    norm_num
    exact_mod_cast Iff.rfl
  rw [hlt, heq, abs_lt, abs_eq (by norm_num)]
  dsimp only
  split_ifs with heven <;> omega

/-- The bounds of a rounding, as bounds of the sum. -/
theorem scaled_bounds {sum : ℤ} {n : ℕ} (hn : 0 < n) (a : ℤ) :
    ((a : ℚ) - 1 / 2 ≤ sum / n * 10 ^ 4 ↔ (2 * a - 1) * n ≤ 20000 * sum) ∧
      ((sum : ℚ) / n * 10 ^ 4 ≤ a + 1 / 2 ↔ 20000 * sum ≤ (2 * a + 1) * n) := by
  have hpos : (0 : ℚ) < n := by exact_mod_cast hn
  have hlow : (2 * a - 1) * n ≤ 20000 * sum ↔ ((2 * a - 1 : ℚ) * n ≤ 20000 * sum) := by
    exact_mod_cast Iff.rfl
  have hhigh : 20000 * sum ≤ (2 * a + 1) * n ↔ ((20000 * sum : ℚ) ≤ (2 * a + 1) * n) := by
    exact_mod_cast Iff.rfl
  rw [div_mul_eq_mul_div, le_div_iff₀ hpos, div_le_iff₀ hpos, hlow, hhigh]
  constructor <;> constructor <;> intro h <;> linarith

theorem roundsTo_iff {c sum : ℤ} {n : ℕ} (hn : 0 < n) :
    RoundsTo c n sum ↔ Double.roundEven ((roundHalfUp ((sum : ℚ) / n * 10 ^ 4) : ℚ) / 10 ^ 4) = c := by
  have hbounds : ∀ a b slack : ℤ, 2 * a - 1 = 20000 * c - slack → 2 * b + 1 = 20000 * c + slack →
      (0 < a ↔ 0 < c) → (0 ≤ b ↔ 0 ≤ c) →
      ((a ≤ roundHalfUp ((sum : ℚ) / n * 10 ^ 4) ∧ roundHalfUp ((sum : ℚ) / n * 10 ^ 4) ≤ b) ↔
        (if 0 < c then (20000 * c - slack) * n ≤ 20000 * sum
          else (20000 * c - slack) * n < 20000 * sum) ∧
        if 0 ≤ c then 20000 * sum < (20000 * c + slack) * n
          else 20000 * sum ≤ (20000 * c + slack) * n) := by
    intro a b slack ha hb hsignA hsignB
    have hltLow : (a : ℚ) - 1 / 2 < sum / n * 10 ^ 4 ↔ (2 * a - 1) * n < 20000 * sum := by
      have hcast : (a : ℚ) - 1 / 2 = ((a - 1 : ℤ) : ℚ) + 1 / 2 := by
        push_cast
        ring
      have hodd : 2 * (a - 1) + 1 = 2 * a - 1 := by ring
      rw [← not_le, hcast, (scaled_bounds hn (a - 1)).2, hodd, not_le]
    have hltHigh : (sum : ℚ) / n * 10 ^ 4 < b + 1 / 2 ↔ 20000 * sum < (2 * b + 1) * n := by
      have hcast : (b : ℚ) + 1 / 2 = ((b + 1 : ℤ) : ℚ) - 1 / 2 := by
        push_cast
        ring
      have hodd : 2 * (b + 1) - 1 = 2 * b + 1 := by ring
      rw [← not_le, hcast, (scaled_bounds hn (b + 1)).1, hodd, not_le]
    simp only [le_roundHalfUp, roundHalfUp_le, hsignA, hsignB, (scaled_bounds hn a).1, hltLow, hltHigh,
      (scaled_bounds hn b).2, ha, hb]
  rw [roundEven_ten_thousandths, RoundsTo]
  dsimp only
  by_cases heven : c % 2 = 0
  · simp only [if_pos heven]
    exact (hbounds _ _ _ (by ring) (by ring) (by omega) (by omega)).symm
  · simp only [if_neg heven]
    exact (hbounds _ _ _ (by ring) (by ring) (by omega) (by omega)).symm

theorem meanUsage_eq_none {of : MonitorServerMetric → Option (Decimal 5 2)}
    {samples : List MonitorServerMetric} : meanUsage of samples = none ↔ cents of samples = [] := by
  have hvalues := reduceOption_decimals of samples
  rw [meanUsage, Option.map_eq_none_iff, sqlAvg, hvalues]
  cases cents of samples with
  | nil => simp
  | cons u values => simp

theorem meanUsage_eq_some {of : MonitorServerMetric → Option (Decimal 5 2)}
    {samples : List MonitorServerMetric} {x : ℚ} : meanUsage of samples = some x ↔
      ∃ c : ℤ, x = c / 100 ∧ cents of samples ≠ [] ∧
        RoundsTo c (cents of samples).length (cents of samples).sum := by
  have hvalues := reduceOption_decimals of samples
  by_cases hempty : cents of samples = []
  · rw [meanUsage_eq_none.mpr hempty]
    simp [hempty]
  · have hpos : 0 < (cents of samples).length := List.length_pos_iff.mpr hempty
    have hne : (decimals of samples).reduceOption ≠ [] := by
      rw [hvalues, ne_eq, List.map_eq_nil_iff]
      exact hempty
    have hmean : (decimals of samples).reduceOption.sum / (decimals of samples).reduceOption.length *
        10 ^ 6 = ((cents of samples).sum : ℚ) / (cents of samples).length * 10 ^ 4 := by
      rw [hvalues, sum_map_cents, List.length_map]
      ring
    have hcent : ∀ v : ℤ, (v : ℚ) / 10 ^ 6 * 100 = v / 10 ^ 4 := fun v => by ring
    rw [meanUsage, sqlAvg_of_ne_nil 6 hne, hmean, Option.map_some, Option.some_inj, roundCents, hcent]
    simp only [roundsTo_iff hpos, ne_eq, hempty, not_false_eq_true, true_and]
    constructor
    · intro h
      exact ⟨_, h.symm, rfl⟩
    · rintro ⟨c, rfl, hc⟩
      rw [hc]

/-! ## The two queries -/

/-- The latest samples of the servers in the list. -/
def shownSamples (db : Alert.Db) : List MonitorServerMetric :=
  let ids := db.listActive.map (·.id)
  ids.filterMap (getLatestMap db.metrics ids)

/-- The latest samples that the list does not show. -/
def hiddenSamples (db : Alert.Db) : List MonitorServerMetric :=
  (latestRows db.metrics).filter fun m => m ∉ shownSamples db

section Queries
variable {db : Alert.Db} {metrics : Table MonitorServerMetric} {ids : List ℕ} {sid : ℕ}
  {m : MonitorServerMetric}

theorem of_getLatestMap (h : getLatestMap metrics ids sid = some m) :
    m.serverId = sid ∧ m ∈ latestRows metrics := by
  unfold getLatestMap at h
  split_ifs at h
  have hmem := List.mem_of_getLast? h
  rw [Table.mem_select, decide_eq_true_iff] at hmem
  obtain ⟨hm, rfl, hlatest⟩ := hmem
  refine ⟨rfl, ?_⟩
  rw [latestRows, Table.mem_select, decide_eq_true_iff]
  exact ⟨hm, hlatest⟩

theorem nodup_shownSamples : (shownSamples db).Nodup := by
  have hids : (db.listActive.map (·.id)).Nodup :=
    (List.filter_sublist.map _).nodup db.servers.nodup_keys
  refine hids.filterMap ?_
  intro i j m hi hj
  rw [← (of_getLatestMap hi).1, ← (of_getLatestMap hj).1]

/-- The rows of the average are the samples shown and those hidden. -/
theorem latestRows_perm : (latestRows db.metrics).Perm (shownSamples db ++ hiddenSamples db) := by
  have hshown : ((latestRows db.metrics).filter fun m => m ∈ shownSamples db).Perm (shownSamples db) := by
    refine (List.perm_ext_iff_of_nodup ((db.metrics.nodup_select _).filter _) nodup_shownSamples).mpr ?_
    intro m
    rw [List.mem_filter, decide_eq_true_iff]
    refine and_iff_right_of_imp fun hm => ?_
    obtain ⟨i, -, hi⟩ := List.mem_filterMap.mp hm
    exact (of_getLatestMap hi).2
  have hsplit := List.filter_append_perm (fun m => decide (m ∈ shownSamples db)) (latestRows db.metrics)
  refine hsplit.symm.trans ?_
  have hhidden : (latestRows db.metrics).filter (fun m => !decide (m ∈ shownSamples db)) =
      hiddenSamples db := List.filter_congr fun m _ => by rw [decide_not]
  rw [hhidden]
  exact hshown.append_right _

end Queries

/-! ## The averages and the list -/

structure UsageField where
  of : MonitorServerMetric → Option (Decimal 5 2)
  avg : AvgUsage → Option ℚ

def usageFields : List UsageField :=
  [⟨(·.cpuUsage), (·.cpu)⟩, ⟨(·.memoryUsage), (·.memory)⟩, ⟨(·.diskUsage), (·.disk)⟩]

/-- The averages are those of the samples in the list. -/
def Overview.Consistent (o : Overview) : Prop :=
  ∀ f ∈ usageFields, f.avg o.avgUsage = meanUsage f.of (o.servers.filterMap (·.2))

/-- The hidden numbers are none, or the mean of all rounds to the cents that the mean of the shown
rounds to. -/
def Unmoved (shown hidden : List ℤ) : Prop :=
  hidden = [] ∨ shown ≠ [] ∧ ∃ c, RoundsTo c shown.length shown.sum ∧
    RoundsTo c (shown.length + hidden.length) (shown.sum + hidden.sum)

section Means
variable {of : MonitorServerMetric → Option (Decimal 5 2)} {samples samples' : List MonitorServerMetric}

theorem meanUsage_perm (h : samples.Perm samples') : meanUsage of samples = meanUsage of samples' := by
  have hcolumn : (decimals of samples).Perm (decimals of samples') := h.map _
  rw [meanUsage, meanUsage, sqlAvg_perm 6 hcolumn]

theorem meanUsage_congr (h : cents of samples = cents of samples') :
    meanUsage of samples = meanUsage of samples' := by
  refine Option.ext fun x => ?_
  rw [meanUsage_eq_some, meanUsage_eq_some, h]

theorem cents_append (samples samples' : List MonitorServerMetric) :
    cents of (samples ++ samples') = cents of samples ++ cents of samples' := List.filterMap_append

theorem meanUsage_append_iff (shown hidden : List MonitorServerMetric) :
    meanUsage of (shown ++ hidden) = meanUsage of shown ↔ Unmoved (cents of shown) (cents of hidden) := by
  by_cases hhidden : cents of hidden = []
  · have hsame : cents of (shown ++ hidden) = cents of shown := by
      rw [cents_append, hhidden, List.append_nil]
    exact iff_of_true (meanUsage_congr hsame) (.inl hhidden)
  have hall : cents of (shown ++ hidden) ≠ [] := by
    rw [cents_append]
    exact List.append_ne_nil_of_right_ne_nil _ hhidden
  rw [Unmoved, or_iff_right hhidden]
  by_cases hshown : cents of shown = []
  · rw [meanUsage_eq_none.mpr hshown, meanUsage_eq_none]
    exact iff_of_false hall fun h => h.1 hshown
  rw [and_iff_right hshown]
  have hlength : (cents of (shown ++ hidden)).length = (cents of shown).length + (cents of hidden).length := by
    rw [cents_append, List.length_append]
  have hsum : (cents of (shown ++ hidden)).sum = (cents of shown).sum + (cents of hidden).sum := by
    rw [cents_append, List.sum_append]
  constructor
  · intro h
    obtain ⟨x, hx⟩ := Option.ne_none_iff_exists'.mp fun h => hshown (meanUsage_eq_none.mp h)
    obtain ⟨c, rfl, -, hc⟩ := meanUsage_eq_some.mp hx
    obtain ⟨c', heq, -, hc'⟩ := meanUsage_eq_some.mp (h.trans hx)
    obtain rfl : c = c' := by
      rw [div_left_inj' (by norm_num)] at heq
      exact_mod_cast heq
    rw [hlength, hsum] at hc'
    exact ⟨c, hc, hc'⟩
  · rintro ⟨c, hc, hc'⟩
    rw [← hlength, ← hsum] at hc'
    rw [meanUsage_eq_some.mpr ⟨c, rfl, hshown, hc⟩, meanUsage_eq_some.mpr ⟨c, rfl, hall, hc'⟩]

end Means

theorem avgUsage_eq (db : Alert.Db) {f : UsageField} (hf : f ∈ usageFields) :
    f.avg (MonitorService.getOverview db).avgUsage = meanUsage f.of (latestRows db.metrics) := by
  revert f
  simp [usageFields, MonitorService.getOverview, getServerUsageAvg]

theorem shown_perm (db : Alert.Db) :
    ((MonitorService.getOverview db).servers.filterMap (·.2)).Perm (shownSamples db) := by
  have hsort := List.perm_insertionSort (fun a b : OpsServer × Option MonitorServerMetric => b.1.id ≤ a.1.id)
    (db.listActive.map fun server =>
      (server, getLatestMap db.metrics (db.listActive.map (·.id)) server.id))
  have hfields := hsort.filterMap (·.2)
  rw [List.filterMap_map] at hfields
  rw [shownSamples, List.filterMap_map]
  exact hfields

/-- The dashboard is consistent with itself if and only if, in each of the three fields, the latest
samples that it does not show leave the mean where it is. -/
theorem overview_consistent_iff (db : Alert.Db) :
    (MonitorService.getOverview db).Consistent ↔
      ∀ f ∈ usageFields, Unmoved (cents f.of (shownSamples db)) (cents f.of (hiddenSamples db)) := by
  refine forall₂_congr fun f hf => ?_
  rw [avgUsage_eq db hf, meanUsage_perm (shown_perm db), meanUsage_perm latestRows_perm]
  exact meanUsage_append_iff _ _

theorem ten_percent : (1000 : ℤ).natAbs < 10 ^ 5 := by decide

theorem ninety_percent : (9000 : ℤ).natAbs < 10 ^ 5 := by decide

/-- Two servers, of which the second is disabled. -/
def disabledServer : Alert.Db := { Alert.Db.empty with
  servers := (Table.empty.insert plainServer).insert
    { plainServer with serverCode := "web-02", ipAddress := "10.0.0.2", status := 0 }
  metrics := (Table.empty.insert { minuteSample 0 with cpuUsage := some ⟨1000, ten_percent⟩ }).insert
    { minuteSample 0 with serverId := 2, cpuUsage := some ⟨9000, ninety_percent⟩ } }

/-- The list shows 10.00, the average is 50.00. -/
theorem disabled_server_counted : ¬ ∀ db, (MonitorService.getOverview db).Consistent := by
  intro h
  have hcpu := h disabledServer ⟨(·.cpuUsage), (·.cpu)⟩ List.mem_cons_self
  have hshown : ((MonitorService.getOverview disabledServer).avgUsage.cpu,
      meanUsage (·.cpuUsage) ((MonitorService.getOverview disabledServer).servers.filterMap (·.2))) =
        (some 50, some 10) := by decide +kernel
  obtain ⟨havg, hmean⟩ := Prod.mk.inj hshown
  have hdiffer : (some 50 : Option ℚ) = some 10 := havg.symm.trans (hcpu.trans hmean)
  norm_num at hdiffer

end OpsMonitor.Metric
