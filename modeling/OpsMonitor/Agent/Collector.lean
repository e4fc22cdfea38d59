import OpsMonitor.Library.Double

/-! The metrics of the Go agent (`internal/collector/collector.go`, `internal/reporter/report.go`) and
the schema that the server checks them against. Floats are rationals with 53 significant bits. -/

namespace OpsMonitor.Agent
open Library

/-! ## What the system queries return -/

/-- A percentage, between 0 and 100. -/
structure Percent where
  value : ℚ
  nonneg : 0 ≤ value
  le_hundred : value ≤ 100

structure AvgStat where
  load1 : ℚ
  load5 : ℚ
  load15 : ℚ
  nonneg : 0 ≤ load1 ∧ 0 ≤ load5 ∧ 0 ≤ load15

structure IOCountersStat where
  bytesSent : ℕ
  bytesRecv : ℕ

structure VirtualMemoryStat where
  total : ℕ
  used : ℕ
  usedPercent : Percent

structure UsageStat where
  total : ℕ
  usedPercent : Percent

/-- The answers of the queries of one round. A query that fails returns `none`: with its error comes a
nil pointer, a nil slice or a zero. -/
structure Queries where
  cpuPercent : Option (List Percent)
  cpuCounts : Option ℕ
  diskUsage : Option UsageStat
  ioCounters : Option (List IOCountersStat)
  loadAvg : Option AvgStat
  uptime : Option ℕ
  virtualMemory : Option VirtualMemoryStat
  readFile : String → Option String

/-! ## Rounding -/

inductive Arch
  | amd64 | arm64
  deriving DecidableEq

/-- `int64(x)`. Out of range, amd64 gives the smallest number and arm64 the nearest. -/
def Arch.toInt64 (arch : Arch) (x : ℚ) : ℤ :=
  let n := if 0 ≤ x then ⌊x⌋ else ⌈x⌉
  if -2 ^ 63 ≤ n ∧ n < 2 ^ 63 then n
  else
    match arch with
    | .amd64 => -2 ^ 63
    | .arm64 => if n < 0 then -2 ^ 63 else 2 ^ 63 - 1

/-- `v*100+0.5`. -/
def hundredfold (v : ℚ) : ℚ := Double.ofRat (Double.ofRat (v * 100) + 1 / 2)

/-- `float64(int64(v*100+0.5)) / 100`. -/
def round2 (arch : Arch) (v : ℚ) : ℚ :=
  Double.ofRat (Double.ofRat (arch.toInt64 (hundredfold v)) / 100)

/-! ## The metrics -/

structure Metrics where
  cpuUsage : ℚ
  memoryUsage : ℚ
  memoryUsedBytes : ℕ
  diskUsage : ℚ
  networkInBytes : ℕ
  networkOutBytes : ℕ
  load1m : ℚ
  load5m : ℚ
  load15m : ℚ
  tcpConnections : ℤ
  uptimeSeconds : ℕ

def collectCPU (arch : Arch) (q : Queries) : ℚ × ℕ :=
  let usage := match q.cpuPercent with
    | some (p :: _) => round2 arch p.value
    | _ => 0
  (usage, q.cpuCounts.getD 0)

/-- `strings.Split(strings.TrimRight(text, "\n"), "\n")`. -/
def tableLines (text : String) : List (List Char) :=
  (text.toList.reverse.dropWhile (· = '\n')).reverse.splitOn '\n'

def readTCPConnections (q : Queries) : ℤ :=
  let total := (["/proc/net/tcp", "/proc/net/tcp6"].map fun path =>
    match q.readFile path with
    | none => 0
    | some text =>
      let lines := tableLines text
      if 0 < lines.length then (lines.length : ℤ) - 1 else 0).sum
  if total < 0 then 0 else total

/-- `CollectMetrics`, where `none` is the panic of a nil dereference. The error of the disk usage is
not looked at. -/
def collectMetrics (arch : Arch) (q : Queries) : Option Metrics := do
  let (cpuUsage, _) := collectCPU arch q
  let (inBytes, outBytes) := match q.ioCounters with
    | some (c :: _) => (c.bytesRecv, c.bytesSent)
    | _ => (0, 0)
  let (load1m, load5m, load15m) := match q.loadAvg with
    | some avg => (round2 arch avg.load1, round2 arch avg.load5, round2 arch avg.load15)
    | none => (0, 0, 0)
  let (memoryUsage, memoryUsedBytes) := match q.virtualMemory with
    | some vm => (round2 arch vm.usedPercent.value, vm.used)
    | none => (0, 0)
  let diskUsage ← q.diskUsage
  pure
    { cpuUsage := cpuUsage
      memoryUsage := memoryUsage
      memoryUsedBytes := memoryUsedBytes
      diskUsage := round2 arch diskUsage.usedPercent.value
      networkInBytes := inBytes
      networkOutBytes := outBytes
      load1m := load1m
      load5m := load5m
      load15m := load15m
      tcpConnections := readTCPConnections q
      uptimeSeconds := q.uptime.getD 0 }

/-! ## The request -/

/-- The body of `SendMetrics`, the fields of `MetricsRequest`. -/
structure MetricsRequest where
  serverId : Option ℤ
  timestamp : Option ℤ
  cpuUsage : Option ℚ
  memoryUsage : Option ℚ
  memoryUsedBytes : Option ℤ
  diskUsage : Option ℚ
  networkInBytes : Option ℤ
  networkOutBytes : Option ℤ
  load1m : Option ℚ
  load5m : Option ℚ
  load15m : Option ℚ
  tcpConnections : Option ℤ
  uptimeSeconds : Option ℤ

/-- `SendMetrics`, at an instant in seconds. -/
def sendMetrics (serverId now : ℤ) (m : Metrics) : MetricsRequest where
  serverId := some serverId
  timestamp := some now
  cpuUsage := some m.cpuUsage
  memoryUsage := some m.memoryUsage
  memoryUsedBytes := some m.memoryUsedBytes
  diskUsage := some m.diskUsage
  networkInBytes := some m.networkInBytes
  networkOutBytes := some m.networkOutBytes
  load1m := some m.load1m
  load5m := some m.load5m
  load15m := some m.load15m
  tcpConnections := some m.tcpConnections
  uptimeSeconds := some m.uptimeSeconds

/-- `Field(None, ge=0, le=high)`. -/
def checkBounds {α : Type} [LE α] [DecidableLE α] [Zero α] (loc : String) (high value : Option α) :
    List String :=
  match value with
  | none => []
  | some x => if 0 ≤ x ∧ ∀ h ∈ high, x ≤ h then [] else [loc]

/-- The fields that the validation of a `MetricsRequest` names. -/
def MetricsRequest.errors (r : MetricsRequest) : List String :=
  (if r.timestamp.isSome then [] else ["timestamp"]) ++
  checkBounds "cpu_usage" (some 100) r.cpuUsage ++
  checkBounds "memory_usage" (some 100) r.memoryUsage ++
  checkBounds "memory_used_bytes" none r.memoryUsedBytes ++
  checkBounds "disk_usage" (some 100) r.diskUsage ++
  checkBounds "network_in_bytes" none r.networkInBytes ++
  checkBounds "network_out_bytes" none r.networkOutBytes ++
  checkBounds "load_1m" none r.load1m ++
  checkBounds "load_5m" none r.load5m ++
  checkBounds "load_15m" none r.load15m ++
  checkBounds "tcp_connections" none r.tcpConnections ++
  checkBounds "uptime_seconds" none r.uptimeSeconds

/-! ## The bounds of the rounding -/

section Rounding
variable {arch : Arch} {v : ℚ}

theorem hundredfold_nonneg (h : 0 ≤ v) : 0 ≤ hundredfold v := by
  have hscaled : 0 ≤ Double.ofRat (v * 100) := Double.ofRat_nonneg (by linarith)
  exact Double.ofRat_nonneg (by linarith)

theorem toInt64_of_lt {x : ℚ} (h : 0 ≤ x) (hx : x < 2 ^ 63) : arch.toInt64 x = ⌊x⌋ := by
  have hfloor : 0 ≤ ⌊x⌋ := Int.floor_nonneg.mpr h
  have hlt : ⌊x⌋ < 2 ^ 63 := by
    rw [Int.floor_lt]
    exact_mod_cast hx
  have hrange : -2 ^ 63 ≤ ⌊x⌋ ∧ ⌊x⌋ < 2 ^ 63 := ⟨by linarith, hlt⟩
  unfold Arch.toInt64
  dsimp only
  rw [if_pos h, if_pos hrange]

theorem toInt64_of_le {x : ℚ} (h : 0 ≤ x) (hx : 2 ^ 63 ≤ x) :
    arch.toInt64 x = if arch = .amd64 then -2 ^ 63 else 2 ^ 63 - 1 := by
  have hge : 2 ^ 63 ≤ ⌊x⌋ := by
    rw [Int.le_floor]
    exact_mod_cast hx
  unfold Arch.toInt64
  dsimp only
  rw [if_pos h, if_neg (by omega)]
  cases arch with
  | amd64 => rfl
  | arm64 =>
    have hpos : ¬ ⌊x⌋ < 0 := by linarith
    simp [hpos]

theorem round2_nonneg_of_lt (h : 0 ≤ v) (hv : hundredfold v < 2 ^ 63) : 0 ≤ round2 arch v := by
  have hx := hundredfold_nonneg h
  have hfloor : (0 : ℚ) ≤ (⌊hundredfold v⌋ : ℤ) := by exact_mod_cast Int.floor_nonneg.mpr hx
  rw [round2, toInt64_of_lt hx hv]
  exact Double.ofRat_nonneg (div_nonneg (Double.ofRat_nonneg hfloor) (by norm_num))

/-- A load is reported as a negative number only when its hundredfold leaves the range of `int64`. -/
theorem round2_nonneg_iff (h : 0 ≤ v) : 0 ≤ round2 arch v ↔ hundredfold v < 2 ^ 63 ∨ arch = .arm64 := by
  by_cases hv : hundredfold v < 2 ^ 63
  · exact iff_of_true (round2_nonneg_of_lt h hv) (.inl hv)
  · rw [round2, toInt64_of_le (hundredfold_nonneg h) (not_lt.mp hv), or_iff_right hv]
    cases arch with
    | amd64 => exact iff_of_false (by decide +kernel) (by simp)
    | arm64 => exact iff_of_true (by decide +kernel) rfl

theorem round2_percent (h : 0 ≤ v) (hle : v ≤ 100) : 0 ≤ round2 arch v ∧ round2 arch v ≤ 100 := by
  have hhundred : Double.ofRat 10000 = 10000 := @Double.ofRat_natCast 10000 (by norm_num)
  have hhalf : Double.ofRat (10000 + 1 / 2) = 10000 + 1 / 2 := by decide +kernel
  have hscaled : Double.ofRat (v * 100) ≤ 10000 := by
    rw [← hhundred]
    exact Double.ofRat_mono (by linarith)
  have hfold : hundredfold v ≤ 10000 + 1 / 2 := by
    rw [hundredfold, ← hhalf]
    exact Double.ofRat_mono (by linarith)
  have hsmall : hundredfold v < 2 ^ 63 := by
    norm_num at hfold ⊢
    linarith
  refine ⟨round2_nonneg_of_lt h hsmall, ?_⟩
  have hfloor : ⌊hundredfold v⌋ ≤ 10000 := by
    refine Int.lt_add_one_iff.mp (Int.floor_lt.mpr ?_)
    push_cast
    linarith
  have hfloat : Double.ofRat (⌊hundredfold v⌋ : ℤ) ≤ 10000 := by
    rw [← hhundred]
    exact Double.ofRat_mono (by exact_mod_cast hfloor)
  have hunit : Double.ofRat 100 = 100 := @Double.ofRat_natCast 100 (by norm_num)
  rw [round2, toInt64_of_lt (hundredfold_nonneg h) hsmall]
  calc Double.ofRat (Double.ofRat (⌊hundredfold v⌋ : ℤ) / 100) ≤ Double.ofRat 100 :=
        Double.ofRat_mono (by linarith)
    _ = 100 := hunit

end Rounding

/-! ## What is reported -/

/-- The agent collects its metrics, and the server accepts them. -/
def Reports (arch : Arch) (q : Queries) : Prop :=
  ∃ m, collectMetrics arch q = some m ∧ ∀ serverId now, (sendMetrics serverId now m).errors = []

/-- The loads are in the range of `int64` when they are rounded. -/
def LoadsFit (arch : Arch) (q : Queries) : Prop :=
  ∀ avg ∈ q.loadAvg, ∀ load ∈ [avg.load1, avg.load5, avg.load15],
    hundredfold load < 2 ^ 63 ∨ arch = .arm64

section Reporting
variable {arch : Arch} {q : Queries} {m : Metrics}

theorem checkBounds_eq_nil {α : Type} [LE α] [DecidableLE α] [Zero α] {loc : String} {high : Option α}
    {x : α} : checkBounds loc high (some x) = [] ↔ 0 ≤ x ∧ ∀ h ∈ high, x ≤ h := by
  unfold checkBounds
  dsimp only
  split_ifs with h
  · exact iff_of_true rfl h
  · exact iff_of_false (by simp) h

/-- Only the floats of a report are in question. -/
theorem errors_sendMetrics_eq_nil (serverId now : ℤ) : (sendMetrics serverId now m).errors = [] ↔
    (∀ usage ∈ [m.cpuUsage, m.memoryUsage, m.diskUsage], 0 ≤ usage ∧ usage ≤ 100) ∧
      (∀ load ∈ [m.load1m, m.load5m, m.load15m], 0 ≤ load) ∧ 0 ≤ m.tcpConnections := by
  simp only [MetricsRequest.errors, sendMetrics, List.append_eq_nil_iff, checkBounds_eq_nil,
    Option.isSome_some, if_true, true_and, Option.mem_def, Option.some_inj, forall_eq', reduceCtorEq,
    false_imp_iff, implies_true, and_true, Int.natCast_nonneg, List.forall_mem_cons,
    List.not_mem_nil]
  tauto

theorem collectCPU_bounds : 0 ≤ (collectCPU arch q).1 ∧ (collectCPU arch q).1 ≤ 100 := by
  unfold collectCPU
  split
  · exact round2_percent (Percent.nonneg _) (Percent.le_hundred _)
  · norm_num

theorem readTCPConnections_nonneg : 0 ≤ readTCPConnections q := by
  unfold readTCPConnections
  dsimp only
  split_ifs <;> omega

/-- The loads of a round. -/
def loadsOf (arch : Arch) (q : Queries) : List ℚ :=
  match q.loadAvg with
  | some avg => [round2 arch avg.load1, round2 arch avg.load5, round2 arch avg.load15]
  | none => [0, 0, 0]

theorem loadsOf_nonneg_iff : (∀ load ∈ loadsOf arch q, 0 ≤ load) ↔ LoadsFit arch q := by
  unfold loadsOf LoadsFit
  cases q.loadAvg with
  | none => simp
  | some avg =>
    obtain ⟨h1, h5, h15⟩ := avg.nonneg
    simp only [List.forall_mem_cons, List.not_mem_nil, false_imp_iff, implies_true, and_true,
      Option.mem_def, Option.some_inj, forall_eq', round2_nonneg_iff h1, round2_nonneg_iff h5,
      round2_nonneg_iff h15]

/-- What a round collects, when it returns. -/
theorem of_collectMetrics (h : collectMetrics arch q = some m) :
    (∀ usage ∈ [m.cpuUsage, m.memoryUsage, m.diskUsage], 0 ≤ usage ∧ usage ≤ 100) ∧
      [m.load1m, m.load5m, m.load15m] = loadsOf arch q ∧ 0 ≤ m.tcpConnections := by
  have hcpu := @collectCPU_bounds arch q
  have htcp := @readTCPConnections_nonneg q
  unfold collectMetrics at h
  dsimp only at h
  obtain ⟨diskUsage, -, h⟩ := Option.bind_eq_some_iff.mp h
  obtain rfl := Option.some.inj h
  have hdisk := @round2_percent arch _ diskUsage.usedPercent.nonneg diskUsage.usedPercent.le_hundred
  refine ⟨?_, ?_, htcp⟩
  · simp only [List.forall_mem_cons, List.not_mem_nil, false_imp_iff, implies_true, and_true]
    refine ⟨hcpu, ?_, hdisk⟩
    cases q.virtualMemory with
    | none => norm_num
    | some vm => exact round2_percent vm.usedPercent.nonneg vm.usedPercent.le_hundred
  · unfold loadsOf
    cases q.loadAvg <;> rfl

theorem isSome_collectMetrics : (collectMetrics arch q).isSome ↔ q.diskUsage.isSome := by
  unfold collectMetrics
  cases q.diskUsage <;> simp

end Reporting

/-- A round is reported and accepted if and only if the query of the disk succeeds and the loads fit. -/
theorem reports_iff (arch : Arch) (q : Queries) :
    Reports arch q ↔ q.diskUsage.isSome ∧ LoadsFit arch q := by
  rw [← @isSome_collectMetrics arch q, ← loadsOf_nonneg_iff, Option.isSome_iff_exists]
  constructor
  · rintro ⟨m, hm, hvalid⟩
    obtain ⟨-, hloads, -⟩ := of_collectMetrics hm
    have hnonneg := ((errors_sendMetrics_eq_nil 0 0).mp (hvalid 0 0)).2.1
    rw [hloads] at hnonneg
    exact ⟨⟨m, hm⟩, hnonneg⟩
  · rintro ⟨⟨m, hm⟩, hnonneg⟩
    obtain ⟨husage, hloads, htcp⟩ := of_collectMetrics hm
    rw [← hloads] at hnonneg
    exact ⟨m, hm, fun serverId now => (errors_sendMetrics_eq_nil serverId now).mpr ⟨husage, hnonneg, htcp⟩⟩

/-- A round in which every query fails. -/
def noAnswers : Queries := ⟨none, none, none, none, none, none, none, fun _ => none⟩

theorem nil_disk_usage : ¬ ∀ arch q, Reports arch q := by
  intro h
  obtain ⟨m, hm, -⟩ := h .amd64 noAnswers
  cases hm

end OpsMonitor.Agent
