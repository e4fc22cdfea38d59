import OpsMonitor.Alert.Recovery

/-! The recovery threshold of a rule. The engine ends an event at a value of at most the column,
whatever the operator and the metric: this is the safe side of a rule that looks for large
values of a metric that is not scaled, and of few others. -/

namespace OpsMonitor.Alert
open Library

def Above (operator : String) : Prop := operator = "GT" ∨ operator = "GTE"

def Below (operator : String) : Prop := operator = "LT" ∨ operator = "LTE"

instance : DecidablePred Above := fun operator =>
  inferInstanceAs (Decidable (operator = "GT" ∨ operator = "GTE"))

/-- The value `w` is at `v`, or further from a violation. -/
def Safer (operator : String) (w v : ℚ) : Prop := if Above operator then w ≤ v else v ≤ w

/-- The recovery threshold, scaled as the threshold is. -/
def effectiveRecovery (rule : AlertRule) (server : OpsServer) : Option ℚ :=
  effectiveThreshold { rule with threshold := rule.recoveryThreshold } server

/-- The rule has both thresholds, with the recovery on the safe side. -/
def SafeSide (rule : AlertRule) : Prop :=
  (Above rule.operator ∨ Below rule.operator) ∧ ∃ recovery threshold,
    rule.recoveryThreshold = some recovery ∧ rule.threshold = some threshold ∧
    Safer rule.operator recovery.value threshold.value

def IsDouble (v : ℚ) : Prop := Double.ofRat v = v

/-- Values that are further from a violation than a recovered one are recovered too, and before
the recovery threshold is passed an active event stays active. -/
structure SafeRecovery (rule : AlertRule) (server : OpsServer) : Prop where
  monotone : ∀ v w, IsDouble v → IsDouble w → isRecovered rule v = true → Safer rule.operator w v →
    isRecovered rule w = true
  keeps : ∀ db now v, UniqueActive db → IsDouble v → ¬ Violates rule server v →
    (∀ recovery, effectiveRecovery rule server = some recovery → ¬ Safer rule.operator v recovery) →
    ActiveAlert db rule server → ActiveAlert (handleRecovery db rule server v now) rule server

variable {rule : AlertRule} {server : OpsServer} {recovery threshold : Decimal 12 4}

/-! ## The scaled thresholds -/

theorem Above.not_below {operator : String} (h : Above operator) : ¬ Below operator := by
  rintro (hlt | hlte)
  · rcases h with hgt | hgte
    · exact absurd (hgt.symm.trans hlt) (by decide)
    · exact absurd (hgte.symm.trans hlt) (by decide)
  · rcases h with hgt | hgte
    · exact absurd (hgt.symm.trans hlte) (by decide)
    · exact absurd (hgte.symm.trans hlte) (by decide)

theorem one_le_cores (server : OpsServer) : 1 ≤ cores server := by
  unfold cores
  split
  · exact le_rfl
  · exact le_rfl
  · rename_i n hzero _
    exact Nat.one_le_iff_ne_zero.mpr hzero

theorem abs_value_lt (d : Decimal 12 4) : |d.value| < 10 ^ 8 := by
  have hdigits : |(d.units : ℚ)| < 10 ^ 12 := by
    rw [← Int.cast_abs, Int.abs_eq_natAbs]
    exact_mod_cast d.digits
  rw [Decimal.value, abs_div, abs_of_pos (by positivity : (0 : ℚ) < 10 ^ 4), div_lt_iff₀ (by positivity)]
  linarith

/-- Two thresholds that differ do so by a unit of the column at least. -/
theorem value_add_le {d e : Decimal 12 4} (h : d.value < e.value) : d.value + 1 / 10 ^ 4 ≤ e.value := by
  rw [Decimal.value, Decimal.value, div_lt_div_iff_of_pos_right (by positivity)] at h
  have hunits : d.units + 1 ≤ e.units := by exact_mod_cast h
  rw [Decimal.value, Decimal.value, ← add_div, div_le_div_iff_of_pos_right (by positivity)]
  exact_mod_cast hunits

theorem float_near (d : Decimal 12 4) : |Double.ofRat d.value - d.value| ≤ 1 / 10 ^ 7 := by
  have hround := Double.abs_ofRat_sub_le d.value
  have hsize := abs_value_lt d
  have hdiv : |d.value| / 2 ^ 53 ≤ 10 ^ 8 / 2 ^ 53 := by gcongr
  calc |Double.ofRat d.value - d.value| ≤ |d.value| / 2 ^ 53 := hround
    _ ≤ 10 ^ 8 / 2 ^ 53 := hdiv
    _ ≤ 1 / 10 ^ 7 := by norm_num

/-- What the engine makes of a column of a `LOAD` rule. -/
def scaled (d : Decimal 12 4) (n : ℕ) : ℚ :=
  Double.roundTo 4 (Double.ofRat (Double.ofRat d.value * n))

/-- On one core the scaled column is the column. -/
theorem scaled_one (d : Decimal 12 4) : scaled d 1 = Double.ofRat d.value := by
  have hnear : |Double.ofRat d.value * 10 ^ 4 - d.units| < 1 / 2 := by
    have hunits : (d.units : ℚ) = d.value * 10 ^ 4 := by
      rw [Decimal.value, div_mul_cancel₀ _ (by positivity)]
    rw [hunits, ← sub_mul, abs_mul, abs_of_pos (by positivity : (0 : ℚ) < 10 ^ 4)]
    have hfloat := float_near d
    linarith
  rw [scaled, Nat.cast_one, mul_one, Double.ofRat_ofRat, Double.roundTo,
    Double.roundEven_eq_of_abs_lt hnear, Decimal.value]

/-- On several cores the roundings stay far below the product of a unit and the cores. -/
theorem scaled_near (d : Decimal 12 4) {n : ℕ} (hn : 2 ≤ n) :
    |scaled d n - d.value * n| ≤ 26 / 10 ^ 6 * n := by
  have hcast : (2 : ℚ) ≤ n := by exact_mod_cast hn
  have hsize := abs_value_lt d
  have hfloat := float_near d
  have hproduct : |Double.ofRat d.value * n - d.value * n| ≤ 1 / 10 ^ 7 * n := by
    rw [← sub_mul, abs_mul, Nat.abs_cast]
    gcongr
  have hproductSize : |d.value * n| ≤ 10 ^ 8 * n := by
    rw [abs_mul, Nat.abs_cast]
    gcongr
  have hround := Double.abs_ofRat_sub_le (Double.ofRat d.value * n)
  have hlast := Double.abs_roundTo_sub_le 4 (Double.ofRat (Double.ofRat d.value * n))
  rw [scaled]
  generalize Double.roundTo 4 (Double.ofRat (Double.ofRat d.value * n)) = z at hlast ⊢
  generalize Double.ofRat (Double.ofRat d.value * n) = y at hlast hround
  generalize Double.ofRat d.value * n = x at hround hproduct
  generalize d.value * n = v at hproduct hproductSize ⊢
  have hx : |x| ≤ |x - v| + |v| := by linarith [abs_sub_abs_le_abs_sub x v]
  have hy : |y| ≤ |y - x| + |x| := by linarith [abs_sub_abs_le_abs_sub y x]
  have hzv : |z - v| ≤ |z - y| + |y - x| + |x - v| := by
    linarith [abs_sub_le z y v, abs_sub_le y x v]
  norm_num at hround hlast hproduct hproductSize ⊢
  linarith

theorem isRecovered_eq (hr : rule.recoveryThreshold = some recovery) (v : ℚ) :
    isRecovered rule v = true ↔ v ≤ Double.ofRat recovery.value := by
  rw [isRecovered, hr]
  exact decide_eq_true_iff

theorem effectiveThreshold_eq (ht : rule.threshold = some threshold) :
    effectiveThreshold rule server = some (if rule.metricType = "LOAD" then
      scaled threshold (cores server) else Double.ofRat threshold.value) := by
  rw [effectiveThreshold, ht]
  rfl

/-! ## What a recovery does -/

/-- A value that does not violate ends an active event exactly when it counts as recovered. -/
theorem UniqueActive.activeAlert_handleRecovery {db : Db} {now : Time} {v : ℚ} (h : UniqueActive db) :
    ActiveAlert (handleRecovery db rule server v now) rule server ↔
      ActiveAlert db rule server ∧ isRecovered rule v = false := by
  have hset : SetsAlarm db (alertKey rule server) _ (handleRecovery db rule server v now) :=
    setsAlarm_handleRecovery h rule server v
  have halarm := hset.alarm
  have hkey : keyOf rule server.id = alertKey rule server := rfl
  rw [activeAlert_iff_alarm, activeAlert_iff_alarm, hkey, halarm, Alarm.isSome_observe]
  simp

/-- Some state has an active event of the rule and the server. -/
theorem exists_active (rule : AlertRule) (server : OpsServer) :
    ∃ db, UniqueActive db ∧ ActiveAlert db rule server := by
  have hempty : UniqueActive .empty := uniqueActive_after []
  have hnone : Db.empty.getActiveByAlertKey (alertKey rule server) = none := rfl
  have hset : SetsAlarm Db.empty (alertKey rule server) (some (.pending, 0))
      (createEvent .empty rule server 0 none 0) := setsAlarm_createEvent hempty hnone 0 none
  refine ⟨_, hset.unique, activeAlert_iff_alarm.mpr ?_⟩
  have hkey : keyOf rule server.id = alertKey rule server := rfl
  rw [hkey, hset.alarm]
  rfl

/-- An active event is kept before the recovery threshold exactly when no value there, that is
not a violation, counts as recovered. -/
theorem keeps_iff :
    (∀ db now v, UniqueActive db → IsDouble v → ¬ Violates rule server v →
      (∀ recovery, effectiveRecovery rule server = some recovery → ¬ Safer rule.operator v recovery) →
      ActiveAlert db rule server → ActiveAlert (handleRecovery db rule server v now) rule server) ↔
    ∀ v, IsDouble v → ¬ Violates rule server v →
      (∀ recovery, effectiveRecovery rule server = some recovery → ¬ Safer rule.operator v recovery) →
      isRecovered rule v = false := by
  constructor
  · intro h v hv hcalm hbefore
    obtain ⟨db, hunique, hactive⟩ := exists_active rule server
    exact (hunique.activeAlert_handleRecovery.mp (h db 0 v hunique hv hcalm hbefore hactive)).2
  · intro h db now v hunique hv hcalm hbefore hactive
    exact hunique.activeAlert_handleRecovery.mpr ⟨hactive, h v hv hcalm hbefore⟩

/-! ## Both directions of the comparison -/

theorem safer_of_above {w v : ℚ} (h : Above rule.operator) : Safer rule.operator w v ↔ w ≤ v := by
  rw [Safer, if_pos h]

theorem safer_of_below {w v : ℚ} (h : ¬ Above rule.operator) : Safer rule.operator w v ↔ v ≤ w := by
  rw [Safer, if_neg h]

/-- For a rule that looks for small values a recovery is lost further away from a violation. -/
theorem not_monotone (hr : rule.recoveryThreshold = some recovery) (hop : ¬ Above rule.operator) :
    ¬ SafeRecovery rule server := by
  intro h
  have hsize := abs_lt.mp (abs_value_lt recovery)
  have hfloat := abs_le.mp (float_near recovery)
  have hlow : isRecovered rule (-10 ^ 9) = true := (isRecovered_eq hr _).mpr (by linarith)
  have hminus : IsDouble (-10 ^ 9) := by
    have hint := @Double.ofRat_intCast (-1000000000) (by norm_num)
    norm_num [IsDouble] at hint ⊢
    exact hint
  have hplus : IsDouble (10 ^ 9) := by
    have hint := @Double.ofRat_intCast 1000000000 (by norm_num)
    norm_num [IsDouble] at hint ⊢
    exact hint
  have hhigh := h.monotone (-10 ^ 9) (10 ^ 9) hminus hplus hlow ((safer_of_below hop).mpr (by norm_num))
  have hle := (isRecovered_eq hr _).mp hhigh
  linarith

theorem le_of_calm {v t : ℚ} (hop : Above rule.operator)
    (ht : effectiveThreshold rule server = some t) (hcalm : ¬ Violates rule server v) : v ≤ t := by
  rw [Violates, ht] at hcalm
  rcases hop with hgt | hgte
  · simpa [hgt, compare] using hcalm
  · have hlt : v < t := by simpa [hgte, compare] using hcalm
    exact hlt.le

theorem calm_of_lt {v t : ℚ} (hop : Above rule.operator)
    (ht : effectiveThreshold rule server = some t) (hlt : v < t) : ¬ Violates rule server v := by
  rw [Violates, ht]
  rcases hop with hgt | hgte
  · simpa [hgt, compare] using hlt.le
  · simpa [hgte, compare] using hlt

/-! ## The scaled recovery -/

/-- A recovery threshold of at least zero does not shrink with the cores. -/
theorem le_scaled {n : ℕ} (hn : 1 ≤ n) (hpos : 0 ≤ recovery.value) :
    Double.ofRat recovery.value ≤ scaled recovery n := by
  rcases hn.eq_or_lt with rfl | htwo
  · rw [scaled_one]
  rcases hpos.eq_or_lt with hzero | hpos
  · have hscaled : scaled recovery n = 0 := by
      simp [scaled, ← hzero, Double.ofRat, Double.roundTo, Double.roundEven]
    rw [hscaled, ← hzero]
    simp [Double.ofRat, Double.roundEven]
  · have hcast : (2 : ℚ) ≤ n := by exact_mod_cast htwo
    have hnear := abs_le.mp (scaled_near recovery htwo)
    have hfloat := abs_le.mp (float_near recovery)
    have hunit : 1 / 10 ^ 4 ≤ recovery.value := by
      have hzero : (⟨0, by decide⟩ : Decimal 12 4).value = 0 := by simp [Decimal.value]
      have hstep := @value_add_le ⟨0, by decide⟩ recovery (by rwa [hzero])
      rwa [hzero, zero_add] at hstep
    nlinarith

/-- A negative one does, by more than the roundings: there are floats over it that neither reach
the threshold nor the unscaled recovery. -/
theorem exists_between {n : ℕ} (hn : 2 ≤ n) (hneg : recovery.value < 0)
    (hlt : recovery.value < threshold.value) :
    ∃ v, IsDouble v ∧ scaled recovery n < v ∧ v < scaled threshold n ∧ v ≤ Double.ofRat recovery.value := by
  have hcast : (2 : ℚ) ≤ n := by exact_mod_cast hn
  have hunit : recovery.value ≤ -(1 / 10 ^ 4) := by
    have hzero : (⟨0, by decide⟩ : Decimal 12 4).value = 0 := by simp [Decimal.value]
    have hstep := @value_add_le recovery ⟨0, by decide⟩ (by rwa [hzero])
    rw [hzero] at hstep
    linarith
  have hstep := value_add_le hlt
  have hrecovery := abs_le.mp (scaled_near recovery hn)
  have hthreshold := abs_le.mp (scaled_near threshold hn)
  have hfloat := abs_le.mp (float_near recovery)
  have hsize := abs_lt.mp (abs_value_lt recovery)
  -- the gap up to both bounds grows with the cores
  have hproduct : 1 / 10 ^ 4 * n ≤ (threshold.value - recovery.value) * n := by
    gcongr
    linarith
  have hshrink : recovery.value * n ≤ recovery.value - 1 / 10 ^ 4 * (n - 1) := by nlinarith
  obtain ⟨u, hu⟩ : ∃ u, u = min (scaled threshold n) (Double.ofRat recovery.value) := ⟨_, rfl⟩
  have hgap : scaled recovery n + 22 / 10 ^ 6 * n ≤ u := by
    rw [hu]
    refine le_min ?_ ?_
    · linarith
    · linarith
  have hlow : -(2 * 10 ^ 8 * n) ≤ scaled recovery n := by nlinarith
  have hhigh : u ≤ 2 * 10 ^ 8 * n := by
    have hle : u ≤ Double.ofRat recovery.value := hu ▸ min_le_right _ _
    linarith
  have hmiddle : |(scaled recovery n + u) / 2| ≤ 2 * 10 ^ 8 * n := by
    rw [abs_le]
    constructor <;> linarith
  have hround := abs_le.mp (Double.abs_ofRat_sub_le ((scaled recovery n + u) / 2))
  have herror : |(scaled recovery n + u) / 2| / 2 ^ 53 ≤ 2 * 10 ^ 8 * n / 2 ^ 53 := by gcongr
  have hdown : u - 1 / 10 ^ 6 * n > Double.ofRat ((scaled recovery n + u) / 2) := by
    norm_num at herror hround ⊢
    linarith
  refine ⟨_, Double.ofRat_ofRat ((scaled recovery n + u) / 2), ?_, ?_, ?_⟩
  · norm_num at herror hround ⊢
    linarith
  · have hle : u ≤ scaled threshold n := hu ▸ min_le_left _ _
    linarith
  · have hle : u ≤ Double.ofRat recovery.value := hu ▸ min_le_right _ _
    linarith

/-- The recovery threshold is no smaller on the cores of the server than the column, or no value
lies between it and the threshold. -/
def RecoveryScales (rule : AlertRule) (server : OpsServer) : Prop :=
  rule.metricType = "LOAD" → cores server = 1 ∨ rule.recoveryThreshold = rule.threshold ∨
    ∀ recovery, rule.recoveryThreshold = some recovery → 0 ≤ recovery.value

theorem value_inj {d e : Decimal 12 4} (h : d.value = e.value) : d = e := by
  have hunits : (d.units : ℚ) = e.units := by
    have hten : (10 : ℚ) ^ 4 ≠ 0 := by positivity
    exact (div_left_inj' hten).mp h
  cases d
  cases e
  simpa using hunits

/-- The values between the recovery threshold and the column, which are recovered too early. -/
theorem keeps_of_scales (hop : Above rule.operator) (hr : rule.recoveryThreshold = some recovery)
    (ht : rule.threshold = some threshold) (hscales : RecoveryScales rule server) {v : ℚ}
    (hcalm : ¬ Violates rule server v)
    (hbefore : ∀ recovery, effectiveRecovery rule server = some recovery →
      ¬ Safer rule.operator v recovery) : isRecovered rule v = false := by
  have heffective := @effectiveThreshold_eq { rule with threshold := rule.recoveryThreshold } server _ hr
  have hfar := hbefore _ heffective
  rw [safer_of_above hop, not_le] at hfar
  have hgoal : Double.ofRat recovery.value < v → isRecovered rule v = false := by
    intro hlt
    rw [← Bool.not_eq_true, isRecovered_eq hr]
    exact not_le.mpr hlt
  by_cases hload : rule.metricType = "LOAD"
  · rw [if_pos hload] at hfar
    rcases hscales hload with hone | hsame | hpos
    · rw [hone, scaled_one] at hfar
      exact hgoal hfar
    -- with equal thresholds every value over the recovery is a violation
    · have heq : recovery = threshold := by
        rw [hr, ht] at hsame
        exact Option.some.inj hsame
      have hle := le_of_calm hop (effectiveThreshold_eq ht) hcalm
      rw [if_pos hload, ← heq] at hle
      exact absurd hfar (not_lt.mpr hle)
    · exact hgoal ((le_scaled (one_le_cores server) (hpos recovery hr)).trans_lt hfar)
  · rw [if_neg hload] at hfar
    exact hgoal hfar

theorem scales_of_keeps (hop : Above rule.operator) (hr : rule.recoveryThreshold = some recovery)
    (ht : rule.threshold = some threshold) (hle : recovery.value ≤ threshold.value)
    (h : SafeRecovery rule server) : RecoveryScales rule server := by
  intro hload
  by_contra hnot
  rw [not_or, not_or] at hnot
  obtain ⟨hone, hsame, hpos⟩ := hnot
  have hmany : 2 ≤ cores server := lt_of_le_of_ne (one_le_cores server) (Ne.symm hone)
  have hneg : recovery.value < 0 := by
    by_contra hge
    refine hpos fun other hother => ?_
    rw [hr] at hother
    obtain rfl := Option.some.inj hother
    exact not_lt.mp hge
  have hlt : recovery.value < threshold.value := by
    refine lt_of_le_of_ne hle fun heq => hsame ?_
    rw [hr, ht, value_inj heq]
  obtain ⟨v, hdouble, hover, hunder, hcolumn⟩ := exists_between hmany hneg hlt
  have hthreshold := @effectiveThreshold_eq rule server _ ht
  rw [if_pos hload] at hthreshold
  have hrecovery := @effectiveThreshold_eq { rule with threshold := rule.recoveryThreshold } server _ hr
  dsimp only at hrecovery
  rw [if_pos hload] at hrecovery
  have hkept := keeps_iff.mp h.keeps v hdouble (calm_of_lt hop hthreshold hunder) <| by
    intro r hr
    rw [effectiveRecovery, hrecovery] at hr
    rw [safer_of_above hop, ← Option.some.inj hr, not_le]
    exact hover
  rw [(isRecovered_eq hr v).mpr hcolumn] at hkept
  cases hkept

/-- The recovery of a rule with both thresholds lies on the safe side exactly when the rule looks
for large values and its recovery threshold grows with the cores. -/
theorem safeRecovery_iff (rule : AlertRule) (server : OpsServer) (hside : SafeSide rule) :
    SafeRecovery rule server ↔ Above rule.operator ∧ RecoveryScales rule server := by
  obtain ⟨-, recovery, threshold, hr, ht, hle⟩ := hside
  constructor
  · intro h
    have hop : Above rule.operator := by
      by_contra hbelow
      exact not_monotone hr hbelow h
    exact ⟨hop, scales_of_keeps hop hr ht ((safer_of_above hop).mp hle) h⟩
  · rintro ⟨hop, hscales⟩
    refine ⟨?_, keeps_iff.mpr fun v _ hcalm hbefore => keeps_of_scales hop hr ht hscales hcalm hbefore⟩
    intro v w _ _ hv hwv
    rw [isRecovered_eq hr] at hv ⊢
    exact ((safer_of_above hop).mp hwv).trans hv

/-- The processor rule with a recovery at 70 percent. -/
def cpuRule : AlertRule where
  id := 1
  ruleName := "CPU 使用率过高"
  metricType := "CPU"
  targetType := "SERVER"
  severity := "WARNING"
  operator := "GT"
  threshold := some ⟨800000, by decide⟩
  durationSeconds := 300
  recoveryThreshold := some ⟨700000, by decide⟩
  enabled := 1
  durationSeconds_unsigned := by decide

theorem safeRecovery_iff_cpu :
    SafeRecovery cpuRule fourCores ↔ Above "GT" ∧ RecoveryScales cpuRule fourCores :=
  safeRecovery_iff cpuRule fourCores ⟨.inl (.inl rfl), _, _, rfl, rfl, by
    rw [Safer, if_pos (.inl rfl)]
    norm_num [Decimal.value]⟩

/-- A rule that looks for a small load, with the recovery at twice its threshold: it recovers at
every value below. -/
def idleRule : AlertRule :=
  { cpuRule with operator := "LT", threshold := some ⟨100000, by decide⟩,
                 recoveryThreshold := some ⟨200000, by decide⟩ }

theorem idle_recovers_early :
    ¬ ∀ (rule : AlertRule) (server : OpsServer), SafeSide rule → SafeRecovery rule server := by
  intro h
  have hside : SafeSide idleRule := by
    refine ⟨.inr (.inl rfl), _, _, rfl, rfl, ?_⟩
    rw [Safer, if_neg (by decide)]
    norm_num [Decimal.value]
  -- fifteen is no longer below the threshold, and not yet at the recovery
  have hdouble : IsDouble 15 := by exact_mod_cast @Double.ofRat_natCast 15 (by norm_num)
  have hcalm : ¬ Violates idleRule fourCores 15 := by
    unfold Violates
    decide +kernel
  have hbefore : ∀ recovery, effectiveRecovery idleRule fourCores = some recovery →
      ¬ Safer "LT" 15 recovery := by
    have htwenty : effectiveRecovery idleRule fourCores = some 20 := by decide +kernel
    intro recovery hrecovery
    rw [htwenty] at hrecovery
    rw [← Option.some.inj hrecovery, Safer, if_neg (by decide)]
    norm_num
  have hkept := keeps_iff.mp (h idleRule fourCores hside).keeps 15 hdouble hcalm hbefore
  have hended : isRecovered idleRule 15 = true := by decide +kernel
  rw [hended] at hkept
  cases hkept

end OpsMonitor.Alert
