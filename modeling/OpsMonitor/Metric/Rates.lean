import OpsMonitor.Metric.Summary

/-! The network rates of a summary. The growth of a counter is divided by the width of a bucket,
whatever time has passed, and a bucket without a counter loses the one before. -/

namespace OpsMonitor.Metric
open Library

/-! ## Rates in units -/

/-- `round(growth / seconds / _MB, 4)`. -/
def rateOver (growth seconds : ℕ) : ℚ :=
  Double.roundTo 4 (Double.ofRat (Double.ofRat ((growth : ℚ) / seconds) / 2 ^ 20))

/-- The growth is less than half a unit of the rate, which is 0.0001 MB/s. -/
def Unseen (growth seconds : ℕ) : Prop := 2 * 10 ^ 4 * growth < seconds * 2 ^ 20

/-- Over two widths the growth is at least half a unit, over one it is less than a unit and a half. -/
def SeenAsOne (growth width seconds : ℕ) : Prop :=
  seconds = 2 * width ∧ ¬ Unseen growth seconds ∧ 2 * 10 ^ 4 * growth < 3 * (width * 2 ^ 20)

/-- The rate before it is rounded to a unit. -/
def inUnits (growth seconds : ℕ) : ℚ := Double.ofRat ((growth : ℚ) / seconds) * (10 ^ 4 / 2 ^ 20)

theorem ofRat_half_power (x : ℚ) : Double.ofRat (Double.ofRat x / 2 ^ 20) = Double.ofRat x / 2 ^ 20 := by
  have hscale := Double.ofRat_mul_zpow (Double.ofRat x) (-20)
  rw [Double.ofRat_ofRat] at hscale
  have hpow : (2 : ℚ) ^ (-20 : ℤ) = 1 / 2 ^ 20 := by norm_num
  rw [hpow, mul_one_div] at hscale
  exact hscale

theorem rateOver_eq (growth seconds : ℕ) :
    rateOver growth seconds = Double.ofRat (Double.roundEven (inUnits growth seconds) / 10 ^ 4) := by
  rw [rateOver, ofRat_half_power, Double.roundTo, inUnits]
  congr 4
  ring

section Units
variable {growth seconds width : ℕ}

theorem inUnits_nonneg : 0 ≤ inUnits growth seconds :=
  mul_nonneg (Double.ofRat_nonneg (by positivity)) (by norm_num)

theorem roundEven_eq_zero {z : ℚ} (hz : 0 ≤ z) : Double.roundEven z = 0 ↔ z ≤ 1 / 2 := by
  have hround := abs_le.mp (Double.abs_roundEven_sub_le z)
  constructor
  · intro h
    rw [h] at hround
    norm_num at hround
    linarith
  · intro h
    have hle := Double.roundEven_mono h
    have hge := Double.roundEven_mono hz
    have hhalf : Double.roundEven (1 / 2) = 0 := by decide +kernel
    have hzero : Double.roundEven 0 = 0 := Double.roundEven_intCast 0
    omega

/-- The float of a quotient is on the same side of a bound as the quotient, when it is not closer
than the roundings. -/
theorem ofRat_lt_of_lt {c : ℚ} (hseconds : 0 < seconds) (hsmall : seconds < 2 ^ 30)
    (hbound : c ≤ 200) {n : ℕ} (hn : c * (2 * 10 ^ 4) = n) (h : (growth : ℚ) / seconds < c) :
    Double.ofRat ((growth : ℚ) / seconds) < c := by
  have hpos : (0 : ℚ) < seconds := by exact_mod_cast hseconds
  have hlt : 2 * 10 ^ 4 * growth + 1 ≤ n * seconds := by
    rw [div_lt_iff₀ hpos] at h
    have hcast : ((2 * 10 ^ 4 * growth : ℕ) : ℚ) < ((n * seconds : ℕ) : ℚ) := by
      push_cast
      rw [← hn]
      linarith
    exact_mod_cast hcast
  have hcast : (2 * 10 ^ 4 * growth + 1 : ℚ) ≤ n * seconds := by exact_mod_cast hlt
  have hwidth : (seconds : ℚ) < 2 ^ 30 := by exact_mod_cast hsmall
  have hquot : (growth : ℚ) / seconds ≤ c - 1 / (2 * 10 ^ 4 * seconds) := by
    rw [div_le_iff₀ hpos, sub_mul]
    have hunit : 1 / (2 * 10 ^ 4 * (seconds : ℚ)) * seconds = 1 / (2 * 10 ^ 4) := by field_simp
    rw [hunit, ← sub_nonneg]
    rw [← hn] at hcast
    norm_num at hcast ⊢
    linarith
  have hgap : 1 / (2 * 10 ^ 4 * 2 ^ 30) ≤ 1 / (2 * 10 ^ 4 * (seconds : ℚ)) := by gcongr
  have hround := (abs_le.mp (Double.abs_ofRat_sub_le ((growth : ℚ) / seconds))).2
  have hsize : |(growth : ℚ) / seconds| / 2 ^ 53 ≤ 200 / 2 ^ 53 := by
    rw [abs_of_nonneg (by positivity)]
    gcongr
    linarith
  have herror : (200 : ℚ) / 2 ^ 53 < 1 / (2 * 10 ^ 4 * 2 ^ 30) := by norm_num
  linarith

/-- Half a unit: 52.4288 bytes in a second, which is no float. -/
theorem half_unit_lt : (32768 / 625 : ℚ) < Double.ofRat (32768 / 625) := by decide +kernel

theorem inUnits_le_half (hseconds : 0 < seconds) (hsmall : seconds < 2 ^ 30) :
    inUnits growth seconds ≤ 1 / 2 ↔ Unseen growth seconds := by
  have hpos : (0 : ℚ) < seconds := by exact_mod_cast hseconds
  have hunseen : Unseen growth seconds ↔ (growth : ℚ) / seconds < 32768 / 625 := by
    rw [div_lt_iff₀ hpos, Unseen]
    constructor
    · intro h
      have hcast : ((2 * 10 ^ 4 * growth : ℕ) : ℚ) < ((seconds * 2 ^ 20 : ℕ) : ℚ) := by exact_mod_cast h
      push_cast at hcast
      linarith
    · intro h
      have hcast : ((2 * 10 ^ 4 * growth : ℕ) : ℚ) < ((seconds * 2 ^ 20 : ℕ) : ℚ) := by
        push_cast
        linarith
      exact_mod_cast hcast
  have hunits : inUnits growth seconds ≤ 1 / 2 ↔
      Double.ofRat ((growth : ℚ) / seconds) ≤ 32768 / 625 := by
    rw [inUnits]
    constructor <;> intro h <;> linarith
  rw [hunseen, hunits]
  constructor
  · intro h
    by_contra hge
    have hmono := Double.ofRat_mono (not_lt.mp hge)
    exact absurd (half_unit_lt.trans_le hmono) (not_lt.mpr h)
  · intro h
    exact (ofRat_lt_of_lt hseconds hsmall (by norm_num) (n := 1048576) (by norm_num) h).le

theorem rateOver_eq_zero (hseconds : 0 < seconds) (hsmall : seconds < 2 ^ 30) :
    rateOver growth seconds = 0 ↔ Unseen growth seconds := by
  rw [← inUnits_le_half hseconds hsmall, ← roundEven_eq_zero inUnits_nonneg, rateOver_eq]
  constructor
  · intro h
    have hround := Double.abs_ofRat_sub_le ((Double.roundEven (inUnits growth seconds) : ℚ) / 10 ^ 4)
    rw [h, zero_sub, abs_neg] at hround
    have hzero : |(Double.roundEven (inUnits growth seconds) : ℚ) / 10 ^ 4| ≤ 0 := by linarith
    have hquot := abs_nonpos_iff.mp hzero
    rw [div_eq_zero_iff, or_iff_left (by norm_num)] at hquot
    exact_mod_cast hquot
  · intro h
    rw [h]
    simp [Double.ofRat, Double.roundEven]

/-- Rates that are equal have equal units, when one is at most half the other. -/
theorem units_eq_of_rateOver_eq {seconds' : ℕ} (hhalf : inUnits growth seconds' ≤ inUnits growth seconds / 2)
    (h : rateOver growth seconds = rateOver growth seconds') :
    Double.roundEven (inUnits growth seconds) = Double.roundEven (inUnits growth seconds') := by
  by_contra hne
  rw [rateOver_eq, rateOver_eq] at h
  have hp : 0 ≤ inUnits growth seconds := inUnits_nonneg
  have hq : 0 ≤ inUnits growth seconds' := inUnits_nonneg
  have hzero : Double.roundEven 0 = 0 := Double.roundEven_intCast 0
  have hn := Double.roundEven_mono hp
  have hm := Double.roundEven_mono hq
  have hle := Double.roundEven_mono (show inUnits growth seconds' ≤ inUnits growth seconds by linarith)
  rw [hzero] at hn hm
  have hpround := abs_le.mp (Double.abs_roundEven_sub_le (inUnits growth seconds))
  have hqround := abs_le.mp (Double.abs_roundEven_sub_le (inUnits growth seconds'))
  generalize Double.roundEven (inUnits growth seconds) = n at *
  generalize Double.roundEven (inUnits growth seconds') = m at *
  have hgap : (m : ℚ) + 1 ≤ n := by exact_mod_cast lt_of_le_of_ne hle (Ne.symm hne)
  have hn0 : (0 : ℚ) ≤ n := by exact_mod_cast hn
  have hm0 : (0 : ℚ) ≤ m := by exact_mod_cast hm
  have hnround := abs_le.mp (Double.abs_ofRat_sub_le ((n : ℚ) / 10 ^ 4))
  have hmround := abs_le.mp (Double.abs_ofRat_sub_le ((m : ℚ) / 10 ^ 4))
  rw [abs_of_nonneg (by positivity)] at hnround hmround
  rw [h] at hnround
  norm_num at hnround hmround
  linarith

/-- A unit and a half is no value that a growth takes over a width. -/
theorem inUnits_lt_top (hwidth : width = 60 ∨ width = 300 ∨ width = 3600) :
    inUnits growth width < 3 / 2 ↔ 2 * 10 ^ 4 * growth < 3 * (width * 2 ^ 20) := by
  have hpos : 0 < width := by omega
  have hcast : (0 : ℚ) < width := by exact_mod_cast hpos
  have hunits : inUnits growth width < 3 / 2 ↔ Double.ofRat ((growth : ℚ) / width) < 98304 / 625 := by
    rw [inUnits]
    constructor <;> intro h <;> linarith
  rw [hunits]
  constructor
  · intro h
    by_contra hge
    have hover : 3 * (width * 2 ^ 20) + 1 ≤ 2 * 10 ^ 4 * growth := by omega
    have hoverCast : (3 * (width * 2 ^ 20) + 1 : ℚ) ≤ 2 * 10 ^ 4 * growth := by exact_mod_cast hover
    have hle : (width : ℚ) ≤ 3600 := by
      have hnat : width ≤ 3600 := by omega
      exact_mod_cast hnat
    have hquot : (98304 / 625 + 1 / 72000000 : ℚ) ≤ growth / width := by
      rw [le_div_iff₀ hcast]
      linarith
    have hfloat : (98304 / 625 : ℚ) ≤ Double.ofRat (98304 / 625 + 1 / 72000000) := by decide +kernel
    exact absurd (hfloat.trans (Double.ofRat_mono hquot)) (not_le.mpr h)
  · intro h
    refine ofRat_lt_of_lt hpos (by omega) (by norm_num) (n := 3145728) (by norm_num) ?_
    have hlt : ((2 * 10 ^ 4 * growth : ℕ) : ℚ) < ((3 * (width * 2 ^ 20) : ℕ) : ℚ) := by exact_mod_cast h
    push_cast at hlt
    rw [div_lt_iff₀ hcast]
    linarith

/-- Over at least two widths a growth counts for half at most. -/
theorem inUnits_mul_le {n : ℕ} (hpos : 0 < width) (hn : 2 ≤ n) :
    inUnits growth (width * n) ≤ inUnits growth width / 2 := by
  have hcast : (0 : ℚ) < width := by exact_mod_cast hpos
  have hnCast : (2 : ℚ) ≤ n := by exact_mod_cast hn
  have hquot : (growth : ℚ) / (width * n : ℕ) ≤ growth / width * 2 ^ (-1 : ℤ) := by
    push_cast
    have htwo : (growth : ℚ) / width * 2 ^ (-1 : ℤ) = growth / (width * 2) := by
      rw [zpow_neg_one]
      field_simp
    rw [htwo]
    gcongr
  have hfloat := Double.ofRat_mono hquot
  rw [Double.ofRat_mul_zpow, zpow_neg_one] at hfloat
  rw [inUnits, inUnits]
  linarith

theorem roundEven_eq_one {z : ℚ} (hlow : 1 / 2 < z) (hhigh : z < 3 / 2) : Double.roundEven z = 1 := by
  refine Double.roundEven_eq_of_abs_lt ?_
  rw [abs_lt]
  push_cast
  constructor <;> linarith

/-- What the width of a bucket shows of a growth over several widths. -/
theorem rateOver_eq_rateOver_iff {n : ℕ} (hwidth : width = 60 ∨ width = 300 ∨ width = 3600)
    (hn : 2 ≤ n) (hsmall : width * n < 2 ^ 30) :
    rateOver growth width = rateOver growth (width * n) ↔
      Unseen growth width ∨ SeenAsOne growth width (width * n) := by
  have hpos : 0 < width := by omega
  have hpos' : 0 < width * n := by positivity
  have hsmall' : width < 2 ^ 30 := by omega
  have hhalf : inUnits growth (width * n) ≤ inUnits growth width / 2 := inUnits_mul_le hpos hn
  have hp : 0 ≤ inUnits growth width := inUnits_nonneg
  have hq : 0 ≤ inUnits growth (width * n) := inUnits_nonneg
  constructor
  · intro h
    have hunits := units_eq_of_rateOver_eq hhalf h
    by_cases hzero : Double.roundEven (inUnits growth width) = 0
    · exact .inl ((inUnits_le_half hpos hsmall').mp ((roundEven_eq_zero hp).mp hzero))
    have hpround := abs_le.mp (Double.abs_roundEven_sub_le (inUnits growth width))
    have hqround := abs_le.mp (Double.abs_roundEven_sub_le (inUnits growth (width * n)))
    have hseen : ¬ Unseen growth (width * n) := by
      rw [← inUnits_le_half hpos' hsmall, ← roundEven_eq_zero hq, ← hunits]
      exact hzero
    have htop : inUnits growth width < 3 / 2 := by
      by_contra hge
      -- from two units on the half of a number is closer to a smaller one
      have htwo : Double.roundEven (3 / 2) = 2 := by decide +kernel
      have hunit := Double.roundEven_mono (not_lt.mp hge)
      rw [htwo] at hunit
      have hunitCast : (2 : ℚ) ≤ Double.roundEven (inUnits growth width) := by exact_mod_cast hunit
      rw [← hunits] at hqround
      linarith
    have hlt := (inUnits_lt_top hwidth).mp htop
    have hn2 : n = 2 := by
      unfold Unseen at hseen
      by_contra hne
      have hthree : 3 ≤ n := by omega
      have hmul : width * 3 ≤ width * n := Nat.mul_le_mul_left _ hthree
      omega
    exact .inr ⟨by rw [hn2, mul_comm], hseen, hlt⟩
  · rintro (hunseen | ⟨-, hseen, hlt⟩)
    · have hle := (inUnits_le_half hpos hsmall').mpr hunseen
      have hle' : inUnits growth (width * n) ≤ 1 / 2 := by linarith
      rw [(rateOver_eq_zero hpos hsmall').mpr hunseen, eq_comm, rateOver_eq_zero hpos' hsmall]
      exact (inUnits_le_half hpos' hsmall).mp hle'
    · rw [← inUnits_le_half hpos' hsmall, not_le] at hseen
      have htop := (inUnits_lt_top hwidth).mpr hlt
      rw [rateOver_eq, rateOver_eq, roundEven_eq_one (by linarith) htop,
        roundEven_eq_one hseen (by linarith)]

end Units

/-! ## A series of counters -/

/-- The counters of the buckets that have a sample. -/
def counters (of : MonitorServerMetric → Option ℕ) (bucketSeconds : ℕ)
    (samples : List MonitorServerMetric) : List (Time × Option ℕ) :=
  (buckets bucketSeconds samples).map fun k =>
    (bucketTime bucketSeconds k, ((inBucket bucketSeconds samples k).filterMap of).max?)

/-- The seconds between two instants. -/
def elapsed (s t : Time) : ℕ := ((t - s) / 1000).toNat

/-- Buckets `i` and `j` have counters, and no bucket between them has one. -/
def Successive (counters : List (Time × Option ℕ)) (i j : ℕ) (s t : Time) (c d : ℕ) : Prop :=
  i < j ∧ counters[i]? = some (s, some c) ∧ counters[j]? = some (t, some d) ∧
    ∀ (k : ℕ) u e, i < k → k < j → counters[k]? = some (u, e) → e = none

/-- The rates integrate to the growth of the counters. -/
structure Integrates (counters : List (Time × Option ℕ)) (rates : List (Time × ℚ)) : Prop where
  between : ∀ (i j : ℕ) s t c d, Successive counters i j s t c d →
    rates[j]? = some (t, rateOver (d - c) (elapsed s t))
  zero : ∀ (j : ℕ) t d, counters[j]? = some (t, d) →
    (d = none ∨ ∀ (i : ℕ) u e, i < j → counters[i]? = some (u, e) → e = none) → rates[j]? = some (t, 0)

/-- Successive counters are in neighbouring buckets, or their growth is too small for the difference
to be seen. -/
def Undisturbed (bucketSeconds : ℕ) (counters : List (Time × Option ℕ)) : Prop :=
  ∀ i j s t c d, Successive counters i j s t c d →
    if j = i + 1 then
      elapsed s t = bucketSeconds ∨ Unseen (d - c) bucketSeconds ∨
        SeenAsOne (d - c) bucketSeconds (elapsed s t)
    else Unseen (d - c) (elapsed s t)

/-- The loop of the points, for the rate of one counter. -/
def rates (bucketSeconds : ℕ) (prev : Option ℕ) : List (Time × Option ℕ) → List (Time × ℚ)
  | [] => []
  | (t, current) :: rest =>
    (t, networkRate bucketSeconds prev current) :: rates bucketSeconds current rest

theorem map_rates_points (prevIn prevOut : Option ℕ) (rows : List SummaryRow) :
    (points bucketSeconds prevIn prevOut rows).map (fun p => (p.time, p.networkInRate)) =
        rates bucketSeconds prevIn (rows.map fun row => (row.bucket, row.networkInMax)) ∧
      (points bucketSeconds prevIn prevOut rows).map (fun p => (p.time, p.networkOutRate)) =
        rates bucketSeconds prevOut (rows.map fun row => (row.bucket, row.networkOutMax)) := by
  induction rows generalizing prevIn prevOut with
  | nil => exact ⟨rfl, rfl⟩
  | cons row rows ih =>
    obtain ⟨hin, hout⟩ := ih row.networkInMax row.networkOutMax
    simp only [points, rates, List.map_cons]
    exact ⟨by rw [hin], by rw [hout]⟩

section Series
variable {bucketSeconds : ℕ} {cs : List (Time × Option ℕ)} {prev current : Option ℕ} {t u : Time}
  {i j : ℕ}

theorem getElem?_rates_zero (h : cs[0]? = some (t, current)) :
    (rates bucketSeconds prev cs)[0]? = some (t, networkRate bucketSeconds prev current) := by
  cases cs with
  | nil => cases h
  | cons c cs =>
    obtain rfl := Option.some.inj h
    rfl

/-- A rate is taken from the bucket before. -/
theorem getElem?_rates_succ (hprev : cs[j]? = some (u, prev)) (h : cs[j + 1]? = some (t, current))
    (first : Option ℕ) :
    (rates bucketSeconds first cs)[j + 1]? = some (t, networkRate bucketSeconds prev current) := by
  induction cs generalizing j first with
  | nil => cases h
  | cons c cs ih =>
    rw [List.getElem?_cons_succ] at h
    rw [rates, List.getElem?_cons_succ]
    cases j with
    | zero =>
      obtain rfl := Option.some.inj hprev
      exact getElem?_rates_zero h
    | succ j => exact ih hprev h c.2

theorem networkRate_some (c d : ℕ) :
    networkRate bucketSeconds (some c) (some d) = rateOver (d - c) bucketSeconds := rfl

theorem networkRate_none_left (current : Option ℕ) : networkRate bucketSeconds none current = 0 := rfl

theorem networkRate_none_right (prev : Option ℕ) : networkRate bucketSeconds prev none = 0 := by
  cases prev <;> rfl

/-- A bucket before one of a series is one of it. -/
theorem exists_getElem?_of_lt (hij : i < j) (h : cs[j]? = some (t, current)) :
    ∃ u prev, cs[i]? = some (u, prev) := by
  obtain ⟨hj, -⟩ := List.getElem?_eq_some_iff.mp h
  exact ⟨_, _, List.getElem?_eq_getElem (hij.trans hj)⟩

theorem rates_zero (h : cs[j]? = some (t, current))
    (hzero : current = none ∨ ∀ (i : ℕ) u e, i < j → cs[i]? = some (u, e) → e = none) :
    (rates bucketSeconds none cs)[j]? = some (t, 0) := by
  cases j with
  | zero => rw [getElem?_rates_zero h, networkRate_none_left]
  | succ j =>
    obtain ⟨u, prev, hprev⟩ := exists_getElem?_of_lt (Nat.lt_succ_self j) h
    rw [getElem?_rates_succ hprev h]
    rcases hzero with rfl | hzero
    · rw [networkRate_none_right]
    · rw [hzero j u prev (Nat.lt_succ_self j) hprev, networkRate_none_left]

/-- The rate of a bucket whose counter has a predecessor: only a neighbour counts as one. -/
theorem rates_successive {s : Time} {c d : ℕ} (h : Successive cs i j s t c d) :
    (rates bucketSeconds none cs)[j]? =
      some (t, if j = i + 1 then rateOver (d - c) bucketSeconds else 0) := by
  obtain ⟨hij, hi, hj, hnone⟩ := h
  obtain ⟨k, rfl⟩ : ∃ k, j = k + 1 := ⟨j - 1, by omega⟩
  obtain ⟨u, prev, hprev⟩ := exists_getElem?_of_lt (Nat.lt_succ_self k) hj
  rw [getElem?_rates_succ hprev hj]
  by_cases hik : k + 1 = i + 1
  · obtain rfl : k = i := by omega
    obtain ⟨-, rfl⟩ := Prod.mk.inj (Option.some.inj (hi.symm.trans hprev))
    rw [if_pos rfl, networkRate_some]
  · rw [if_neg hik, hnone k u prev (by omega) (by omega) hprev, networkRate_none_left]

/-- The buckets of a series are of one width, in order, and not too many. -/
structure Spaced (bucketSeconds : ℕ) (cs : List (Time × Option ℕ)) : Prop where
  width : bucketSeconds = 60 ∨ bucketSeconds = 300 ∨ bucketSeconds = 3600
  apart : ∀ (i j : ℕ) s t c d, i < j → cs[i]? = some (s, c) → cs[j]? = some (t, d) →
    ∃ n, 1 ≤ n ∧ elapsed s t = bucketSeconds * n ∧ bucketSeconds * n < 2 ^ 30

theorem integrates_iff (hspaced : Spaced bucketSeconds cs) :
    Integrates cs (rates bucketSeconds none cs) ↔ Undisturbed bucketSeconds cs := by
  have hpos : 0 < bucketSeconds := by
    have hwidth := hspaced.width
    omega
  have hpair : ∀ i j s t c d, Successive cs i j s t c d →
      ((rates bucketSeconds none cs)[j]? = some (t, rateOver (d - c) (elapsed s t)) ↔
        if j = i + 1 then elapsed s t = bucketSeconds ∨ Unseen (d - c) bucketSeconds ∨
          SeenAsOne (d - c) bucketSeconds (elapsed s t)
        else Unseen (d - c) (elapsed s t)) := by
    intro i j s t c d h
    obtain ⟨n, hn, helapsed, hsmall⟩ := hspaced.apart i j s t _ _ h.1 h.2.1 h.2.2.1
    rw [rates_successive h, Option.some_inj, Prod.mk.injEq, and_iff_right rfl, helapsed]
    split_ifs
    · rcases Nat.eq_or_lt_of_le hn with rfl | hn
      · simp
      · have hne : bucketSeconds * n ≠ bucketSeconds := by
          have hmul := Nat.mul_le_mul_left bucketSeconds hn
          omega
        rw [or_iff_right hne]
        exact rateOver_eq_rateOver_iff hspaced.width hn hsmall
    · rw [eq_comm]
      exact rateOver_eq_zero (by positivity) hsmall
  constructor
  · intro h i j s t c d hsucc
    exact (hpair i j s t c d hsucc).mp (h.between i j s t c d hsucc)
  · intro h
    refine ⟨?_, ?_⟩
    · intro i j s t c d hsucc
      exact (hpair i j s t c d hsucc).mpr (h i j s t c d hsucc)
    · intro j t d hj hzero
      exact rates_zero hj hzero

end Series

/-! ## The rates of a summary -/

/-- The two rates of the points of a server. -/
def RatesIntegrate (bucketSeconds : ℕ) (samples : List MonitorServerMetric)
    (points : List MetricBucket) : Prop :=
  Integrates (counters (·.networkInBytes) bucketSeconds samples)
      (points.map fun p => (p.time, p.networkInRate)) ∧
    Integrates (counters (·.networkOutBytes) bucketSeconds samples)
      (points.map fun p => (p.time, p.networkOutRate))

section Window
variable {bucketSeconds seconds : ℕ} {metrics : Table MonitorServerMetric} {serverId : ℕ}
  {start stop : ℤ}

theorem elapsed_bucketTime {k l : ℤ} (h : k ≤ l) :
    elapsed (bucketTime bucketSeconds k) (bucketTime bucketSeconds l) =
      bucketSeconds * (l - k).toNat := by
  obtain ⟨n, rfl⟩ : ∃ n : ℕ, l = k + n := ⟨(l - k).toNat, by omega⟩
  have hdiff : bucketTime bucketSeconds (k + n) - bucketTime bucketSeconds k =
      ((bucketSeconds * n : ℕ) : ℤ) * 1000 := by
    unfold bucketTime Clock.seconds
    push_cast
    ring
  rw [elapsed, hdiff, Int.mul_ediv_cancel _ (by norm_num), Int.toNat_natCast, add_sub_cancel_left,
    Int.toNat_natCast]

theorem getElem?_counters {of : MonitorServerMetric → Option ℕ} {samples : List MonitorServerMetric}
    {i : ℕ} {t : Time} {c : Option ℕ} (h : (counters of bucketSeconds samples)[i]? = some (t, c)) :
    ∃ k, (buckets bucketSeconds samples)[i]? = some k ∧ t = bucketTime bucketSeconds k := by
  rw [counters, List.getElem?_map, Option.map_eq_some_iff] at h
  obtain ⟨k, hk, heq⟩ := h
  exact ⟨k, hk, (Prod.mk.inj heq).1.symm⟩

/-- The buckets of a window are spaced. -/
theorem spaced_counters (of : MonitorServerMetric → Option ℕ)
    (hwidth : bucketSeconds = 60 ∨ bucketSeconds = 300 ∨ bucketSeconds = 3600) {n : ℕ}
    (hlong : bucketSeconds * n ≤ 604800)
    (hstop : stop = start + 1000000 * (bucketSeconds * n : ℕ)) :
    Spaced bucketSeconds (counters of bucketSeconds (window metrics serverId start stop)) := by
  refine ⟨hwidth, ?_⟩
  intro i j s t c d hij hi hj
  have hpos : 0 < bucketSeconds := by omega
  obtain ⟨k, hk, rfl⟩ := getElem?_counters hi
  obtain ⟨l, hl, rfl⟩ := getElem?_counters hj
  obtain ⟨hilen, rfl⟩ := List.getElem?_eq_some_iff.mp hk
  obtain ⟨hjlen, rfl⟩ := List.getElem?_eq_some_iff.mp hl
  have hlt := List.pairwise_iff_getElem.mp
    (buckets_sorted bucketSeconds (window metrics serverId start stop)) i j hilen hjlen hij
  have hmem : ∀ (m : ℕ) (hm : m < (buckets bucketSeconds (window metrics serverId start stop)).length),
      (buckets bucketSeconds (window metrics serverId start stop))[m] ∈
        Finset.Icc (bucketAt bucketSeconds start) (bucketAt bucketSeconds stop) := by
    intro m hm
    obtain ⟨sample, hsample, heq⟩ := mem_buckets.mp (List.getElem_mem hm)
    rw [← heq]
    exact bucketOf_mem_Icc hpos hsample
  have hlow := (Finset.mem_Icc.mp (hmem i hilen)).1
  have hhigh := (Finset.mem_Icc.mp (hmem j hjlen)).2
  have hlast : bucketAt bucketSeconds stop = bucketAt bucketSeconds start + n := by
    rw [hstop, bucketAt_add hpos]
  rw [hlast] at hhigh
  refine ⟨_, ?_, elapsed_bucketTime hlt.le, ?_⟩
  · omega
  · have hcount : ((buckets bucketSeconds (window metrics serverId start stop))[j] -
        (buckets bucketSeconds (window metrics serverId start stop))[i]).toNat ≤ n := by omega
    have hmul := Nat.mul_le_mul_left bucketSeconds hcount
    omega

theorem ratesIntegrate_iff
    (hwidth : bucketSeconds = 60 ∨ bucketSeconds = 300 ∨ bucketSeconds = 3600) {n : ℕ}
    (hlong : bucketSeconds * n ≤ 604800)
    (hstop : stop = start + 1000000 * (bucketSeconds * n : ℕ)) :
    RatesIntegrate bucketSeconds (window metrics serverId start stop)
      (points bucketSeconds none none
        (MetricRepository.getSummary metrics serverId start stop bucketSeconds)) ↔
      Undisturbed bucketSeconds
          (counters (·.networkInBytes) bucketSeconds (window metrics serverId start stop)) ∧
        Undisturbed bucketSeconds
          (counters (·.networkOutBytes) bucketSeconds (window metrics serverId start stop)) := by
  obtain ⟨hin, hout⟩ := @map_rates_points bucketSeconds none none
    (MetricRepository.getSummary metrics serverId start stop bucketSeconds)
  rw [RatesIntegrate, hin, hout, MetricRepository.getSummary, List.map_map, List.map_map]
  exact and_congr (integrates_iff (spaced_counters _ hwidth hlong hstop))
    (integrates_iff (spaced_counters _ hwidth hlong hstop))

end Window

/-- The rates of a summary integrate to the traffic if and only if its counters are undisturbed. -/
theorem summary_rates_iff (servers : Table OpsServer) (metrics : Table MonitorServerMetric) (now : ℤ)
    (serverId : ℕ) (rangeKey : String) (summary : MetricSummary)
    (hok : MonitorService.getSummary servers metrics now serverId rangeKey = .ok summary) :
    RatesIntegrate summary.bucketSeconds (window metrics serverId summary.start summary.stop)
      summary.points ↔
    Undisturbed summary.bucketSeconds (counters (·.networkInBytes) summary.bucketSeconds
        (window metrics serverId summary.start summary.stop)) ∧
      Undisturbed summary.bucketSeconds (counters (·.networkOutBytes) summary.bucketSeconds
        (window metrics serverId summary.start summary.stop)) := by
  obtain ⟨server, seconds, hserver, hrange, hstart, hstop, hpoints⟩ := of_getSummary hok
  obtain ⟨hwidth, hseconds, hlong⟩ := rangeConfig_widths hrange
  rw [hpoints, ← getServer_id hserver]
  refine ratesIntegrate_iff hwidth (n := seconds / summary.bucketSeconds) ?_ ?_
  · rw [← hseconds]
    exact hlong
  · rw [← hseconds, hstart, hstop]
    ring

/-- An hour without samples. -/
theorem summary_rates_iff_empty :
    RatesIntegrate 60 (window .empty 1 0 3600000000)
      (points 60 none none (MetricRepository.getSummary .empty 1 0 3600000000 60)) ↔
    Undisturbed 60 (counters (·.networkInBytes) 60 (window .empty 1 0 3600000000)) ∧
      Undisturbed 60 (counters (·.networkOutBytes) 60 (window .empty 1 0 3600000000)) :=
  summary_rates_iff _ _ _ _ _ _ (getSummary_hour .empty)

/-- Two minutes apart, a counter has grown by 120 MB. -/
def twoMinutes : Table MonitorServerMetric :=
  (Table.empty.insert { minuteSample 0 with networkInBytes := some 0 }).insert
    { minuteSample 2 with networkInBytes := some 125829120 }

theorem counters_twoMinutes :
    counters (·.networkInBytes) 60 (window twoMinutes 1 0 3600000000) =
      [(0, some 0), (120000, some 125829120)] := by decide +kernel

/-- The rate is 2 MB/s, of a minute that has passed twice. -/
theorem doubled_rate :
    ¬ ∀ (servers : Table OpsServer) (metrics : Table MonitorServerMetric) (now : ℤ) (serverId : ℕ)
      (rangeKey : String) (summary : MetricSummary),
      MonitorService.getSummary servers metrics now serverId rangeKey = .ok summary →
      RatesIntegrate summary.bucketSeconds (window metrics serverId summary.start summary.stop)
        summary.points := by
  intro h
  have hpair : Successive [(0, some 0), (120000, some 125829120)] 0 1 0 120000 0 125829120 := by
    refine ⟨Nat.zero_lt_one, rfl, rfl, ?_⟩
    intro k u e hlow hhigh
    omega
  have hbetween := (h _ _ _ _ _ _ (getSummary_hour twoMinutes)).1.between 0 1 0 120000 0 125829120
    (by rw [counters_twoMinutes]; exact hpair)
  have hrates := (@map_rates_points 60 none none
    (MetricRepository.getSummary twoMinutes 1 0 3600000000 60)).1
  have hcounters : (MetricRepository.getSummary twoMinutes 1 0 3600000000 60).map
      (fun row => (row.bucket, row.networkInMax)) = [(0, some 0), (120000, some 125829120)] := by
    rw [← counters_twoMinutes, MetricRepository.getSummary, List.map_map]
    rfl
  rw [hrates, hcounters, rates_successive hpair, Option.some_inj, Prod.mk.injEq] at hbetween
  have hdiffer : (if 1 = 0 + 1 then rateOver (125829120 - 0) 60 else 0) ≠
      rateOver (125829120 - 0) (elapsed 0 120000) := by decide +kernel
  exact hdiffer hbetween.2

end OpsMonitor.Metric
