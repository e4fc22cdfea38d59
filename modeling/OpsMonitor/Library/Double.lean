import Mathlib

/-! Python's `float` as exact rational numbers. An operation rounds its exact result to the
nearest number with 53 significant bits, to the even one in a tie. The exponents are not
bounded: the values of the program stay far from the smallest and the largest double. -/

namespace OpsMonitor.Library.Double

/-- The nearest integer, the even one in a tie. -/
def roundEven (x : ℚ) : ℤ :=
  let r := x - ⌊x⌋
  if r < 1 / 2 then ⌊x⌋ else if 1 / 2 < r then ⌊x⌋ + 1 else if ⌊x⌋ % 2 = 0 then ⌊x⌋ else ⌊x⌋ + 1

/-- The distance between the numbers with 53 significant bits around `x`. -/
def ulp (x : ℚ) : ℚ := 2 ^ (Int.log 2 |x| - 52)

/-- `float(x)`. -/
def ofRat (x : ℚ) : ℚ := roundEven (x / ulp x) * ulp x

/-- `round(x, n)`. -/
def roundTo (n : ℕ) (x : ℚ) : ℚ := ofRat (roundEven (x * 10 ^ n) / 10 ^ n)

/-- `f"{x:.2f}"`. -/
def fixed2 (x : ℚ) : String :=
  let cents := (roundEven (|x| * 100)).natAbs
  (if x < 0 then "-" else "") ++ toString (cents / 100) ++ "." ++
    (if cents % 100 < 10 then "0" else "") ++ toString (cents % 100)

theorem abs_roundEven_sub_le (x : ℚ) : |(roundEven x : ℚ) - x| ≤ 1 / 2 := by
  have hlow : (⌊x⌋ : ℚ) ≤ x := Int.floor_le x
  have hhigh : x < ⌊x⌋ + 1 := Int.lt_floor_add_one x
  simp only [roundEven]
  split_ifs with hbelow habove heven
  · rw [abs_sub_comm, abs_of_nonneg (by linarith)]
    exact hbelow.le
  · push_cast
    rw [abs_of_nonneg (by linarith)]
    linarith
  -- a tie: both neighbours are half a unit away
  · rw [abs_sub_comm, abs_of_nonneg (by linarith)]
    exact not_lt.mp habove
  · push_cast
    rw [abs_of_nonneg (by linarith)]
    linarith

@[simp] theorem roundEven_intCast (n : ℤ) : roundEven n = n := by
  simp [roundEven]

theorem ulp_pos (x : ℚ) : 0 < ulp x := zpow_pos (by norm_num) _

theorem ulp_le {x : ℚ} (hx : x ≠ 0) : ulp x ≤ |x| / 2 ^ 52 := by
  have hlog : (2 : ℚ) ^ Int.log 2 |x| ≤ |x| :=
    Int.zpow_log_le_self (by norm_num) (abs_pos.mpr hx)
  have hsplit : ulp x = 2 ^ Int.log 2 |x| / 2 ^ 52 := by
    rw [ulp, zpow_sub₀ (by norm_num)]
    norm_num
  rw [hsplit]
  gcongr

/-- Rounding moves a number by at most one part in `2 ^ 53`. -/
theorem abs_ofRat_sub_le (x : ℚ) : |ofRat x - x| ≤ |x| / 2 ^ 53 := by
  by_cases hx : x = 0
  · subst hx
    simp [ofRat, roundEven]
  · have hulp := ulp_pos x
    have hfactor : ofRat x - x = ((roundEven (x / ulp x) : ℚ) - x / ulp x) * ulp x := by
      rw [ofRat, sub_mul, div_mul_cancel₀ _ hulp.ne']
    calc |ofRat x - x| = |(roundEven (x / ulp x) : ℚ) - x / ulp x| * ulp x := by
          rw [hfactor, abs_mul, abs_of_pos hulp]
      _ ≤ 1 / 2 * (|x| / 2 ^ 52) :=
          mul_le_mul (abs_roundEven_sub_le _) (ulp_le hx) hulp.le (by norm_num)
      _ = |x| / 2 ^ 53 := by ring

theorem roundEven_eq_of_abs_lt {x : ℚ} {n : ℤ} (h : |x - n| < 1 / 2) : roundEven x = n := by
  have hfar : |(roundEven x : ℚ) - n| < 1 := by
    calc |(roundEven x : ℚ) - n| ≤ |(roundEven x : ℚ) - x| + |x - n| := abs_sub_le _ _ _
      _ < 1 := by linarith [abs_roundEven_sub_le x]
  have hint : |roundEven x - n| < 1 := by exact_mod_cast hfar
  rwa [Int.abs_lt_one_iff, sub_eq_zero] at hint

theorem roundEven_eq_iff {x : ℚ} {n : ℤ} :
    roundEven x = n ↔ |x - n| < 1 / 2 ∨ |x - n| = 1 / 2 ∧ n % 2 = 0 := by
  constructor
  · rintro rfl
    have hround := abs_roundEven_sub_le x
    rw [abs_sub_comm] at hround
    rcases lt_or_eq_of_le hround with h | h
    · exact .inl h
    · refine .inr ⟨h, ?_⟩
      have hlow : (⌊x⌋ : ℚ) ≤ x := Int.floor_le x
      have hhigh : x < ⌊x⌋ + 1 := Int.lt_floor_add_one x
      simp only [roundEven] at h ⊢
      split_ifs at h ⊢ with hbelow habove heven
      · rw [abs_of_nonneg (by linarith)] at h
        linarith
      · push_cast at h
        rw [abs_of_nonpos (by linarith)] at h
        linarith
      · exact heven
      · omega
  · rintro (h | ⟨h, heven⟩)
    · exact roundEven_eq_of_abs_lt h
    · rcases abs_eq (by norm_num) |>.mp h with h | h
      · have hx : x = n + 1 / 2 := by linarith
        have hfloor : ⌊x⌋ = n := by
          rw [hx, Int.floor_intCast_add]
          norm_num
        simp only [roundEven, hfloor]
        rw [if_neg (by linarith), if_neg (by linarith), if_pos heven]
      · have hx : x = ((n - 1 : ℤ) : ℚ) + 1 / 2 := by
          push_cast
          linarith
        have hfloor : ⌊x⌋ = n - 1 := by
          rw [hx, Int.floor_intCast_add]
          norm_num
        simp only [roundEven, hfloor]
        push_cast
        rw [if_neg (by linarith), if_neg (by linarith), if_neg (by omega)]
        omega

theorem log_mul_zpow {x : ℚ} (hx : 0 < x) (z : ℤ) : Int.log 2 (x * 2 ^ z) = Int.log 2 x + z := by
  have htwo : (0 : ℚ) < 2 ^ z := zpow_pos (by norm_num) z
  have hle : ∀ e : ℤ, e ≤ Int.log 2 (x * 2 ^ z) ↔ e ≤ Int.log 2 x + z := by
    intro e
    rw [← Int.zpow_le_iff_le_log (by norm_num) (mul_pos hx htwo), ← sub_le_iff_le_add,
      ← Int.zpow_le_iff_le_log (by norm_num) hx, zpow_sub₀ (by norm_num), Nat.cast_ofNat,
      div_le_iff₀ htwo]
  exact le_antisymm ((hle _).mp le_rfl) ((hle _).mpr le_rfl)

theorem ulp_mul_zpow {x : ℚ} (hx : x ≠ 0) (z : ℤ) : ulp (x * 2 ^ z) = ulp x * 2 ^ z := by
  have htwo : (0 : ℚ) < 2 ^ z := zpow_pos (by norm_num) z
  rw [ulp, abs_mul, abs_of_pos htwo, log_mul_zpow (abs_pos.mpr hx), ulp, ← zpow_add₀ (by norm_num)]
  congr 1
  ring

/-- Scaling by a power of two does not change the rounding. -/
theorem ofRat_mul_zpow (x : ℚ) (z : ℤ) : ofRat (x * 2 ^ z) = ofRat x * 2 ^ z := by
  by_cases hx : x = 0
  · simp [hx, ofRat, roundEven]
  · have htwo : (2 : ℚ) ^ z ≠ 0 := zpow_ne_zero z (by norm_num)
    rw [ofRat, ulp_mul_zpow hx, mul_div_mul_right _ _ htwo, ← mul_assoc, ofRat]

/-- Integers of at most 53 bits are floats, and the next power of two is one. -/
theorem ofRat_intCast {n : ℤ} (hn : n.natAbs ≤ 2 ^ 53) : ofRat n = n := by
  have hsmall : ∀ m : ℤ, m.natAbs < 2 ^ 53 → ofRat m = m := by
    intro m hm
    have hlog : Int.log 2 |(m : ℚ)| ≤ 52 := by
      rw [← Int.cast_abs, Int.abs_eq_natAbs, Int.cast_natCast, Int.log_natCast]
      have hlt : Nat.log 2 m.natAbs < 53 := Nat.log_lt_of_lt_pow' (by norm_num) hm
      omega
    obtain ⟨k, hk⟩ := Int.eq_ofNat_of_zero_le (sub_nonneg.mpr hlog)
    have hulp : ulp (m : ℚ) = (2 ^ k)⁻¹ := by
      rw [ulp, ← neg_sub, hk, zpow_neg, zpow_natCast]
    have hcast : (m : ℚ) / ulp m = (m * 2 ^ k : ℤ) := by
      rw [hulp, div_inv_eq_mul]
      push_cast
      rfl
    rw [ofRat, hcast, roundEven_intCast, ← hcast, div_mul_cancel₀ _ (ulp_pos _).ne']
  rcases hn.lt_or_eq with hlt | heq
  · exact hsmall n hlt
  -- the two integers of 54 bits are powers of two
  · obtain ⟨m, rfl⟩ : ∃ m : ℤ, n = m * 2 ^ 53 := by
      rcases Int.natAbs_eq n with h | h
      · exact ⟨1, by rw [h, heq]; norm_num⟩
      · exact ⟨-1, by rw [h, heq]; norm_num⟩
    have hm : m.natAbs < 2 ^ 53 := by
      rw [Int.natAbs_mul] at heq
      omega
    have hscale := ofRat_mul_zpow m 53
    rw [hsmall m hm] at hscale
    rw [show (53 : ℤ) = ((53 : ℕ) : ℤ) by rfl, zpow_natCast] at hscale
    exact_mod_cast hscale

theorem ofRat_ofRat (x : ℚ) : ofRat (ofRat x) = ofRat x := by
  by_cases hx : x = 0
  · simp [hx, ofRat, roundEven]
  have hulp := ulp_pos x
  have hhigh : |x| < 2 ^ (Int.log 2 |x| + 1) := Int.lt_zpow_succ_log_self (by norm_num) |x|
  have hquot : |x / ulp x| < 2 ^ 53 := by
    rw [abs_div, abs_of_pos hulp, div_lt_iff₀ hulp, ulp]
    calc |x| < 2 ^ (Int.log 2 |x| + 1) := hhigh
      _ = 2 ^ 53 * 2 ^ (Int.log 2 |x| - 52) := by
        rw [← zpow_natCast, ← zpow_add₀ (by norm_num)]
        congr 1
        push_cast
        ring
  have hround : (roundEven (x / ulp x)).natAbs ≤ 2 ^ 53 := by
    have hle : |(roundEven (x / ulp x) : ℚ)| < 2 ^ 53 + 1 := by
      have hnear := abs_roundEven_sub_le (x / ulp x)
      have htri := abs_sub_abs_le_abs_sub (roundEven (x / ulp x) : ℚ) (x / ulp x)
      linarith
    have hint : |roundEven (x / ulp x)| < 2 ^ 53 + 1 := by exact_mod_cast hle
    rw [Int.abs_eq_natAbs] at hint
    omega
  have hscale := ofRat_mul_zpow (roundEven (x / ulp x)) (Int.log 2 |x| - 52)
  rw [ofRat_intCast hround] at hscale
  exact hscale

theorem ofRat_natCast {n : ℕ} (hn : n < 2 ^ 53) : ofRat n = n := by
  have hint := @ofRat_intCast n (by simpa using hn.le)
  exact_mod_cast hint

theorem floor_le_roundEven (x : ℚ) : ⌊x⌋ ≤ roundEven x ∧ roundEven x ≤ ⌊x⌋ + 1 := by
  simp only [roundEven]
  split_ifs <;> constructor <;> omega

theorem roundEven_mono {x y : ℚ} (h : x ≤ y) : roundEven x ≤ roundEven y := by
  rcases (Int.floor_le_floor h).lt_or_eq with hlt | heq
  · calc roundEven x ≤ ⌊x⌋ + 1 := (floor_le_roundEven x).2
      _ ≤ ⌊y⌋ := hlt
      _ ≤ roundEven y := (floor_le_roundEven y).1
  -- with the same integer part the fractions decide
  · simp only [roundEven, heq]
    split_ifs <;> first | omega | linarith

theorem roundEven_neg (x : ℚ) : roundEven (-x) = -roundEven x := by
  by_cases hint : x = ⌊x⌋
  · have hneg : -x = ((-⌊x⌋ : ℤ) : ℚ) := by
      push_cast
      rw [← hint]
    rw [hneg, roundEven_intCast, hint, roundEven_intCast, Int.floor_intCast]
  · have hlow : (⌊x⌋ : ℚ) < x := lt_of_le_of_ne (Int.floor_le x) (Ne.symm hint)
    have hhigh : x < ⌊x⌋ + 1 := Int.lt_floor_add_one x
    have hfloor : ⌊-x⌋ = -⌊x⌋ - 1 := by
      rw [Int.floor_eq_iff]
      push_cast
      constructor <;> linarith
    simp only [roundEven, hfloor]
    push_cast
    split_ifs <;> first | omega | linarith

theorem ofRat_neg (x : ℚ) : ofRat (-x) = -ofRat x := by
  have hulp : ulp (-x) = ulp x := by rw [ulp, abs_neg, ulp]
  rw [ofRat, hulp, neg_div, roundEven_neg, ofRat]
  push_cast
  ring

theorem ofRat_nonneg {x : ℚ} (h : 0 ≤ x) : 0 ≤ ofRat x := by
  have hquot : 0 ≤ x / ulp x := div_nonneg h (ulp_pos x).le
  have hround : roundEven 0 ≤ roundEven (x / ulp x) := roundEven_mono hquot
  have hzero : roundEven 0 = 0 := roundEven_intCast 0
  rw [hzero] at hround
  exact mul_nonneg (by exact_mod_cast hround) (ulp_pos x).le

/-- A float lies between the powers of two around its number. -/
theorem ofRat_mem_binade {x : ℚ} (h : 0 < x) :
    2 ^ Int.log 2 x ≤ ofRat x ∧ ofRat x ≤ 2 ^ (Int.log 2 x + 1) := by
  have hulp := ulp_pos x
  have hunit : ulp x = 2 ^ (Int.log 2 x - 52) := by rw [ulp, abs_of_pos h]
  have hpow : ∀ k : ℕ, ((2 ^ k : ℤ) : ℚ) * ulp x = 2 ^ (Int.log 2 x + (k - 52)) := by
    intro k
    rw [hunit]
    push_cast
    rw [← zpow_natCast, ← zpow_add₀ (by norm_num)]
    congr 1
    ring
  have hlow : (2 : ℚ) ^ Int.log 2 x ≤ x := Int.zpow_log_le_self (by norm_num) h
  have hhigh : x < (2 : ℚ) ^ (Int.log 2 x + 1) := Int.lt_zpow_succ_log_self (by norm_num) x
  have h52 := hpow 52
  have h53 := hpow 53
  norm_num at h52 h53
  constructor
  · have hquot : ((2 ^ 52 : ℤ) : ℚ) ≤ x / ulp x := by
      rw [le_div_iff₀ hulp]
      norm_num
      linarith
    have hround := roundEven_mono hquot
    rw [roundEven_intCast] at hround
    have hcast : ((2 ^ 52 : ℤ) : ℚ) ≤ roundEven (x / ulp x) := by exact_mod_cast hround
    rw [← h52, ofRat]
    norm_num at hcast
    gcongr
  · have hquot : x / ulp x ≤ ((2 ^ 53 : ℤ) : ℚ) := by
      rw [div_le_iff₀ hulp]
      norm_num
      linarith
    have hround := roundEven_mono hquot
    rw [roundEven_intCast] at hround
    have hcast : (roundEven (x / ulp x) : ℚ) ≤ ((2 ^ 53 : ℤ) : ℚ) := by exact_mod_cast hround
    rw [← h53, ofRat]
    norm_num at hcast
    gcongr

theorem ofRat_mono {x y : ℚ} (h : x ≤ y) : ofRat x ≤ ofRat y := by
  have hpos : ∀ a b : ℚ, 0 < a → a ≤ b → ofRat a ≤ ofRat b := by
    intro a b ha hab
    have hb : 0 < b := ha.trans_le hab
    rcases (Int.log_mono_right (b := 2) ha hab).lt_or_eq with hlt | heq
    · calc ofRat a ≤ 2 ^ (Int.log 2 a + 1) := (ofRat_mem_binade ha).2
        _ ≤ 2 ^ Int.log 2 b := zpow_le_zpow_right₀ (by norm_num) hlt
        _ ≤ ofRat b := (ofRat_mem_binade hb).1
    · have hulp : ulp a = ulp b := by rw [ulp, ulp, abs_of_pos ha, abs_of_pos hb, heq]
      have hquot : a / ulp b ≤ b / ulp b := by gcongr; exact (ulp_pos b).le
      have hround : (roundEven (a / ulp b) : ℚ) ≤ roundEven (b / ulp b) := by
        exact_mod_cast roundEven_mono hquot
      rw [ofRat, hulp, ofRat]
      exact mul_le_mul_of_nonneg_right hround (ulp_pos b).le
  rcases lt_or_ge 0 x with hx | hx
  · exact hpos x y hx h
  rcases lt_or_ge y 0 with hy | hy
  -- two negative numbers are compared by their opposites
  · have hneg := hpos (-y) (-x) (by linarith) (by linarith)
    rw [ofRat_neg, ofRat_neg] at hneg
    linarith
  · have hminus := ofRat_nonneg (neg_nonneg.mpr hx)
    rw [ofRat_neg] at hminus
    linarith [ofRat_nonneg hy]

theorem roundTo_mono (n : ℕ) {x y : ℚ} (h : x ≤ y) : roundTo n x ≤ roundTo n y := by
  have hround : (roundEven (x * 10 ^ n) : ℚ) ≤ roundEven (y * 10 ^ n) := by
    exact_mod_cast roundEven_mono (by gcongr)
  exact ofRat_mono (by gcongr)

theorem abs_roundTo_sub_le (n : ℕ) (x : ℚ) :
    |roundTo n x - x| ≤ 1 / (2 * 10 ^ n) + (|x| + 1 / (2 * 10 ^ n)) / 2 ^ 53 := by
  have hten : (0 : ℚ) < 10 ^ n := by positivity
  have hnear : |roundEven (x * 10 ^ n) / 10 ^ n - x| ≤ 1 / (2 * 10 ^ n) := by
    have hfactor : roundEven (x * 10 ^ n) / 10 ^ n - x = (roundEven (x * 10 ^ n) - x * 10 ^ n) / 10 ^ n := by
      field_simp
    rw [hfactor, abs_div, abs_of_pos hten, div_le_div_iff₀ hten (by positivity)]
    have hhalf := abs_roundEven_sub_le (x * 10 ^ n)
    nlinarith
  have hfloat := abs_ofRat_sub_le (roundEven (x * 10 ^ n) / 10 ^ n)
  have hsize : |(roundEven (x * 10 ^ n) : ℚ) / 10 ^ n| ≤ |x| + 1 / (2 * 10 ^ n) := by
    have htri := abs_sub_abs_le_abs_sub (roundEven (x * 10 ^ n) / 10 ^ n : ℚ) x
    linarith
  have htri := abs_sub_le (roundTo n x) (roundEven (x * 10 ^ n) / 10 ^ n) x
  rw [roundTo] at htri ⊢
  have hdiv : |(roundEven (x * 10 ^ n) : ℚ) / 10 ^ n| / 2 ^ 53 ≤ (|x| + 1 / (2 * 10 ^ n)) / 2 ^ 53 := by
    gcongr
  linarith

end OpsMonitor.Library.Double
