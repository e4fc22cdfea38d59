import Mathlib

/-! Fixed-point numbers, as the `DECIMAL` columns of the database hold them. -/

namespace OpsMonitor.Library

/-- The nearest integer, away from zero in a tie. -/
def roundHalfUp (x : ℚ) : ℤ := if 0 ≤ x then ⌊x + 1 / 2⌋ else -⌊1 / 2 - x⌋

@[simp] theorem roundHalfUp_intCast (n : ℤ) : roundHalfUp n = n := by
  have hhalf : ∀ m : ℤ, ⌊(m : ℚ) + 1 / 2⌋ = m := by
    intro m
    rw [Int.floor_intCast_add]
    norm_num
  unfold roundHalfUp
  split_ifs
  · exact hhalf n
  · have hneg : (1 : ℚ) / 2 - n = ((-n : ℤ) : ℚ) + 1 / 2 := by
      push_cast
      ring
    rw [hneg, hhalf, neg_neg]

theorem roundHalfUp_mono {x y : ℚ} (h : x ≤ y) : roundHalfUp x ≤ roundHalfUp y := by
  unfold roundHalfUp
  split_ifs with hx hy hy
  · exact Int.floor_le_floor (by linarith)
  · exact absurd (hx.trans h) hy
  · have hlow : 0 ≤ ⌊1 / 2 - x⌋ := Int.floor_nonneg.mpr (by linarith)
    have hhigh : 0 ≤ ⌊y + 1 / 2⌋ := Int.floor_nonneg.mpr (by linarith)
    linarith
  · exact neg_le_neg (Int.floor_le_floor (by linarith))

theorem le_roundHalfUp {x : ℚ} {a : ℤ} :
    a ≤ roundHalfUp x ↔ if 0 < a then (a : ℚ) - 1 / 2 ≤ x else (a : ℚ) - 1 / 2 < x := by
  unfold roundHalfUp
  split_ifs with hx ha ha
  · rw [Int.le_floor]
    constructor <;> intro h <;> linarith
  · have hcast : (a : ℚ) ≤ 0 := by exact_mod_cast not_lt.mp ha
    have hfloor : 0 ≤ ⌊x + 1 / 2⌋ := Int.floor_nonneg.mpr (by linarith)
    exact iff_of_true (by omega) (by linarith)
  · have hcast : (1 : ℚ) ≤ a := by exact_mod_cast ha
    have hfloor : 0 ≤ ⌊1 / 2 - x⌋ := Int.floor_nonneg.mpr (by linarith)
    exact iff_of_false (by omega) (by linarith)
  · rw [le_neg, ← Int.lt_add_one_iff, Int.floor_lt]
    push_cast
    constructor <;> intro h <;> linarith

theorem roundHalfUp_le {x : ℚ} {b : ℤ} :
    roundHalfUp x ≤ b ↔ if 0 ≤ b then x < (b : ℚ) + 1 / 2 else x ≤ (b : ℚ) + 1 / 2 := by
  rw [← Int.lt_add_one_iff, ← not_le, le_roundHalfUp]
  by_cases hb : 0 ≤ b
  · rw [if_pos hb, if_pos (by omega)]
    push_cast
    rw [not_le]
    constructor <;> intro h <;> linarith
  · rw [if_neg hb, if_neg (by omega)]
    push_cast
    rw [not_lt]
    constructor <;> intro h <;> linarith

/-- `DECIMAL(p, s)`: at most `p` digits, `s` of them after the point. -/
structure Decimal (p s : ℕ) where
  units : ℤ
  digits : units.natAbs < 10 ^ p
  deriving DecidableEq

namespace Decimal
variable {p s : ℕ}

def value (d : Decimal p s) : ℚ := d.units / 10 ^ s

/-- What the column holds of a number: it is rounded to the scale, and refused when it has too
many digits. -/
def ofRat? (p s : ℕ) (x : ℚ) : Option (Decimal p s) :=
  if h : (roundHalfUp (x * 10 ^ s)).natAbs < 10 ^ p then some ⟨roundHalfUp (x * 10 ^ s), h⟩ else none

/-- A number with no more digits after the point than the column is held exactly. -/
theorem value_of_ofRat? {x : ℚ} {d : Decimal p s} (h : ofRat? p s x = some d) {n : ℤ}
    (hn : x * 10 ^ s = n) : d.value = x := by
  unfold ofRat? at h
  split_ifs at h with hdigits
  obtain rfl := Option.some.inj h
  change ((roundHalfUp (x * 10 ^ s) : ℤ) : ℚ) / 10 ^ s = x
  rw [hn, roundHalfUp_intCast, ← hn, mul_div_cancel_right₀ _ (by positivity)]

/-- The value of a column with a smaller scale. -/
theorem value_mul_pow (d : Decimal p s) {t : ℕ} (h : s ≤ t) :
    d.value * 10 ^ t = ((d.units * 10 ^ (t - s) : ℤ) : ℚ) := by
  obtain ⟨k, rfl⟩ := Nat.exists_eq_add_of_le h
  have hpos : (10 : ℚ) ^ s ≠ 0 := by positivity
  rw [value, Nat.add_sub_cancel_left, pow_add]
  push_cast
  field_simp

end Decimal
end OpsMonitor.Library
