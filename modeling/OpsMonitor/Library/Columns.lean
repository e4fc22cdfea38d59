import OpsMonitor.Library.Decimal

/-! The aggregates of a column over the rows of a group. They skip the nulls. -/

namespace OpsMonitor.Library

/-- `MAX(column)`. -/
def sqlMax (column : List (Option ℚ)) : Option ℚ := column.reduceOption.max?

/-- `MIN(column)`. -/
def sqlMin (column : List (Option ℚ)) : Option ℚ := column.reduceOption.min?

/-- `AVG(column)` with `scale` digits after the point. -/
def sqlAvg (scale : ℕ) (column : List (Option ℚ)) : Option ℚ :=
  match column.reduceOption with
  | [] => none
  | values => some (roundHalfUp (values.sum / values.length * 10 ^ scale) / 10 ^ scale)

variable {column column' : List (Option ℚ)} {x : ℚ}

theorem sqlMax_eq_some :
    sqlMax column = some x ↔ some x ∈ column ∧ ∀ y, some y ∈ column → y ≤ x := by
  rw [sqlMax, List.max?_eq_some_iff]
  simp only [List.reduceOption_mem_iff]

theorem sqlMax_eq_none : sqlMax column = none ↔ ∀ y, some y ∉ column := by
  rw [sqlMax, List.max?_eq_none_iff, List.eq_nil_iff_forall_not_mem]
  simp only [List.reduceOption_mem_iff]

theorem sqlMin_eq_some :
    sqlMin column = some x ↔ some x ∈ column ∧ ∀ y, some y ∈ column → x ≤ y := by
  rw [sqlMin, List.min?_eq_some_iff]
  simp only [List.reduceOption_mem_iff]

theorem sqlMin_eq_none : sqlMin column = none ↔ ∀ y, some y ∉ column := by
  rw [sqlMin, List.min?_eq_none_iff, List.eq_nil_iff_forall_not_mem]
  simp only [List.reduceOption_mem_iff]

theorem sqlAvg_eq_none {scale : ℕ} : sqlAvg scale column = none ↔ ∀ y, some y ∉ column := by
  rw [← sqlMin_eq_none, sqlMin, sqlAvg, List.min?_eq_none_iff]
  split <;> simp_all

theorem sqlAvg_of_ne_nil (scale : ℕ) (h : column.reduceOption ≠ []) : sqlAvg scale column =
    some ((roundHalfUp (column.reduceOption.sum / column.reduceOption.length * 10 ^ scale) : ℚ) /
      10 ^ scale) := by
  unfold sqlAvg
  cases hvalues : column.reduceOption with
  | nil => exact absurd hvalues h
  | cons x xs => rfl

/-- The order of the rows does not matter. -/
theorem sqlAvg_perm (scale : ℕ) {column column' : List (Option ℚ)} (h : column.Perm column') :
    sqlAvg scale column = sqlAvg scale column' := by
  have hvalues : column.reduceOption.Perm column'.reduceOption := h.filterMap _
  have hnil : column.reduceOption = [] ↔ column'.reduceOption = [] := by
    rw [← List.length_eq_zero_iff, ← List.length_eq_zero_iff, hvalues.length_eq]
  have hsum := hvalues.sum_eq
  have hlength := hvalues.length_eq
  unfold sqlAvg
  cases hleft : column.reduceOption with
  | nil => rw [hnil.mp hleft]
  | cons x xs =>
    cases hright : column'.reduceOption with
    | nil => rw [hnil.mpr hright] at hleft; cases hleft
    | cons y ys =>
      rw [hleft, hright] at hsum hlength
      dsimp only
      rw [hsum, hlength]
/-- An average of values that its scale can hold is one of them or lies between them. -/
theorem sqlAvg_mem {scale : ℕ} {low high avg : ℚ} (hlow : sqlMin column = some low)
    (hhigh : sqlMax column = some high) (havg : sqlAvg scale column = some avg)
    (hexact : ∀ y, some y ∈ column → ∃ n : ℤ, y * 10 ^ scale = n) : low ≤ avg ∧ avg ≤ high := by
  obtain ⟨hlowMem, hlowLe⟩ := sqlMin_eq_some.mp hlow
  obtain ⟨hhighMem, hhighGe⟩ := sqlMax_eq_some.mp hhigh
  obtain ⟨n, hn⟩ := hexact low hlowMem
  obtain ⟨m, hm⟩ := hexact high hhighMem
  have hten : (0 : ℚ) < 10 ^ scale := by positivity
  obtain ⟨values, hvalues⟩ : ∃ values, values = column.reduceOption := ⟨_, rfl⟩
  have hmem : ∀ y, y ∈ values ↔ some y ∈ column := fun y => by
    rw [hvalues, List.reduceOption_mem_iff]
  have hpos : (0 : ℚ) < values.length := by
    exact_mod_cast List.length_pos_of_mem ((hmem low).mpr hlowMem)
  have hmean : low ≤ values.sum / values.length ∧ values.sum / values.length ≤ high := by
    rw [le_div_iff₀ hpos, div_le_iff₀ hpos, mul_comm, mul_comm high, ← nsmul_eq_mul, ← nsmul_eq_mul]
    exact ⟨List.card_nsmul_le_sum values low fun y hy => hlowLe y ((hmem y).mp hy),
      List.sum_le_card_nsmul values high fun y hy => hhighGe y ((hmem y).mp hy)⟩
  have hround : avg = roundHalfUp (values.sum / values.length * 10 ^ scale) / 10 ^ scale := by
    rw [sqlAvg, ← hvalues] at havg
    cases hlist : values with
    | nil =>
      rw [hlist] at hpos
      simp at hpos
    | cons y rest =>
      rw [hlist] at havg
      exact (Option.some.inj havg).symm
  rw [hround, le_div_iff₀ hten, div_le_iff₀ hten, hn, hm]
  constructor
  · have hle := roundHalfUp_mono (mul_le_mul_of_nonneg_right hmean.1 hten.le)
    rw [hn, roundHalfUp_intCast] at hle
    exact_mod_cast hle
  · have hle := roundHalfUp_mono (mul_le_mul_of_nonneg_right hmean.2 hten.le)
    rw [hm, roundHalfUp_intCast] at hle
    exact_mod_cast hle

/-- The maximum depends on the values of the column only. -/
theorem sqlMax_congr (h : ∀ y, some y ∈ column ↔ some y ∈ column') :
    sqlMax column = sqlMax column' := by
  cases hmax : sqlMax column' with
  | none =>
    refine sqlMax_eq_none.mpr fun y hy => ?_
    exact sqlMax_eq_none.mp hmax y ((h y).mp hy)
  | some x =>
    obtain ⟨hx, hle⟩ := sqlMax_eq_some.mp hmax
    exact sqlMax_eq_some.mpr ⟨(h x).mpr hx, fun y hy => hle y ((h y).mp hy)⟩

end OpsMonitor.Library
