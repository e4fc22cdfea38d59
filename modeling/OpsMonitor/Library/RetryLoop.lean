import Mathlib

/-! A loop that tries again after a failure, a bounded number of times and with a delay that
doubles up to a cap. The loop gives up as well once the delay has reached the cap. -/

namespace OpsMonitor.Library

variable {α β δ : Type*}

structure RetryPolicy (α β δ : Type*) where
  /-- The result that an outcome settles, or nothing when it is worth another try. -/
  judge : α → Option β
  retries : ℕ
  start : ℚ
  cap : ℚ
  jitter : ℚ → δ → ℚ

/-- What a loop did: how often it tried, how long it slept in between, and its result. -/
structure Tries (β : Type*) where
  number : ℕ
  sleeps : List ℚ
  result : Option β

namespace RetryPolicy
variable (p : RetryPolicy α β δ) (outcome : ℕ → α) (draw : ℕ → δ)

/-- The loop from try `n` on, with the delay that it reached. -/
def tries (n : ℕ) (delay : ℚ) : Tries β :=
  match p.judge (outcome n) with
  | some b => ⟨1, [], some b⟩
  | none =>
    if p.retries < n + 1 then ⟨1, [], none⟩
    else if p.cap ≤ delay then ⟨1, [], none⟩
    else
      let sleep := min (p.jitter delay (draw n)) p.cap
      let rest := tries (n + 1) (min (delay * 2) p.cap)
      ⟨rest.number + 1, sleep :: rest.sleeps, rest.result⟩
termination_by p.retries - n

def run : Tries β := p.tries outcome draw 0 p.start

/-- After try `n` another one is left. -/
def Allowed (n : ℕ) : Prop := n < p.retries ∧ p.start * 2 ^ n < p.cap

instance (n : ℕ) : Decidable (p.Allowed n) :=
  inferInstanceAs (Decidable (n < p.retries ∧ p.start * 2 ^ n < p.cap))

/-- The loop ends with try `n`, should it come that far. -/
def Stops (n : ℕ) : Prop := (p.judge (outcome n)).isSome = true ∨ ¬ p.Allowed n

variable {p outcome}

theorem Stops.of_retries : p.Stops outcome p.retries := .inr fun h => lt_irrefl _ h.1

theorem min_start_mul_two (n : ℕ) :
    min (min (p.start * 2 ^ n) p.cap * 2) p.cap = min (p.start * 2 ^ (n + 1)) p.cap ∨
      p.cap < 0 := by
  by_cases hcap : p.cap < 0
  · exact .inr hcap
  left
  rw [min_mul_of_nonneg _ _ (by norm_num : (0 : ℚ) ≤ 2), min_assoc,
    min_eq_right (by linarith : p.cap ≤ p.cap * 2), pow_succ, mul_assoc]

/-- From try `n` on the loop ends with the first try that stops it, and has its result. -/
theorem tries_spec (hcap : 0 ≤ p.cap) {n m : ℕ} (hle : n ≤ m)
    (hgo : ∀ i, n ≤ i → i < m → ¬ p.Stops outcome i) (hstop : p.Stops outcome m) :
    (p.tries outcome draw n (min (p.start * 2 ^ n) p.cap)).number = m - n + 1 ∧
      (p.tries outcome draw n (min (p.start * 2 ^ n) p.cap)).result = p.judge (outcome m) ∧
      ∀ x ∈ (p.tries outcome draw n (min (p.start * 2 ^ n) p.cap)).sleeps, x ≤ p.cap := by
  induction hk : m - n generalizing n with
  | zero =>
    obtain rfl : n = m := by omega
    rw [tries]
    cases hjudge : p.judge (outcome n) with
    | some b => simp
    | none =>
      have hlast : p.retries < n + 1 ∨ p.cap ≤ p.start * 2 ^ n := by
        rcases hstop with hsome | hno
        · simp [hjudge] at hsome
        · by_contra hboth
          obtain ⟨hretries, hdelay⟩ := not_or.mp hboth
          exact hno ⟨by omega, not_le.mp hdelay⟩
      dsimp only
      split_ifs with hretries hdelay
      · simp
      · simp
      · rcases hlast with h | h
        · exact absurd h hretries
        · exact absurd (le_min h le_rfl) hdelay
  | succ k ih =>
    have hn : ¬ p.Stops outcome n := hgo n le_rfl (by omega)
    obtain ⟨hjudge, hallowed⟩ := not_or.mp hn
    obtain ⟨hretries, hdelay⟩ := not_not.mp hallowed
    have hnone : p.judge (outcome n) = none := by simpa using hjudge
    obtain ⟨hnumber, hresult, hsleeps⟩ :=
      ih (by omega) (fun i hi => hgo i (by omega)) (by omega : m - (n + 1) = k)
    have hnext := (@min_start_mul_two _ _ _ p n).resolve_right (not_lt.mpr hcap)
    have hshort : ¬ p.cap ≤ min (p.start * 2 ^ n) p.cap := by
      rw [le_min_iff, not_and_or]
      exact .inl (not_le.mpr hdelay)
    rw [tries, hnone]
    dsimp only
    rw [if_neg (by omega : ¬ p.retries < n + 1), if_neg hshort, hnext, hnumber, hresult]
    refine ⟨rfl, rfl, ?_⟩
    intro x hx
    rcases List.mem_cons.mp hx with rfl | hx
    · exact min_le_right _ _
    · exact hsleeps x hx

/-- The loop ends, with the first try that stops it. -/
theorem run_spec (hpos : 0 ≤ p.start) : ∃ m, (∀ i < m, ¬ p.Stops outcome i) ∧ p.Stops outcome m ∧
    (p.run outcome draw).number = m + 1 ∧ (p.run outcome draw).result = p.judge (outcome m) ∧
      ∀ x ∈ (p.run outcome draw).sleeps, x ≤ p.cap := by
  classical
  have hex : ∃ m, p.Stops outcome m := ⟨_, .of_retries⟩
  refine ⟨Nat.find hex, fun i hi => Nat.find_min hex hi, Nat.find_spec hex, ?_⟩
  by_cases hstart : p.start ≤ p.cap
  · have hspec := @tries_spec _ _ _ p outcome draw (hpos.trans hstart) _ _ (Nat.zero_le _)
      (fun i _ hi => Nat.find_min hex hi) (Nat.find_spec hex)
    simpa [run, hstart] using hspec
  · have hzero : Nat.find hex = 0 := by
      rw [Nat.find_eq_zero]
      exact .inr fun h => hstart (by simpa using h.2.le)
    rw [hzero, run, tries]
    cases p.judge (outcome 0) <;> simp [(not_le.mp hstart).le]

end RetryPolicy

end OpsMonitor.Library
