import Mathlib

/-! An interval scheduler in discrete time. A job fires one interval after it was added and one
interval after each time it fired; a job without a next run time is paused and never fires. At
each tick the surroundings act first, then the due jobs fire in the order of their addition. -/

namespace OpsMonitor.Library.Intervals

structure Job (κ : Type*) where
  name : κ
  interval : ℕ
  nextRunTime : Option ℕ

variable {κ σ : Type*}

/-- A job added at `now`. The next run time may be given, also explicitly as none. -/
def addJob (now : ℕ) (name : κ) (interval : ℕ) (nextRunTime : Option (Option ℕ)) : Job κ :=
  ⟨name, interval, nextRunTime.getD (some (now + interval))⟩

def Job.fired (now : ℕ) (j : Job κ) : Job κ := { j with nextRunTime := some (now + j.interval) }

def fire (perform : κ → ℕ → σ → σ) (now : ℕ) : List (Job κ) → σ → List (Job κ) × σ
  | [], s => ([], s)
  | j :: jobs, s =>
    if j.nextRunTime = some now then
      let (jobs, s) := fire perform now jobs (perform j.name now s)
      (j.fired now :: jobs, s)
    else
      let (jobs, s) := fire perform now jobs s
      (j :: jobs, s)

/-- The jobs and the state after the tick `n`. -/
def elapse (perform : κ → ℕ → σ → σ) (input : ℕ → σ → σ) (jobs : List (Job κ)) (s : σ) :
    ℕ → List (Job κ) × σ
  | 0 => (jobs, s)
  | n + 1 =>
    let (jobs, s) := elapse perform input jobs s n
    fire perform (n + 1) jobs (input (n + 1) s)

/-- Some job of that name is not paused. -/
def Active (jobs : List (Job κ)) (k : κ) : Prop := ∃ j ∈ jobs, j.name = k ∧ j.nextRunTime ≠ none

variable {perform : κ → ℕ → σ → σ} {input : ℕ → σ → σ} {jobs : List (Job κ)} {s : σ} {now : ℕ}

theorem active_cons {j : Job κ} {k : κ} :
    Active (j :: jobs) k ↔ j.name = k ∧ j.nextRunTime ≠ none ∨ Active jobs k := by
  simp [Active]

/-- Firing neither pauses nor resumes a job. -/
theorem active_fire {k : κ} : Active (fire perform now jobs s).1 k ↔ Active jobs k := by
  induction jobs generalizing s with
  | nil => rfl
  | cons j jobs ih =>
    rw [fire]
    split_ifs with hdue
    · rw [active_cons, active_cons, ih, hdue]
      simp [Job.fired]
    · rw [active_cons, active_cons, ih]

theorem active_elapse {k : κ} (n : ℕ) : Active (elapse perform input jobs s n).1 k ↔ Active jobs k := by
  induction n with
  | zero => rfl
  | succ n ih => rw [elapse, active_fire, ih]

/-- What every job that is not paused preserves holds after a tick. -/
theorem fire_preserves {P : σ → Prop} (hjob : ∀ k, Active jobs k → ∀ s, P s → P (perform k now s))
    (hs : P s) : P (fire perform now jobs s).2 := by
  induction jobs generalizing s with
  | nil => exact hs
  | cons j jobs ih =>
    have hrest := fun k hk => hjob k (active_cons.mpr (.inr hk))
    rw [fire]
    split_ifs with hdue
    · refine ih hrest (hjob j.name (active_cons.mpr (.inl ⟨rfl, ?_⟩)) s hs)
      rw [hdue]
      exact nofun
    · exact ih hrest hs

/-- One tick: the surroundings act, and then what every job that is not paused preserves is
preserved. -/
theorem elapse_succ {P : σ → Prop} (n : ℕ)
    (hjob : ∀ k, Active jobs k → ∀ s, P s → P (perform k (n + 1) s))
    (hs : P (input (n + 1) (elapse perform input jobs s n).2)) :
    P (elapse perform input jobs s (n + 1)).2 := by
  rw [elapse]
  exact fire_preserves (fun k hk => hjob k ((active_elapse n).mp hk)) hs

/-! ## The instants of a job -/

/-- The job fires at `n`: one of its intervals after its next run time ends there. -/
def Job.ticks (j : Job κ) (n : ℕ) : Bool :=
  match j.nextRunTime with
  | none => false
  | some t => t ≤ n ∧ (n - t) % j.interval = 0

/-- The job after the tick `n`. -/
def Job.advanced (n : ℕ) (j : Job κ) : Job κ :=
  { j with nextRunTime := j.nextRunTime.map fun t =>
      if n < t then t else t + ((n - t) / j.interval + 1) * j.interval }

theorem fire_fst : (fire perform now jobs s).1 =
    jobs.map fun j => if j.nextRunTime = some now then j.fired now else j := by
  induction jobs generalizing s with
  | nil => rfl
  | cons j jobs ih =>
    rw [fire, List.map_cons]
    split_ifs
    · exact congrArg _ ih
    · exact congrArg _ ih

theorem fire_snd : (fire perform now jobs s).2 =
    (jobs.filter fun j => j.nextRunTime = some now).foldl (fun s j => perform j.name now s) s := by
  induction jobs generalizing s with
  | nil => rfl
  | cons j jobs ih =>
    rw [fire]
    split_ifs with hdue
    · rw [List.filter_cons_of_pos (by simpa using hdue), List.foldl_cons, ← ih]
    · rw [List.filter_cons_of_neg (by simpa using hdue), ← ih]

theorem due_advanced_iff (j : Job κ) (n : ℕ) :
    (j.advanced n).nextRunTime = some (n + 1) ↔ j.ticks (n + 1) = true := by
  unfold Job.advanced Job.ticks
  cases j.nextRunTime with
  | none => simp
  | some t =>
    simp only [Option.map_some, Option.some.injEq, decide_eq_true_eq]
    split_ifs with hlt
    · constructor
      · rintro rfl
        simp
      · exact fun h => by omega
    · have hsub : n + 1 - t = (n - t) + 1 := by omega
      rw [hsub, ← Nat.dvd_iff_mod_eq_zero]
      constructor
      · intro heq
        refine ⟨by omega, (n - t) / j.interval + 1, ?_⟩
        rw [mul_comm]
        omega
      · rintro ⟨-, hdvd⟩
        have hdiv := Nat.succ_div_of_dvd hdvd
        have hmul := Nat.div_mul_cancel hdvd
        rw [hdiv] at hmul
        omega

theorem advanced_succ (j : Job κ) (n : ℕ) : j.advanced (n + 1) =
    if (j.advanced n).nextRunTime = some (n + 1) then (j.advanced n).fired (n + 1)
    else j.advanced n := by
  have hdue := due_advanced_iff j n
  unfold Job.advanced Job.ticks at *
  cases hnext : j.nextRunTime with
  | none => simp
  | some t =>
    simp only [hnext, Option.map_some, decide_eq_true_eq] at hdue ⊢
    by_cases hticks : t ≤ n + 1 ∧ (n + 1 - t) % j.interval = 0
    · rw [if_pos (hdue.mpr hticks), if_neg (not_lt.mpr hticks.1), Job.fired]
      have hmul := Nat.div_mul_cancel (Nat.dvd_of_mod_eq_zero hticks.2)
      have hnow : t + ((n + 1 - t) / j.interval + 1) * j.interval = n + 1 + j.interval := by
        rw [add_mul, one_mul, hmul]
        omega
      rw [hnow]
    · rw [if_neg (mt hdue.mp hticks)]
      by_cases hlt : n + 1 < t
      · rw [if_pos hlt, if_pos (by omega)]
      · have hle : t ≤ n := by
          by_contra hgt
          have heq : n + 1 - t = 0 := by omega
          exact hticks ⟨not_lt.mp hlt, by rw [heq, Nat.zero_mod]⟩
        have hsub : n + 1 - t = (n - t) + 1 := by omega
        have hnot : ¬ j.interval ∣ (n - t) + 1 := by
          intro hdvd
          rw [← hsub] at hdvd
          exact hticks ⟨not_lt.mp hlt, Nat.mod_eq_zero_of_dvd hdvd⟩
        rw [if_neg hlt, if_neg (not_lt.mpr hle), hsub, Nat.succ_div_of_not_dvd hnot]

/-- Jobs whose first run comes after the start fire at their instants. -/
theorem elapse_fst (hjobs : ∀ j ∈ jobs, j.nextRunTime ≠ some 0) (n : ℕ) :
    (elapse perform input jobs s n).1 = jobs.map (Job.advanced n) := by
  induction n with
  | zero =>
    have hstart : ∀ j ∈ jobs, j.advanced 0 = j := by
      intro j hj
      have hne := hjobs j hj
      unfold Job.advanced
      cases hnext : j.nextRunTime with
      | none => rw [Option.map_none, ← hnext]
      | some t =>
        have hpos : 0 < t := by
          rw [hnext] at hne
          exact Nat.pos_of_ne_zero fun h => hne (congrArg some h)
        rw [Option.map_some, if_pos hpos, ← hnext]
    exact ((List.map_congr_left hstart).trans (List.map_id' jobs)).symm
  | succ n ih =>
    rw [elapse]
    dsimp only
    rw [fire_fst, ih, List.map_map]
    exact List.map_congr_left fun j _ => (advanced_succ j n).symm

theorem elapse_snd_succ (hjobs : ∀ j ∈ jobs, j.nextRunTime ≠ some 0) (n : ℕ) :
    (elapse perform input jobs s (n + 1)).2 =
      (jobs.filter (·.ticks (n + 1))).foldl (fun s j => perform j.name (n + 1) s)
        (input (n + 1) (elapse perform input jobs s n).2) := by
  rw [elapse]
  dsimp only
  rw [fire_snd, elapse_fst hjobs, List.filter_map, List.foldl_map]
  have hdue : jobs.filter ((fun j => decide (j.nextRunTime = some (n + 1))) ∘ Job.advanced n) =
      jobs.filter (·.ticks (n + 1)) := by
    refine List.filter_congr fun j _ => ?_
    rw [Function.comp_apply, Bool.eq_iff_iff, decide_eq_true_eq, due_advanced_iff]
  rw [hdue]
  rfl

end OpsMonitor.Library.Intervals
