import Mathlib

/-! An alarm with a hold time. A violation makes it pending, a violation one hold time later
makes it fire, a recovery ends it. Between a violation and a recovery there may be readings
that are neither, and observations that read nothing. -/

namespace OpsMonitor.Library.Alarm

inductive Stage
  | pending | firing | acknowledged
  deriving DecidableEq, Repr

inductive Reading
  | missing
  | violating
  | normal (recovered : Bool)
  deriving DecidableEq, Repr

/-- The stage of an alarm that is on, and when its first violation was seen. -/
abbrev State (τ : Type*) := Option (Stage × τ)

section Step
variable {τ : Type*} [Add τ] [LE τ] [DecidableLE τ] (hold : τ)

def observe (now : τ) (s : State τ) : Reading → State τ
  | .missing => s
  | .normal recovered => if recovered then none else s
  | .violating =>
    match s with
    | none => some (.pending, now)
    | some (.pending, since) => some (if since + hold ≤ now then .firing else .pending, since)
    | some (stage, since) => some (stage, since)

def acknowledge (s : State τ) : State τ := s.map fun p => (.acknowledged, p.2)

variable {hold} {now : τ} {s : State τ}

/-- An alarm is on after a reading that violates, or that does not count as a recovery when it
was on before. -/
theorem isSome_observe {r : Reading} :
    (observe hold now s r).isSome ↔ r = .violating ∨ s.isSome ∧ r ≠ .normal true := by
  cases r with
  | missing => simp [observe]
  | normal recovered => cases recovered <;> simp [observe]
  | violating =>
    match s with
    | none => simp [observe]
    | some (.pending, since) => simp [observe]
    | some (.firing, since) | some (.acknowledged, since) => simp [observe]

/-- An alarm that starts to fire was pending before. -/
theorem pending_of_firing {since : τ} {r : Reading}
    (h : observe hold now s r = some (.firing, since)) :
    (∃ since', s = some (.firing, since')) ∨ ∃ since', s = some (.pending, since') := by
  match s, h with
  | none, h => cases r <;> simp [observe] at h
  | some (.pending, since'), _ => exact .inr ⟨since', rfl⟩
  | some (.firing, since'), _ => exact .inl ⟨since', rfl⟩
  | some (.acknowledged, since'), h =>
    cases r with
    | normal recovered => cases recovered <;> simp [observe] at h
    | missing | violating => simp [observe] at h

/-- A pending alarm starts to fire with a violation that comes late enough. -/
theorem of_observe_firing {since since' : τ} {r : Reading}
    (h : observe hold now (some (.pending, since)) r = some (.firing, since')) :
    r = .violating ∧ since + hold ≤ now := by
  cases r with
  | missing => simp [observe] at h
  | normal recovered => cases recovered <;> simp [observe] at h
  | violating =>
    have hstage : (if since + hold ≤ now then Stage.firing else Stage.pending) = .firing :=
      congrArg Prod.fst (Option.some.inj h)
    split_ifs at hstage with hdue
    exact ⟨rfl, hdue⟩

end Step

/-! ## What a pending alarm stands for -/

section Held
variable {τ : Type*} [LinearOrder τ] {hold now : τ} {seen : Set (τ × Reading)} {s : State τ}

/-- Since its first violation a pending alarm has seen nothing but violations. -/
def Held (seen : Set (τ × Reading)) (s : State τ) : Prop :=
  ∀ since, s = some (.pending, since) → ∀ o ∈ seen, since ≤ o.1 → o.2 = .violating

theorem Held.acknowledge (seen : Set (τ × Reading)) (s : State τ) : Held seen (acknowledge s) := by
  intro since hpending
  obtain ⟨p, -, hp⟩ := Option.map_eq_some_iff.mp hpending
  cases hp

theorem held_none (seen : Set (τ × Reading)) : Held seen none := fun _ h => by cases h

theorem Held.observe [Add τ] (h : Held seen s) (hnew : ∀ o ∈ seen, o.1 < now) {r : Reading}
    (hsteady : ∀ since, s = some (.pending, since) → r = .violating ∨ r = .normal true) :
    Held (insert (now, r) seen) (observe hold now s r) := by
  intro since hpending o ho hle
  cases r with
  | missing =>
    rcases hsteady since hpending with hr | hr <;> cases hr
  | normal recovered =>
    cases recovered with
    | true => cases hpending
    | false => rcases hsteady since hpending with hr | hr <;> cases hr
  | violating =>
    rcases Set.mem_insert_iff.mp ho with rfl | ho
    · rfl
    · match s, h, hpending with
      | none, _, hpending =>
        -- the alarm starts now, so it has seen nothing yet
        obtain ⟨-, rfl⟩ := Prod.ext_iff.mp (Option.some.inj hpending)
        exact absurd (hnew o ho) hle.not_gt
      | some (.pending, since'), h, hpending =>
        obtain ⟨-, rfl⟩ := Prod.ext_iff.mp (Option.some.inj hpending)
        exact h since' rfl o ho hle
      | some (.firing, since'), _, hpending | some (.acknowledged, since'), _, hpending =>
        cases hpending

/-- When a pending alarm starts to fire, everything it saw within the hold time violated. -/
theorem Held.of_fires [AddCommGroup τ] [IsOrderedAddMonoid τ] (h : Held seen s) {since since' : τ}
    (hs : s = some (.pending, since)) {r : Reading}
    (hfires : Alarm.observe hold now s r = some (.firing, since')) :
    ∀ o ∈ insert (now, r) seen, now - hold ≤ o.1 → o.2 = .violating := by
  rw [hs] at hfires
  obtain ⟨rfl, hdue⟩ := of_observe_firing hfires
  intro o ho hwithin
  rcases Set.mem_insert_iff.mp ho with rfl | ho
  · rfl
  · exact h since hs o ho ((le_sub_iff_add_le.mpr hdue).trans hwithin)

end Held

end OpsMonitor.Library.Alarm
