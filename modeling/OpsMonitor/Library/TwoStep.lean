import OpsMonitor.Library.Snapshot

/-! Calls in two steps on a shared state: a call looks at the state, and acts later on what it
saw, over whatever the others did in between. Any number of calls, in any order of the steps. -/

namespace OpsMonitor.Library

/-- `act` is `none` when the call fails; it is then rolled back. -/
structure TwoStep (ι σ α ρ : Type*) where
  look : ι → σ → α
  act : ι → α → σ → Option (σ × ρ)

structure Board (ι σ α ρ : Type*) where
  shared : σ
  seen : ι → Option α
  reply : ι → Option ρ

/-- Every step of a call happens at most once, and none acts before it looked. -/
structure InOrder {ι : Type*} (l : List (Phase ι)) : Prop where
  nodup : l.Nodup
  looked : Along (fun pre p => ∀ i, p = .commit i → .read i ∈ pre) l

theorem InOrder.front {ι : Type*} {l m : List (Phase ι)} (h : InOrder (l ++ m)) :
    InOrder l where
  nodup := (List.nodup_append.mp h.nodup).1
  looked := h.looked.front

namespace TwoStep
variable {ι σ α ρ : Type*} [DecidableEq ι] (T : TwoStep ι σ α ρ)

def step (w : Board ι σ α ρ) : Phase ι → Board ι σ α ρ
  | .read i => { w with seen := Function.update w.seen i (some (T.look i w.shared)) }
  | .commit i =>
    match (w.seen i).bind fun a => T.act i a w.shared with
    | none => w
    | some (s, r) => { w with shared := s, reply := Function.update w.reply i (some r) }

def play (s : σ) (l : List (Phase ι)) : Board ι σ α ρ :=
  run T.step ⟨s, fun _ => none, fun _ => none⟩ l

variable {T} {w : Board ι σ α ρ} {p : Phase ι} {i : ι} {s : σ} {pre post l : List (Phase ι)}

theorem play_concat : T.play s (l ++ [p]) = T.step (T.play s l) p := run_concat _ _ _ _

theorem seen_step_of_ne (h : p ≠ .read i) : (T.step w p).seen i = w.seen i := by
  cases p with
  | read j =>
    have hne : i ≠ j := by
      rintro rfl
      exact h rfl
    exact Function.update_of_ne hne _ _
  | commit j =>
    cases hact : (w.seen j).bind fun a => T.act j a w.shared with
    | none => rw [step, hact]
    | some r => rw [step, hact]

theorem reply_step_of_ne (h : p ≠ .commit i) : (T.step w p).reply i = w.reply i := by
  cases p with
  | read j => rfl
  | commit j =>
    have hne : i ≠ j := by
      rintro rfl
      exact h rfl
    cases hact : (w.seen j).bind fun a => T.act j a w.shared with
    | none => rw [step, hact]
    | some r =>
      rw [step, hact]
      exact Function.update_of_ne hne _ _

theorem seen_of_read (hl : (pre ++ .read i :: post).Nodup) :
    (T.play s (pre ++ .read i :: post)).seen i = some (T.look i (T.play s pre).shared) := by
  induction post using List.reverseRecOn with
  | nil =>
    rw [play_concat]
    exact Function.update_self _ _ _
  | append_singleton post p ih =>
    have hsplit : pre ++ .read i :: (post ++ [p]) = (pre ++ .read i :: post) ++ [p] := by simp
    rw [hsplit] at hl ⊢
    have hne : p ≠ .read i := by
      rintro rfl
      exact (List.nodup_append.mp hl).2.2 (.read i) (by simp) (.read i) (by simp) rfl
    rw [play_concat, seen_step_of_ne hne]
    exact ih (List.nodup_append.mp hl).1

theorem reply_of_commit (hl : (pre ++ .commit i :: post).Nodup) :
    (T.play s (pre ++ .commit i :: post)).reply i = (T.play s (pre ++ [.commit i])).reply i := by
  induction post using List.reverseRecOn with
  | nil => rfl
  | append_singleton post p ih =>
    have hsplit : pre ++ .commit i :: (post ++ [p]) = (pre ++ .commit i :: post) ++ [p] := by simp
    rw [hsplit] at hl ⊢
    have hne : p ≠ .commit i := by
      rintro rfl
      exact (List.nodup_append.mp hl).2.2 (.commit i) (by simp) (.commit i) (by simp) rfl
    rw [play_concat, reply_step_of_ne hne]
    exact ih (List.nodup_append.mp hl).1

theorem reply_of_not_committed (h : .commit i ∉ l) : (T.play s l).reply i = none := by
  induction l using List.reverseRecOn with
  | nil => rfl
  | append_singleton l p ih =>
    rw [List.mem_append, List.mem_singleton, not_or] at h
    rw [play_concat, reply_step_of_ne (Ne.symm h.2)]
    exact ih h.1

/-- A call acts on what it saw when it looked. -/
theorem exists_look (hl : InOrder (pre ++ [.commit i])) :
    ∃ a b, pre = a ++ .read i :: b ∧
      (T.play s pre).seen i = some (T.look i (T.play s a).shared) := by
  obtain ⟨a, b, rfl⟩ := List.append_of_mem (hl.looked.last i rfl)
  exact ⟨a, b, rfl, seen_of_read hl.front.nodup⟩

theorem step_commit {a : α} (h : w.seen i = some a) :
    T.step w (.commit i) =
      match T.act i a w.shared with
      | none => w
      | some (s, r) => { w with shared := s, reply := Function.update w.reply i (some r) } := by
  rw [step, h]
  rfl

end TwoStep
end OpsMonitor.Library
