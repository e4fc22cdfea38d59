import Mathlib

/-! Loops over a list whose turns carry a guard. A turn taken under its guard is a run of
the step relation and keeps the guards of the other elements, so the whole loop is a run. -/

namespace OpsMonitor.Library
open Relation

universe u v
variable {σ α β : Type u} {ε : Type v}

/-- The states before and after a loop whose turn for `a` is the relation `S a`. -/
inductive Loop (S : α → σ → σ → Prop) : List α → σ → σ → Prop
  | nil (s : σ) : Loop S [] s s
  | cons {a : α} {l : List α} {s s' s'' : σ} (turn : S a s s') (rest : Loop S l s' s'') :
    Loop S (a :: l) s s''

theorem loop_foldl (f : σ → α → σ) (l : List α) (s : σ) :
    Loop (fun a s s' => f s a = s') l s (l.foldl f s) := by
  induction l generalizing s with
  | nil => exact .nil s
  | cons a l ih => exact .cons rfl (ih (f s a))

section Fallible

theorem bind_eq_ok {x : Except ε α} {f : α → Except ε β} {r : β} :
    x >>= f = .ok r ↔ ∃ a, x = .ok a ∧ f a = .ok r := by
  cases x <;> simp [bind, Except.bind]

theorem bind_eq_error {x : Except ε α} {f : α → Except ε β} {e : ε} :
    x >>= f = .error e ↔ x = .error e ∨ ∃ a, x = .ok a ∧ f a = .error e := by
  cases x <;> simp [bind, Except.bind]

theorem toOption_eq_some {x : Except ε α} {a : α} : x.toOption = some a ↔ x = .ok a := by
  cases x <;> simp [Except.toOption]

theorem error_or_ok (x : Except ε α) : (∃ e, x = .error e) ∨ ∃ a, x = .ok a := by
  cases x with
  | error e => exact .inl ⟨e, rfl⟩
  | ok a => exact .inr ⟨a, rfl⟩

@[simp] theorem pure_eq_ok {a b : α} : (pure a : Except ε α) = .ok b ↔ a = b := by
  simp [pure, Except.pure]

@[simp] theorem pure_ne_error {a : α} {e : ε} : (pure a : Except ε α) ≠ .error e := nofun

variable {f : σ → α → Except ε σ} {l : List α} {s s' : σ}

theorem loop_foldlM (h : l.foldlM f s = .ok s') :
    Loop (fun a s s' => f s a = .ok s') l s s' := by
  induction l generalizing s with
  | nil =>
    obtain rfl : s = s' := by simpa using h
    exact .nil s
  | cons a l ih =>
    rw [List.foldlM_cons] at h
    obtain ⟨s₁, hf, h⟩ := bind_eq_ok.mp h
    exact .cons hf (ih h)

/-- A loop that fails does so at one element, after a loop over the elements before it. -/
theorem loop_of_error {x : ε} (h : l.foldlM f s = .error x) :
    ∃ pre a post s', l = pre ++ a :: post ∧
      Loop (fun a s s' => f s a = .ok s') pre s s' ∧ f s' a = .error x := by
  induction l generalizing s with
  | nil => simp at h
  | cons a l ih =>
    rw [List.foldlM_cons] at h
    rcases bind_eq_error.mp h with hf | ⟨s₁, hf, h⟩
    · exact ⟨[], a, l, s, rfl, .nil s, hf⟩
    · obtain ⟨pre, b, post, s', rfl, hloop, hb⟩ := ih h
      exact ⟨a :: pre, b, post, s', rfl, .cons hf hloop, hb⟩

/-- An invariant that speaks of the elements already done. -/
theorem foldlM_front {P : List α → σ → Prop} (h0 : P [] s) (h : l.foldlM f s = .ok s')
    (hstep : ∀ pre a post s s', l = pre ++ a :: post → P pre s → f s a = .ok s' → P (pre ++ [a]) s') :
    P l s' := by
  have hrest : ∀ post pre s, l = pre ++ post → P pre s → post.foldlM f s = .ok s' → P l s' := by
    intro post
    induction post with
    | nil =>
      intro pre s hl hP h
      obtain rfl := pure_eq_ok.mp h
      rwa [hl, List.append_nil]
    | cons a post ih =>
      intro pre s hl hP h
      rw [List.foldlM_cons] at h
      obtain ⟨s₁, hf, h⟩ := bind_eq_ok.mp h
      exact ih (pre ++ [a]) s₁ (by simpa using hl) (hstep pre a post s s₁ hl hP hf) h
  exact hrest l [] s rfl h0 h

/-- A loop whose turns succeed under an invariant. -/
theorem foldlM_eq_ok {P : σ → Prop} {g : σ → α → σ}
    (hstep : ∀ s a, P s → f s a = .ok (g s a) ∧ P (g s a)) (hP : P s) :
    l.foldlM f s = .ok (l.foldl g s) ∧ P (l.foldl g s) := by
  induction l generalizing s with
  | nil => exact ⟨rfl, hP⟩
  | cons a l ih =>
    obtain ⟨hf, hP⟩ := hstep s a hP
    rw [List.foldlM_cons, hf]
    exact ih hP

end Fallible

section Guarded
variable {S : α → σ → σ → Prop} {G : α → σ → Prop} {D : α → α → Prop} {l : List α} {s s' : σ}

/-- What every turn preserves holds after the loop. -/
theorem Loop.carries {P : σ → Prop} (h : Loop S l s s')
    (hstep : ∀ a ∈ l, ∀ s s', G a s → S a s s' → P s → P s')
    (hkeep : ∀ a b s s', D a b → G a s → S a s s' → G b s → G b s')
    (hl : l.Pairwise D) (hG : ∀ a ∈ l, G a s) (hP : P s) : P s' := by
  induction h with
  | nil => exact hP
  | @cons a l s s₁ s₂ turn rest ih =>
    obtain ⟨ha, hl⟩ := List.pairwise_cons.mp hl
    have hGa := hG a List.mem_cons_self
    have hGl : ∀ c ∈ l, G c s₁ := fun c hc =>
      hkeep a c s s₁ (ha c hc) hGa turn (hG c (List.mem_cons_of_mem _ hc))
    exact ih (fun c hc => hstep c (List.mem_cons_of_mem _ hc)) hl hGl
      (hstep a List.mem_cons_self s s₁ hGa turn hP)

theorem Loop.keeps (h : Loop S l s s')
    (hkeep : ∀ a b s s', D a b → G a s → S a s s' → G b s → G b s')
    (hl : l.Pairwise D) (hG : ∀ a ∈ l, G a s) {b : α}
    (hb : ∀ a ∈ l, D a b) (hGb : G b s) : G b s' :=
  h.carries (fun a ha s s' => hkeep a b s s' (hb a ha)) hkeep hl hG hGb

/-- The part `p` of the loop state moves by `R`. -/
theorem Loop.reaches {τ : Type*} {p : σ → τ} {R : τ → τ → Prop} (h : Loop S l s s')
    (hstep : ∀ a ∈ l, ∀ s s', G a s → S a s s' → ReflTransGen R (p s) (p s'))
    (hkeep : ∀ a b s s', D a b → G a s → S a s s' → G b s → G b s')
    (hl : l.Pairwise D) (hG : ∀ a ∈ l, G a s) : ReflTransGen R (p s) (p s') :=
  h.carries (P := fun t => ReflTransGen R (p s) (p t))
    (fun a ha s₁ s₂ hGa turn hP => hP.trans (hstep a ha s₁ s₂ hGa turn)) hkeep hl hG .refl

/-- What the turn of each element establishes, and the later turns keep. -/
theorem Loop.each {Q : α → σ → Prop} (h : Loop S l s s')
    (hturn : ∀ a ∈ l, ∀ s s', G a s → S a s s' → Q a s')
    (hkeep : ∀ a b s s', D a b → G a s → S a s s' → G b s → G b s')
    (hdone : ∀ a b s s', D b a → G a s → S a s s' → Q b s → Q b s')
    (hl : l.Pairwise D) (hG : ∀ a ∈ l, G a s) : ∀ a ∈ l, Q a s' := by
  induction h with
  | nil => exact fun a ha => absurd ha List.not_mem_nil
  | @cons a l s s₁ s₂ turn rest ih =>
    obtain ⟨ha, hl'⟩ := List.pairwise_cons.mp hl
    have hGa := hG a List.mem_cons_self
    have hGl : ∀ c ∈ l, G c s₁ := fun c hc =>
      hkeep a c s s₁ (ha c hc) hGa turn (hG c (List.mem_cons_of_mem _ hc))
    intro b hb
    rcases List.mem_cons.mp hb with rfl | hb
    · exact rest.carries (fun c hc s s' => hdone c b s s' (ha c hc)) hkeep hl' hGl
        (hturn b List.mem_cons_self s s₁ hGa turn)
    · exact ih (fun c hc => hturn c (List.mem_cons_of_mem _ hc)) hl' hGl b hb

end Guarded

end OpsMonitor.Library
