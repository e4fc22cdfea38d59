import Mathlib

/-! Runs of a deterministic machine over a list of events, with the two notions that
history properties need: some event of the run met a condition, every event did. The
condition may look at the events before, hence at the state the event was performed in. -/

namespace OpsMonitor.Library

variable {σ ε : Type*}

def run (step : σ → ε → σ) (s : σ) (es : List ε) : σ := es.foldl step s

def Happened (P : List ε → ε → Prop) (es : List ε) : Prop :=
  ∃ pre e post, es = pre ++ e :: post ∧ P pre e

def Along (C : List ε → ε → Prop) (es : List ε) : Prop :=
  ∀ pre e post, es = pre ++ e :: post → C pre e

section Run
variable (step : σ → ε → σ) (s : σ)

@[simp] theorem run_nil : run step s [] = s := rfl

theorem run_append (es fs : List ε) : run step s (es ++ fs) = run step (run step s es) fs :=
  List.foldl_append

@[simp] theorem run_concat (es : List ε) (e : ε) :
    run step s (es ++ [e]) = step (run step s es) e := by
  rw [run_append]
  rfl

end Run

section History
variable {P C : List ε → ε → Prop} {es : List ε} {e : ε}

theorem happened_concat : Happened P (es ++ [e]) ↔ Happened P es ∨ P es e := by
  constructor
  · rintro ⟨pre, e', post, heq, h⟩
    rcases List.eq_nil_or_concat post with rfl | ⟨post', e'', rfl⟩
    · obtain ⟨rfl, he⟩ := List.append_inj' heq rfl
      obtain rfl : e = e' := by simpa using he
      exact .inr h
    · rw [List.concat_eq_append, ← List.cons_append, ← List.append_assoc] at heq
      exact .inl ⟨pre, e', post', (List.append_inj' heq rfl).1, h⟩
  · rintro (⟨pre, e', post, rfl, h⟩ | h)
    · exact ⟨pre, e', post ++ [e], by simp, h⟩
    · exact ⟨es, e, [], rfl, h⟩

theorem Happened.concat (h : Happened P es) (e : ε) : Happened P (es ++ [e]) :=
  happened_concat.mpr (.inl h)

theorem not_happened_nil : ¬ Happened P ([] : List ε) := by
  rintro ⟨pre, e, post, h, -⟩
  simp at h

theorem Happened.imp {Q : List ε → ε → Prop} (h : Happened P es) (hPQ : ∀ pre e, P pre e → Q pre e) :
    Happened Q es := by
  obtain ⟨pre, e, post, rfl, h⟩ := h
  exact ⟨pre, e, post, rfl, hPQ pre e h⟩

theorem Along.front {fs : List ε} (h : Along C (es ++ fs)) : Along C es := by
  rintro pre e' post rfl
  exact h pre e' (post ++ fs) (by simp)

theorem Along.last (h : Along C (es ++ [e])) : C es e := h es e [] rfl

theorem along_concat : Along C (es ++ [e]) ↔ Along C es ∧ C es e := by
  refine ⟨fun h => ⟨h.front, h.last⟩, ?_⟩
  rintro ⟨h, hlast⟩ pre e' post heq
  rcases List.eq_nil_or_concat post with rfl | ⟨post', e'', rfl⟩
  · obtain ⟨rfl, he⟩ := List.append_inj' heq rfl
    obtain rfl : e = e' := by simpa using he
    exact hlast
  · rw [List.concat_eq_append, ← List.cons_append, ← List.append_assoc] at heq
    exact h pre e' post' (List.append_inj' heq rfl).1

theorem Along.imp {D : List ε → ε → Prop} (h : Along C es) (hCD : ∀ pre e, C pre e → D pre e) :
    Along D es := fun pre e post heq => hCD pre e (h pre e post heq)

theorem along_congr {D : List ε → ε → Prop}
    (h : ∀ pre e post, es = pre ++ e :: post → (C pre e ↔ D pre e)) : Along C es ↔ Along D es := by
  constructor
  · exact fun hC pre e post heq => (h pre e post heq).mp (hC pre e post heq)
  · exact fun hD pre e post heq => (h pre e post heq).mpr (hD pre e post heq)

@[simp] theorem along_nil : Along C ([] : List ε) := by
  intro pre e post h
  simp at h

theorem along_cons : Along C (e :: es) ↔ C [] e ∧ Along (fun pre => C (e :: pre)) es := by
  constructor
  · intro h
    refine ⟨h [] e es rfl, ?_⟩
    rintro pre e' post rfl
    exact h (e :: pre) e' post rfl
  · rintro ⟨h0, h⟩ pre e' post heq
    cases pre with
    | nil =>
      obtain ⟨rfl, -⟩ := List.cons_eq_cons.mp heq
      exact h0
    | cons a pre =>
      obtain ⟨rfl, rfl⟩ := List.cons_eq_cons.mp heq
      exact h pre e' post rfl

theorem happened_cons : Happened P (e :: es) ↔ P [] e ∨ Happened (fun pre => P (e :: pre)) es := by
  constructor
  · rintro ⟨pre, e', post, heq, h⟩
    cases pre with
    | nil =>
      obtain ⟨rfl, -⟩ := List.cons_eq_cons.mp heq
      exact .inl h
    | cons a pre =>
      obtain ⟨rfl, rfl⟩ := List.cons_eq_cons.mp heq
      exact .inr ⟨pre, e', post, rfl, h⟩
  · rintro (h | ⟨pre, e', post, rfl, h⟩)
    · exact ⟨[], e, es, rfl, h⟩
    · exact ⟨e :: pre, e', post, rfl, h⟩

/-- An invariant that may mention the events so far holds after every run whose events
all meet `C`, once it holds at the start and each such event preserves it. -/
theorem run_induction {step : σ → ε → σ} {s : σ} {I : List ε → σ → Prop} (h0 : I [] s)
    (hstep : ∀ es e, Along C (es ++ [e]) → I es (run step s es) →
      I (es ++ [e]) (step (run step s es) e)) :
    ∀ es, Along C es → I es (run step s es) := by
  intro es
  induction es using List.reverseRecOn with
  | nil => exact fun _ => h0
  | append_singleton es e ih =>
    intro h
    rw [run_concat]
    exact hstep es e h (ih h.front)

end History

end OpsMonitor.Library
