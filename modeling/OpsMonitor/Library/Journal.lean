import Mathlib

/-! A journal of the changes of a state. Each entry tells the state before, none for the first
one, and the state after; a journal that replays a state links its entries from nothing to it. -/

namespace OpsMonitor.Library

section Journal
variable {ε σ : Type*}

/-- The entries `l` lead from nothing to the state `s`, each by an allowed change. -/
structure Replays (old : ε → Option σ) (new : ε → σ) (allowed : Option σ → σ → Prop) (l : List ε)
    (s : σ) : Prop where
  first : (l.head?.map old) = some none
  linked : l.IsChain fun a b => old b = some (new a)
  last : l.getLast?.map new = some s
  steps : ∀ a ∈ l, allowed (old a) (new a)

namespace Replays
variable {old : ε → Option σ} {new : ε → σ} {allowed : Option σ → σ → Prop} {l : List ε} {s : σ}
  {a b : ε}

theorem singleton (hold : old a = none) (ha : allowed none (new a)) :
    Replays old new allowed [a] (new a) where
  first := by rw [← hold]; rfl
  linked := .singleton a
  last := rfl
  steps := by
    intro b hb
    rw [List.mem_singleton.mp hb, hold]
    exact ha

theorem concat (h : Replays old new allowed l s) (hold : old a = some s)
    (ha : allowed (some s) (new a)) : Replays old new allowed (l ++ [a]) (new a) := by
  obtain ⟨b, hb, hlast⟩ := Option.map_eq_some_iff.mp h.last
  refine ⟨?_, ?_, ?_, ?_⟩
  · have hne : l ≠ [] := List.ne_nil_of_mem (List.mem_of_getLast? hb)
    rw [List.head?_append_of_ne_nil l hne, h.first]
  · refine List.isChain_append.mpr ⟨h.linked, .singleton a, ?_⟩
    intro x hx y hy
    obtain rfl : a = y := by simpa using hy
    obtain rfl : b = x := Option.some.inj (hb.symm.trans hx)
    rw [hold, hlast]
  · rw [List.getLast?_concat]
    rfl
  · intro x hx
    rcases List.mem_append.mp hx with hx | hx
    · exact h.steps x hx
    · rw [List.mem_singleton.mp hx, hold]
      exact ha

/-- After an entry that leads to a state without further changes there is no entry. -/
theorem nothing_follows (h : Replays old new allowed l s) (hfinal : ∀ t, ¬ allowed (some (new a)) t)
    {before after : List ε} (hl : l = before ++ a :: after) : after = [] := by
  cases after with
  | nil => rfl
  | cons b after =>
    have hmem : b ∈ l := by
      rw [hl]
      simp
    have hlinked := h.linked
    rw [hl, List.isChain_append] at hlinked
    have hb : old b = some (new a) := (List.isChain_cons_cons.mp hlinked.2.1).1
    have hstep := h.steps b hmem
    rw [hb] at hstep
    exact absurd hstep (hfinal _)

end Replays
end Journal
end OpsMonitor.Library
