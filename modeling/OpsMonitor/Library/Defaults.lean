import OpsMonitor.Library.Loops
import OpsMonitor.Library.Table

/-! Rows that a table shall have: each is inserted unless the table that was read has one of its name.
The rows are written to a table that may have changed since. -/

namespace OpsMonitor.Library
open Keyed

variable {α κ ε : Type*} [Keyed α]

/-- How rows are told apart and inserted. -/
structure Defaults (α κ ε : Type*) [Keyed α] where
  name : α → κ
  name_withKey : ∀ n a, name (withKey n a) = name a
  insert : Table α → α → Except ε (Table α)

namespace Defaults
variable [DecidableEq κ] (d : Defaults α κ ε)

def present (t : Table α) (a : α) : Bool := t.rows.any fun r => d.name r = d.name a

def ensure (read t : Table α) (a : α) : Except ε (Table α) :=
  if d.present read a then .ok t else d.insert t a

def ensureAll (read t : Table α) (rows : List α) : Except ε (Table α) := rows.foldlM (d.ensure read) t

/-- No two rows have one name. -/
def Distinct (t : Table α) : Prop := ∀ r ∈ t, ∀ s ∈ t, d.name r = d.name s → r = s

/-- The rows can be inserted where no row has their name. -/
structure Insertable (rows : List α) : Prop where
  nodup : (rows.map d.name).Nodup
  inserts : ∀ t, ∀ a ∈ rows, d.present t a = false → d.insert t a = .ok (t.insert a)

variable {d} {t t' : Table α} {rows : List α} {a : α}

theorem present_iff : d.present t a = true ↔ ∃ r ∈ t, d.name r = d.name a := by
  rw [present, List.any_eq_true]
  simp only [decide_eq_true_eq]
  exact Iff.rfl

theorem present_eq_false : d.present t a = false ↔ ∀ r ∈ t, d.name r ≠ d.name a := by
  rw [Bool.eq_false_iff, ne_eq, present_iff]
  push Not
  exact Iff.rfl

theorem Insertable.tail (h : d.Insertable (a :: rows)) : d.Insertable rows where
  nodup := (List.nodup_cons.mp h.nodup).2
  inserts t b hb := h.inserts t b (List.mem_cons_of_mem _ hb)

/-- Everything that is missing is inserted, whatever else was. -/
theorem ensureAll_eq {read : Table α} (h : d.Insertable rows)
    (hread : ∀ b ∈ rows, d.present read b = false → d.present t b = false) :
    d.ensureAll read t rows = .ok (t.insertAll (rows.filter fun b => !d.present read b)) := by
  induction rows generalizing t with
  | nil => rfl
  | cons b rows ih =>
    have hrest : ∀ e ∈ rows, d.present read e = false → d.present t e = false := fun e he =>
      hread e (List.mem_cons_of_mem _ he)
    rw [ensureAll, List.foldlM_cons, ensure]
    by_cases hb : d.present read b = true
    · have hfilter : (b :: rows).filter (fun e => !d.present read e) = rows.filter fun e => !d.present read e :=
        List.filter_cons_of_neg (by simp [hb])
      rw [if_pos hb, hfilter]
      exact ih h.tail hrest
    · rw [Bool.not_eq_true] at hb
      have hfilter : (b :: rows).filter (fun e => !d.present read e) = b :: rows.filter fun e => !d.present read e :=
        List.filter_cons_of_pos (by simp [hb])
      have hnew : d.present t b = false := hread b List.mem_cons_self hb
      rw [if_neg (by simp [hb]), h.inserts t b List.mem_cons_self hnew, hfilter, Table.insertAll_cons]
      refine ih h.tail fun e he hfree => ?_
      rw [present_eq_false]
      intro r hr
      rcases Table.mem_insert.mp hr with hr | rfl
      · exact present_eq_false.mp (hrest e he hfree) r hr
      · rw [d.name_withKey]
        intro hsame
        exact (List.nodup_cons.mp h.nodup).1 (hsame ▸ List.mem_map_of_mem he)

theorem ensureAll_of_present (h : ∀ b ∈ rows, d.present t b = true) : d.ensureAll t t rows = .ok t := by
  induction rows with
  | nil => rfl
  | cons b rows ih =>
    rw [ensureAll, List.foldlM_cons, ensure, if_pos (h b List.mem_cons_self)]
    exact ih fun e he => h e (List.mem_cons_of_mem _ he)

theorem Distinct.insert (h : d.Distinct t) (hfree : d.present t a = false) : d.Distinct (t.insert a) := by
  rw [present_eq_false] at hfree
  intro r hr s hs hname
  rcases Table.mem_insert.mp hr with hr | rfl <;> rcases Table.mem_insert.mp hs with hs | rfl
  · exact h r hr s hs hname
  · rw [d.name_withKey] at hname
    exact absurd hname (hfree r hr)
  · rw [d.name_withKey] at hname
    exact absurd hname.symm (hfree s hs)
  · rfl

omit [DecidableEq κ] in
theorem Distinct.modify {k : ℕ} {f : α → α} {hf : ∀ r, key (f r) = key r} (h : d.Distinct t)
    (hnew : ∀ r ∈ t, key r = k → ∀ s ∈ t, key s ≠ k → d.name (f r) ≠ d.name s) :
    d.Distinct (t.modify k f hf) := by
  intro r hr s hs hname
  obtain ⟨a, ha, rfl⟩ := Table.mem_modify.mp hr
  obtain ⟨b, hb, rfl⟩ := Table.mem_modify.mp hs
  by_cases hka : key a = k <;> by_cases hkb : key b = k
  · rw [Table.eq_of_key_eq ha hb (hka.trans hkb.symm)]
  · rw [if_pos hka, if_neg hkb] at hname
    exact absurd hname (hnew a ha hka b hb hkb)
  · rw [if_neg hka, if_pos hkb] at hname
    exact absurd hname.symm (hnew b hb hkb a ha hka)
  · rw [if_neg hka, if_neg hkb] at hname ⊢
    exact h a ha b hb hname

omit [DecidableEq κ] in
theorem Distinct.remove (h : d.Distinct t) (p : α → Bool) : d.Distinct (t.remove p) := fun r hr s hs =>
  h r (Table.mem_remove.mp hr).1 s (Table.mem_remove.mp hs).1

omit [DecidableEq κ] in
theorem distinct_empty : d.Distinct Table.empty := fun r hr => absurd hr (Table.notMem_empty r)

/-- What the table is after its missing rows were inserted. -/
structure Ensured (d : Defaults α κ ε) (rows : List α) (t t' : Table α) : Prop where
  kept : ∀ r ∈ t, r ∈ t'
  present : ∀ a ∈ rows, d.present t' a = true
  distinct : d.Distinct t'

theorem insertAll_ensured (h : (rows.map d.name).Nodup) (ht : d.Distinct t)
    (hfree : ∀ a ∈ rows, d.present t a = false) : Ensured d rows t (t.insertAll rows) := by
  induction rows generalizing t with
  | nil => exact ⟨fun r hr => hr, fun a ha => absurd ha List.not_mem_nil, ht⟩
  | cons b rows ih =>
    obtain ⟨hb, hnodup⟩ := List.nodup_cons.mp h
    have hbfree := hfree b List.mem_cons_self
    have hrest := ih hnodup (ht.insert hbfree) fun e he => by
      rw [present_eq_false]
      intro r hr
      rcases Table.mem_insert.mp hr with hr | rfl
      · exact present_eq_false.mp (hfree e (List.mem_cons_of_mem _ he)) r hr
      · rw [d.name_withKey]
        intro hsame
        exact hb (hsame ▸ List.mem_map_of_mem he)
    rw [Table.insertAll_cons]
    refine ⟨fun r hr => hrest.kept r (Table.mem_insert.mpr (.inl hr)), fun a ha => ?_, hrest.distinct⟩
    rcases List.mem_cons.mp ha with rfl | ha
    · exact present_iff.mpr ⟨_, hrest.kept _ (Table.mem_insert.mpr (.inr rfl)), d.name_withKey _ _⟩
    · exact hrest.present a ha

/-- The rows are there afterwards, each once, and nothing that was there is touched. -/
theorem ensureAll_spec (h : d.Insertable rows) (ht : d.Distinct t) :
    ∃ t', d.ensureAll t t rows = .ok t' ∧ Ensured d rows t t' := by
  refine ⟨_, ensureAll_eq h fun _ _ hfree => hfree, ?_⟩
  have hmissing := @insertAll_ensured _ _ _ _ _ d t (rows.filter fun b => !d.present t b)
    (h.nodup.sublist (List.filter_sublist.map _)) ht fun a ha => by
      simpa using (List.mem_filter.mp ha).2
  refine ⟨hmissing.kept, fun a ha => ?_, hmissing.distinct⟩
  by_cases hpresent : d.present t a = true
  · obtain ⟨r, hr, hname⟩ := present_iff.mp hpresent
    exact present_iff.mpr ⟨r, hmissing.kept r hr, hname⟩
  · exact hmissing.present a (List.mem_filter.mpr ⟨ha, by simpa using hpresent⟩)

end Defaults

end OpsMonitor.Library
