import OpsMonitor.Library.Table

/-! Tables with constraints. A write of one row is refused when a column does not take its
value, or when another row of the table has the same value of a unique key. -/

namespace OpsMonitor.Library

open Keyed

variable {α ε : Type*}

/-- A unique key: when two rows may not both be in the table. A row with `NULL` in the key
collides with none. -/
structure UniqueKey (α ε : Type*) where
  error : ε
  collide : α → α → Bool
  symm : ∀ r s, collide r s = collide s r

/-- What a table demands of its rows: each row by itself, and any two of them. -/
structure Schema (α ε : Type*) where
  column : α → Option ε
  unique : List (UniqueKey α ε)

namespace Schema
variable [Keyed α] (sc : Schema α ε)

/-- The first unique key of which another row of the table has the value. -/
def clash (t : Table α) (r : α) : Option ε :=
  (sc.unique.find? fun u => t.rows.any fun s => key s ≠ key r ∧ u.collide r s = true).map (·.error)

def refuse (t : Table α) (r : α) : Option ε := sc.column r <|> sc.clash t r

def insert (t : Table α) (a : α) : Except ε (Table α) :=
  match sc.refuse t (withKey t.next a) with
  | some e => .error e
  | none => .ok (t.insert a)

def modify (t : Table α) (k : ℕ) (f : α → α) (hf : ∀ r, key (f r) = key r := by intro _; rfl) :
    Except ε (Table α) :=
  match (t.get? k).bind fun r => sc.refuse t (f r) with
  | some e => .error e
  | none => .ok (t.modify k f hf)

/-- The rows meet the constraints. -/
structure Consistent (t : Table α) : Prop where
  column : ∀ r ∈ t, sc.column r = none
  unique : ∀ u ∈ sc.unique, ∀ r ∈ t, ∀ s ∈ t, u.collide r s = true → r = s

variable {sc} {t t' : Table α}

theorem clash_eq_none {r : α} : sc.clash t r = none ↔
    ∀ u ∈ sc.unique, ∀ s ∈ t, u.collide r s = true → key s = key r := by
  simp only [clash, Option.map_eq_none_iff, List.find?_eq_none, List.any_eq_true,
    decide_eq_true_eq, not_exists, not_and, Table.mem_rows]
  refine forall₂_congr fun u _ => forall₂_congr fun s _ => ?_
  exact ⟨fun h hc => by_contra fun hne => h hne hc, fun h hne hc => hne (h hc)⟩

theorem refuse_eq_none {r : α} :
    sc.refuse t r = none ↔ sc.column r = none ∧ sc.clash t r = none := by
  rw [refuse]
  cases sc.column r <;> simp

/-- An error of the table is one of a column or of a unique key. -/
theorem refuse_eq_some {r : α} {e : ε} (h : sc.refuse t r = some e) :
    sc.column r = some e ∨ ∃ u ∈ sc.unique, u.error = e := by
  unfold refuse at h
  cases hcolumn : sc.column r with
  | some e' =>
    rw [hcolumn] at h
    exact .inl h
  | none =>
    rw [hcolumn] at h
    obtain ⟨u, hu, rfl⟩ := Option.map_eq_some_iff.mp h
    exact .inr ⟨u, List.mem_of_find?_eq_some hu, rfl⟩

theorem insert_eq_error {a : α} {e : ε} :
    sc.insert t a = .error e ↔ sc.refuse t (withKey t.next a) = some e := by
  unfold insert
  cases sc.refuse t (withKey t.next a) <;> simp

theorem modify_eq_error {k : ℕ} {f : α → α} {hf : ∀ r, key (f r) = key r} {e : ε} :
    sc.modify t k f hf = .error e ↔ ∃ r ∈ t, key r = k ∧ sc.refuse t (f r) = some e := by
  unfold modify
  cases hget : t.get? k with
  | none => simpa using fun r hr hk => absurd hk (Table.get?_eq_none.mp hget r hr)
  | some r =>
    obtain ⟨hr, hk⟩ := Table.get?_eq_some.mp hget
    have hrow : (∃ s ∈ t, key s = k ∧ sc.refuse t (f s) = some e) ↔ sc.refuse t (f r) = some e := by
      constructor
      · rintro ⟨s, hs, hsk, h⟩
        rwa [← Table.eq_of_key_eq hs hr (hsk.trans hk.symm)]
      · exact fun h => ⟨r, hr, hk, h⟩
    rw [hrow, Option.bind_some]
    cases sc.refuse t (f r) <;> simp

theorem insert_eq_ok {a : α} : sc.insert t a = .ok t' ↔
    sc.refuse t (withKey t.next a) = none ∧ t' = t.insert a := by
  unfold insert
  cases h : sc.refuse t (withKey t.next a) with
  | some e => simp
  | none => simpa using eq_comm

theorem modify_eq_ok {k : ℕ} {f : α → α} {hf : ∀ r, key (f r) = key r} :
    sc.modify t k f hf = .ok t' ↔
      (∀ r ∈ t, key r = k → sc.refuse t (f r) = none) ∧ t' = t.modify k f hf := by
  unfold modify
  cases hget : t.get? k with
  | none =>
    have hno := Table.get?_eq_none.mp hget
    have hall : ∀ r ∈ t, key r = k → sc.refuse t (f r) = none := fun r hr hk => absurd hk (hno r hr)
    simp only [Option.bind_none, Except.ok.injEq]
    exact ⟨fun h => ⟨hall, h.symm⟩, fun h => h.2.symm⟩
  | some r =>
    obtain ⟨hr, hk⟩ := Table.get?_eq_some.mp hget
    have hall : (∀ r ∈ t, key r = k → sc.refuse t (f r) = none) ↔ sc.refuse t (f r) = none := by
      refine ⟨fun h => h r hr hk, fun h s hs hsk => ?_⟩
      rwa [Table.eq_of_key_eq hs hr (hsk.trans hk.symm)]
    rw [hall, Option.bind_some]
    cases sc.refuse t (f r) with
    | some e => simp
    | none => simpa using eq_comm

theorem modify_key_eq_ok {r : α} {f : α → α} {hf : ∀ r, key (f r) = key r} (hr : r ∈ t) :
    sc.modify t (key r) f hf = .ok t' ↔ sc.refuse t (f r) = none ∧ t' = t.modify (key r) f hf := by
  rw [modify_eq_ok]
  refine and_congr_left fun _ => ⟨fun h => h r hr rfl, fun h s hs hk => ?_⟩
  rwa [Table.eq_of_key_eq hs hr hk]

theorem mem_modify_key {r : α} {f : α → α} (hf : ∀ r, key (f r) = key r) (hr : r ∈ t) :
    f r ∈ t.modify (key r) f hf := Table.mem_modify.mpr ⟨r, hr, if_pos rfl⟩

/-! ## The constraints hold after every write -/

theorem Consistent.empty : sc.Consistent (Table.empty : Table α) where
  column := fun r hr => absurd hr (Table.notMem_empty r)
  unique := fun _ _ r hr => absurd hr (Table.notMem_empty r)

/-- A row that is written again as it is passes. -/
theorem Consistent.refuse_of_mem (h : sc.Consistent t) {r : α} (hr : r ∈ t) :
    sc.refuse t r = none := by
  refine refuse_eq_none.mpr ⟨h.column r hr, clash_eq_none.mpr fun u hu s hs hc => ?_⟩
  rw [h.unique u hu r hr s hs hc]

theorem Consistent.insert {a : α} (h : sc.Consistent t) (hok : sc.insert t a = .ok t') :
    sc.Consistent t' := by
  obtain ⟨hrefuse, rfl⟩ := insert_eq_ok.mp hok
  obtain ⟨hcolumn, hclash⟩ := refuse_eq_none.mp hrefuse
  have hnew : ∀ s ∈ t, key s ≠ key (withKey t.next a) := fun s hs => by
    rw [key_withKey]
    exact (Table.key_lt hs).ne
  constructor
  · intro r hr
    rcases Table.mem_insert.mp hr with hr | rfl
    · exact h.column r hr
    · exact hcolumn
  · intro u hu r hr s hs hc
    rcases Table.mem_insert.mp hr with hr | rfl <;> rcases Table.mem_insert.mp hs with hs | rfl
    · exact h.unique u hu r hr s hs hc
    · exact absurd (clash_eq_none.mp hclash u hu r hr (by rwa [u.symm])) (hnew r hr)
    · exact absurd (clash_eq_none.mp hclash u hu s hs hc) (hnew s hs)
    · rfl

theorem Consistent.modify {k : ℕ} {f : α → α} {hf : ∀ r, key (f r) = key r} (h : sc.Consistent t)
    (hok : sc.modify t k f hf = .ok t') : sc.Consistent t' := by
  obtain ⟨hrefuse, rfl⟩ := modify_eq_ok.mp hok
  -- of two rows of the new table at least one is old, or both are the row that was written
  have hwritten : ∀ r ∈ t, key r = k → ∀ s ∈ t, key s ≠ k → ∀ u ∈ sc.unique,
      u.collide (f r) s = false := by
    intro r hr hk s hs hne u hu
    by_contra hc
    have hsame := clash_eq_none.mp (refuse_eq_none.mp (hrefuse r hr hk)).2 u hu s hs (by simpa using hc)
    exact hne (hsame.trans ((hf r).trans hk))
  constructor
  · intro r hr
    obtain ⟨s, hs, rfl⟩ := Table.mem_modify.mp hr
    split_ifs with hk
    · exact (refuse_eq_none.mp (hrefuse s hs hk)).1
    · exact h.column s hs
  · intro u hu r hr s hs hc
    obtain ⟨a, ha, rfl⟩ := Table.mem_modify.mp hr
    obtain ⟨b, hb, rfl⟩ := Table.mem_modify.mp hs
    by_cases hka : key a = k <;> by_cases hkb : key b = k
    · rw [Table.eq_of_key_eq ha hb (hka.trans hkb.symm)]
    · rw [if_pos hka, if_neg hkb, hwritten a ha hka b hb hkb u hu] at hc
      cases hc
    · rw [if_neg hka, if_pos hkb, u.symm, hwritten b hb hkb a ha hka u hu] at hc
      cases hc
    · rw [if_neg hka, if_neg hkb] at hc ⊢
      exact h.unique u hu a ha b hb hc

theorem Consistent.remove (h : sc.Consistent t) (p : α → Bool) : sc.Consistent (t.remove p) where
  column := fun r hr => h.column r (Table.mem_remove.mp hr).1
  unique := fun u hu r hr s hs =>
    h.unique u hu r (Table.mem_remove.mp hr).1 s (Table.mem_remove.mp hs).1

/-- A change of the rows that no unique key sees. -/
theorem Consistent.update {f : α → α} {hf : ∀ r, key (f r) = key r} (h : sc.Consistent t)
    (hcolumn : ∀ r ∈ t, sc.column (f r) = none)
    (hcollide : ∀ u ∈ sc.unique, ∀ r s, u.collide (f r) (f s) = u.collide r s) :
    sc.Consistent (t.update f hf) := by
  constructor
  · intro r hr
    obtain ⟨a, ha, rfl⟩ := Table.mem_update.mp hr
    exact hcolumn a ha
  · intro u hu r hr s hs hc
    obtain ⟨a, ha, rfl⟩ := Table.mem_update.mp hr
    obtain ⟨b, hb, rfl⟩ := Table.mem_update.mp hs
    rw [hcollide u hu] at hc
    rw [h.unique u hu a ha b hb hc]

end Schema

end OpsMonitor.Library
