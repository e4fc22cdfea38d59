import Mathlib

/-! Tables with an auto-increment primary key. The rows are kept in key order and
below the next key, so a lookup by key is membership and an inserted row is new. -/

namespace OpsMonitor.Library

/-- A row type whose primary key is a number that the table assigns. -/
class Keyed (α : Type*) where
  key : α → ℕ
  withKey : ℕ → α → α
  key_withKey : ∀ n a, key (withKey n a) = n

open Keyed

attribute [simp] Keyed.key_withKey

@[ext] structure Table (α : Type*) [Keyed α] where
  rows : List α
  next : ℕ
  sorted : rows.Pairwise fun r s => key r < key s
  below : ∀ r ∈ rows, key r < next

namespace Table

variable {α : Type*} [Keyed α]

instance : Membership α (Table α) := ⟨fun t r => r ∈ t.rows⟩

theorem mem_rows {t : Table α} {r : α} : r ∈ t.rows ↔ r ∈ t := Iff.rfl

instance {t : Table α} {p : α → Prop} [DecidablePred p] : Decidable (∃ r ∈ t, p r) :=
  inferInstanceAs (Decidable (∃ r ∈ t.rows, p r))

instance {t : Table α} {p : α → Prop} [DecidablePred p] : Decidable (∀ r ∈ t, p r) :=
  inferInstanceAs (Decidable (∀ r ∈ t.rows, p r))

theorem key_lt {t : Table α} {r : α} (hr : r ∈ t) : key r < t.next := t.below r hr

theorem nodup_keys (t : Table α) : (t.rows.map key).Nodup :=
  List.pairwise_map.mpr (t.sorted.imp fun hlt => hlt.ne)

theorem eq_of_key_eq {t : Table α} {r s : α} (hr : r ∈ t) (hs : s ∈ t)
    (h : key r = key s) : r = s := List.inj_on_of_nodup_map t.nodup_keys hr hs h

/-! ## Reading -/

def get? (t : Table α) (k : ℕ) : Option α := t.rows.find? fun r => key r == k

def select (t : Table α) (p : α → Bool) : List α := t.rows.filter p

@[simp] theorem mem_select {t : Table α} {p : α → Bool} {r : α} :
    r ∈ t.select p ↔ r ∈ t ∧ p r = true := List.mem_filter

theorem head?_select_eq_none {t : Table α} {p : α → Bool} :
    (t.select p).head? = none ↔ ∀ r ∈ t, p r = false := by
  rw [List.head?_eq_none_iff, select, List.filter_eq_nil_iff]
  simp only [Bool.not_eq_true, mem_rows]

theorem isSome_head?_select {t : Table α} {p : α → Bool} :
    (t.select p).head?.isSome ↔ ∃ r ∈ t, p r = true := by
  rw [← Option.ne_none_iff_isSome, ne_eq, head?_select_eq_none]
  simp

theorem select_sorted (t : Table α) (p : α → Bool) :
    (t.select p).Pairwise fun r s => key r < key s := t.sorted.filter p

theorem nodup_select (t : Table α) (p : α → Bool) : (t.select p).Nodup :=
  (t.select_sorted p).imp fun hlt heq => by
    rw [heq] at hlt
    exact hlt.false

theorem key_mem_select {t : Table α} {p : α → Bool} {r : α} (hr : r ∈ t) :
    key r ∈ (t.select p).map key ↔ p r = true := by
  rw [List.mem_map]
  constructor
  · rintro ⟨s, hs, hk⟩
    obtain ⟨hs, hp⟩ := mem_select.mp hs
    rwa [← eq_of_key_eq hs hr hk]
  · exact fun hp => ⟨r, mem_select.mpr ⟨hr, hp⟩, rfl⟩

theorem get?_eq_some {t : Table α} {k : ℕ} {r : α} : t.get? k = some r ↔ r ∈ t ∧ key r = k := by
  constructor
  · intro h
    exact ⟨List.mem_of_find?_eq_some h, by simpa using List.find?_some h⟩
  · rintro ⟨hr, rfl⟩
    obtain ⟨s, hs⟩ : ∃ s, t.get? (key r) = some s := by
      rw [← Option.isSome_iff_exists, get?, List.find?_isSome]
      exact ⟨r, hr, by simp⟩
    have hk : key s = key r := by simpa using List.find?_some hs
    rw [hs, eq_of_key_eq (List.mem_of_find?_eq_some hs) hr hk]

theorem get?_key {t : Table α} {r : α} (hr : r ∈ t) : t.get? (key r) = some r :=
  get?_eq_some.mpr ⟨hr, rfl⟩

theorem get?_eq_none {t : Table α} {k : ℕ} : t.get? k = none ↔ ∀ r ∈ t, key r ≠ k := by
  simp [get?, List.find?_eq_none, mem_rows]

/-! ## Writing -/

def empty : Table α := ⟨[], 1, List.Pairwise.nil, by simp⟩

@[simp] theorem notMem_empty (r : α) : r ∉ (empty : Table α) := List.not_mem_nil

/-- `INSERT`: the row gets the next key. -/
def insert (t : Table α) (a : α) : Table α where
  rows := t.rows ++ [withKey t.next a]
  next := t.next + 1
  sorted := by
    refine List.pairwise_append.mpr ⟨t.sorted, List.pairwise_singleton _ _, ?_⟩
    intro r hr s hs
    rw [List.mem_singleton.mp hs, key_withKey]
    exact t.below r hr
  below := by
    intro r hr
    rcases List.mem_append.mp hr with hr | hr
    · exact (t.below r hr).trans t.next.lt_succ_self
    · rw [List.mem_singleton.mp hr, key_withKey]
      exact t.next.lt_succ_self

@[simp] theorem mem_insert {t : Table α} {a r : α} :
    r ∈ t.insert a ↔ r ∈ t ∨ r = withKey t.next a := by
  simp [← mem_rows, insert]

@[simp] theorem next_insert (t : Table α) (a : α) : (t.insert a).next = t.next + 1 := rfl

theorem select_insert (t : Table α) (a : α) (p : α → Bool) :
    (t.insert a).select p = t.select p ++ if p (withKey t.next a) then [withKey t.next a] else [] := by
  rw [select, insert, List.filter_append, List.filter_singleton, cond_eq_ite]
  rfl

/-- The rows `as` with the keys they get from `n` on. -/
def keyed : ℕ → List α → List α
  | _, [] => []
  | n, a :: as => withKey n a :: keyed (n + 1) as

theorem exists_of_mem_keyed {n : ℕ} {as : List α} {r : α} (h : r ∈ keyed n as) :
    ∃ a ∈ as, ∃ k, n ≤ k ∧ r = withKey k a := by
  induction as generalizing n with
  | nil => simp [keyed] at h
  | cons a as ih =>
    rcases List.mem_cons.mp h with rfl | h
    · exact ⟨a, List.mem_cons_self, n, le_rfl, rfl⟩
    · obtain ⟨b, hb, k, hk, rfl⟩ := ih h
      exact ⟨b, List.mem_cons_of_mem _ hb, k, Nat.le_of_succ_le hk, rfl⟩

theorem le_key_of_mem_keyed {n : ℕ} {as : List α} {r : α} (h : r ∈ keyed n as) : n ≤ key r := by
  obtain ⟨a, -, k, hk, rfl⟩ := exists_of_mem_keyed h
  rwa [key_withKey]

theorem exists_keyed_of_mem {n : ℕ} {as : List α} {a : α} (h : a ∈ as) :
    ∃ k, withKey k a ∈ keyed n as := by
  induction as generalizing n with
  | nil => simp at h
  | cons b as ih =>
    rcases List.mem_cons.mp h with rfl | h
    · exact ⟨n, List.mem_cons_self⟩
    · obtain ⟨k, hk⟩ := ih (n := n + 1) h
      exact ⟨k, List.mem_cons_of_mem _ hk⟩

theorem keyed_concat (n : ℕ) (as : List α) (a : α) :
    keyed n (as ++ [a]) = keyed n as ++ [withKey (n + as.length) a] := by
  induction as generalizing n with
  | nil => rfl
  | cons b as ih =>
    rw [List.cons_append, keyed, ih, keyed, List.cons_append, List.length_cons, Nat.add_assoc,
      Nat.add_comm 1]

theorem map_keyed {β : Type*} {f : α → β} (hf : ∀ k a, f (withKey k a) = f a) (n : ℕ)
    (as : List α) : (keyed n as).map f = as.map f := by
  induction as generalizing n with
  | nil => rfl
  | cons a as ih => rw [keyed, List.map_cons, hf, ih, List.map_cons]

def insertAll (t : Table α) (as : List α) : Table α := as.foldl insert t

@[simp] theorem insertAll_nil (t : Table α) : t.insertAll [] = t := rfl

@[simp] theorem insertAll_cons (t : Table α) (a : α) (as : List α) :
    t.insertAll (a :: as) = (t.insert a).insertAll as := rfl

@[simp] theorem next_insertAll (t : Table α) (as : List α) :
    (t.insertAll as).next = t.next + as.length := by
  induction as generalizing t with
  | nil => rfl
  | cons a as ih => rw [insertAll_cons, ih, next_insert, List.length_cons]; omega

@[simp] theorem mem_insertAll {t : Table α} {as : List α} {r : α} :
    r ∈ t.insertAll as ↔ r ∈ t ∨ r ∈ keyed t.next as := by
  induction as generalizing t with
  | nil => simp [keyed]
  | cons a as ih => rw [insertAll_cons, ih, mem_insert, next_insert, keyed, List.mem_cons, or_assoc]

/-- Every row changed by `f`, which leaves the keys alone. -/
def update (t : Table α) (f : α → α) (hf : ∀ r, key (f r) = key r := by intro _; rfl) :
    Table α where
  rows := t.rows.map f
  next := t.next
  sorted := List.pairwise_map.mpr (t.sorted.imp fun hlt => by simpa only [hf] using hlt)
  below := by
    intro r hr
    obtain ⟨s, hs, rfl⟩ := List.mem_map.mp hr
    simpa only [hf] using t.below s hs

/-- `UPDATE .. WHERE id = k`. -/
def modify (t : Table α) (k : ℕ) (f : α → α) (hf : ∀ r, key (f r) = key r := by intro _; rfl) :
    Table α :=
  t.update (fun r => if key r = k then f r else r) fun r => by split_ifs <;> simp only [hf]

section Update
variable {t : Table α} {f g : α → α} {hf : ∀ r, key (f r) = key r} {hg : ∀ r, key (g r) = key r}

@[simp] theorem next_update : (t.update f hf).next = t.next := rfl

@[simp] theorem mem_update {r : α} : r ∈ t.update f hf ↔ ∃ s ∈ t, f s = r := List.mem_map

theorem update_congr (h : ∀ r ∈ t, f r = g r) : t.update f hf = t.update g hg :=
  Table.ext (List.map_congr_left h) rfl

theorem update_eq_self (h : ∀ r ∈ t, f r = r) : t.update f hf = t :=
  Table.ext ((List.map_congr_left h).trans (List.map_id' t.rows)) rfl

theorem update_update : (t.update f hf).update g hg =
    t.update (fun r => g (f r)) (fun r => (hg (f r)).trans (hf r)) :=
  Table.ext (by simp [update]) rfl

theorem select_update (p : α → Bool) (h : ∀ r ∈ t, p (f r) = p r) :
    (t.update f hf).select p = (t.select p).map f := by
  simp only [select, update, List.filter_map]
  exact congrArg _ (List.filter_congr h)

end Update

section Modify
variable {t : Table α} {k : ℕ} {f : α → α} {hf : ∀ r, key (f r) = key r}

@[simp] theorem next_modify : (t.modify k f hf).next = t.next := rfl

theorem mem_modify {r : α} :
    r ∈ t.modify k f hf ↔ ∃ s ∈ t, (if key s = k then f s else s) = r := by
  simp only [modify, mem_update]

/-- Two updates of one row are one. -/
theorem modify_modify {g : α → α} {hg : ∀ r, key (g r) = key r} :
    (t.modify k f hf).modify k g hg =
      t.modify k (fun r => g (f r)) fun r => (hg (f r)).trans (hf r) := by
  refine update_update.trans (update_congr fun r _ => ?_)
  by_cases hk : key r = k
  · rw [if_pos hk, if_pos ((hf r).trans hk), if_pos hk]
  · rw [if_neg hk, if_neg hk, if_neg hk]

/-- What an update does to its row is all that counts. -/
theorem modify_congr {g : α → α} {hg : ∀ r, key (g r) = key r} {s : α} (hs : s ∈ t) (hk : key s = k)
    (h : f s = g s) : t.modify k f hf = t.modify k g hg := by
  refine update_congr fun r hr => ?_
  by_cases hrk : key r = k
  · rw [if_pos hrk, if_pos hrk, eq_of_key_eq hr hs (hrk.trans hk.symm), h]
  · rw [if_neg hrk, if_neg hrk]

theorem modify_eq_self {s : α} (hs : s ∈ t) (hk : key s = k) (h : f s = s) : t.modify k f hf = t := by
  refine update_eq_self fun r hr => ?_
  by_cases hrk : key r = k
  · rw [if_pos hrk, eq_of_key_eq hr hs (hrk.trans hk.symm), h]
  · rw [if_neg hrk]

theorem mem_modify_of_mem {s r : α} (hs : s ∈ t) (hk : key s = k) :
    r ∈ t.modify k f hf ↔ r = f s ∨ (r ∈ t ∧ key r ≠ k) := by
  rw [mem_modify]
  constructor
  · rintro ⟨s', hs', rfl⟩
    by_cases h : key s' = k
    · rw [if_pos h, eq_of_key_eq hs' hs (h.trans hk.symm)]
      exact .inl rfl
    · rw [if_neg h]
      exact .inr ⟨hs', h⟩
  · rintro (rfl | ⟨hr, h⟩)
    · exact ⟨s, hs, if_pos hk⟩
    · exact ⟨r, hr, if_neg h⟩

theorem modify_eq_of_notMem (h : ∀ r ∈ t, key r ≠ k) {r : α} : r ∈ t.modify k f hf ↔ r ∈ t := by
  rw [mem_modify]
  constructor
  · rintro ⟨s, hs, rfl⟩
    rwa [if_neg (h s hs)]
  · exact fun hr => ⟨r, hr, if_neg (h r hr)⟩

theorem get?_modify (j : ℕ) :
    (t.modify k f hf).get? j = (t.get? j).map fun r => if j = k then f r else r := by
  cases h : t.get? j with
  | none =>
    rw [get?_eq_none] at h
    rw [Option.map_none, get?_eq_none]
    intro r hr
    obtain ⟨s, hs, rfl⟩ := mem_modify.mp hr
    split_ifs <;> simpa only [hf] using h s hs
  | some r =>
    obtain ⟨hr, rfl⟩ := get?_eq_some.mp h
    rw [Option.map_some, get?_eq_some]
    exact ⟨mem_modify.mpr ⟨r, hr, rfl⟩, by split_ifs <;> simp only [hf]⟩

/-- A loop that changes the rows of a list, each once. -/
theorem foldl_modify {l : List α} (hl : (l.map key).Nodup) :
    l.foldl (fun t a => t.modify (key a) f hf) t =
      t.update (fun r => if key r ∈ l.map key then f r else r)
        fun r => by split_ifs <;> simp only [hf] := by
  induction l generalizing t with
  | nil => exact (update_eq_self (by simp)).symm
  | cons a l ih =>
    obtain ⟨ha, hl⟩ := List.nodup_cons.mp hl
    rw [List.foldl_cons, ih hl, modify, update_update]
    refine update_congr fun r _ => ?_
    by_cases h : key r = key a
    · simp [h, hf, ha]
    · simp [h]

theorem foldl_modify_select (p : α → Bool) :
    (t.select p).foldl (fun t a => t.modify (key a) f hf) t =
      t.update (fun r => if p r then f r else r) fun r => by split_ifs <;> simp only [hf] := by
  have hl : ((t.select p).map key).Nodup := t.nodup_keys.sublist (List.filter_sublist.map key)
  rw [foldl_modify hl]
  refine update_congr fun r hr => ?_
  simp only [key_mem_select hr]

end Modify

/-- `DELETE .. WHERE p`. The next key does not move back. -/
def remove (t : Table α) (p : α → Bool) : Table α where
  rows := t.rows.filter fun r => !p r
  next := t.next
  sorted := t.sorted.filter _
  below := fun r hr => t.below r (List.mem_of_mem_filter hr)

@[simp] theorem mem_remove {t : Table α} {p : α → Bool} {r : α} :
    r ∈ t.remove p ↔ r ∈ t ∧ p r = false := by
  simp [← mem_rows, remove]

@[simp] theorem next_remove (t : Table α) (p : α → Bool) : (t.remove p).next = t.next := rfl

/-- A table is its rows and the next key. -/
theorem eq_of_mem_iff {t t' : Table α} (h : ∀ r, r ∈ t ↔ r ∈ t') (hnext : t.next = t'.next) : t = t' := by
  have hnodup : ∀ d : Table α, d.rows.Nodup := fun d => List.Nodup.of_map key d.nodup_keys
  have hperm : t.rows.Perm t'.rows := (List.perm_ext_iff_of_nodup (hnodup t) (hnodup t')).mpr h
  refine Table.ext (hperm.eq_of_pairwise ?_ t.sorted t'.sorted) hnext
  intro r s _ _ hrs hsr
  exact absurd (hrs.trans hsr) (lt_irrefl _)

end Table
end OpsMonitor.Library
