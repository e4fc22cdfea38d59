import Mathlib

/-! Tables with a unique key other than the row number, and the insert that overwrites the row
with the same key. -/

namespace OpsMonitor.Library

class Indexed (α : Type*) (κ : outParam Type*) where
  index : α → κ

export Indexed (index)

structure UniqueTable (α : Type*) {κ : Type*} [Indexed α κ] where
  rows : List α
  nodup : (rows.map index).Nodup

namespace UniqueTable
variable {α κ : Type*} [Indexed α κ] [DecidableEq κ]

def empty : UniqueTable α := ⟨[], List.nodup_nil⟩

def get? (t : UniqueTable α) (k : κ) : Option α := t.rows.find? fun r => index r = k

@[simp] theorem get?_empty (k : κ) : (empty : UniqueTable α).get? k = none := rfl

theorem get?_eq_some {t : UniqueTable α} {k : κ} {r : α} :
    t.get? k = some r ↔ r ∈ t.rows ∧ index r = k := by
  constructor
  · intro h
    exact ⟨List.mem_of_find?_eq_some h, by simpa using List.find?_some h⟩
  · rintro ⟨hr, rfl⟩
    obtain ⟨s, hs⟩ : ∃ s, t.get? (index r) = some s := by
      rw [← Option.isSome_iff_exists, get?, List.find?_isSome]
      exact ⟨r, hr, decide_eq_true rfl⟩
    have hkey : index s = index r := by simpa using List.find?_some hs
    rw [hs, List.inj_on_of_nodup_map t.nodup (List.mem_of_find?_eq_some hs) hr hkey]

theorem get?_eq_none {t : UniqueTable α} {k : κ} : t.get? k = none ↔ ∀ r ∈ t.rows, index r ≠ k := by
  simp [get?, List.find?_eq_none]

theorem index_of_get? {t : UniqueTable α} {k : κ} {r : α} (h : t.get? k = some r) : index r = k :=
  (get?_eq_some.mp h).2

/-- `INSERT ... ON DUPLICATE KEY UPDATE` of every column. -/
def upsert (t : UniqueTable α) (r : α) : UniqueTable α where
  rows := t.rows.filter (fun s => index s ≠ index r) ++ [r]
  nodup := by
    rw [List.map_append, List.nodup_append]
    refine ⟨(List.filter_sublist.map index).nodup t.nodup, List.nodup_singleton _, ?_⟩
    intro k hk k' hk'
    obtain ⟨s, hs, rfl⟩ := List.mem_map.mp hk
    rw [List.map_singleton, List.mem_singleton] at hk'
    rw [hk']
    exact of_decide_eq_true (List.mem_filter.mp hs).2

theorem get?_upsert (t : UniqueTable α) (r : α) (k : κ) :
    (t.upsert r).get? k = if index r = k then some r else t.get? k := by
  split_ifs with hk
  · exact get?_eq_some.mpr ⟨by simp [upsert], hk⟩
  · cases hget : t.get? k with
    | none =>
      refine get?_eq_none.mpr fun s hs => ?_
      rcases List.mem_append.mp hs with hs | hs
      · exact get?_eq_none.mp hget s (List.mem_of_mem_filter hs)
      · rwa [List.mem_singleton.mp hs]
    | some s =>
      obtain ⟨hs, rfl⟩ := get?_eq_some.mp hget
      refine get?_eq_some.mpr ⟨List.mem_append_left _ (List.mem_filter.mpr ⟨hs, ?_⟩), rfl⟩
      exact decide_eq_true fun heq => hk heq.symm

/-- `DELETE` of the rows that meet `p`. -/
def remove (t : UniqueTable α) (p : α → Bool) : UniqueTable α :=
  ⟨t.rows.filter (!p ·), (List.filter_sublist.map index).nodup t.nodup⟩

theorem get?_remove (t : UniqueTable α) (p : α → Bool) (k : κ) :
    (t.remove p).get? k = (t.get? k).filter (!p ·) := by
  cases hget : t.get? k with
  | none => exact get?_eq_none.mpr fun s hs => get?_eq_none.mp hget s (List.mem_of_mem_filter hs)
  | some s =>
    obtain ⟨hs, hkey⟩ := get?_eq_some.mp hget
    cases hp : p s with
    | false =>
      have hkept : s ∈ (t.remove p).rows := List.mem_filter.mpr ⟨hs, by rw [hp]; rfl⟩
      simp only [Option.filter_some, hp, Bool.not_false, if_true]
      exact get?_eq_some.mpr ⟨hkept, hkey⟩
    | true =>
      simp only [Option.filter_some, hp, Bool.not_true, Bool.false_eq_true, if_false]
      refine get?_eq_none.mpr fun r hr heq => ?_
      obtain ⟨hr, hkeep⟩ := List.mem_filter.mp hr
      rw [List.inj_on_of_nodup_map t.nodup hr hs (heq.trans hkey.symm), hp] at hkeep
      cases hkeep

end UniqueTable
end OpsMonitor.Library
