import OpsMonitor.Library.Inventory

/-! Frames: what an operation on a table leaves alone. The rows that it may touch are given by a property; the tables
agree off it. -/

namespace OpsMonitor.Library
open Keyed

namespace Table
variable {α : Type*} [Keyed α] {mine mine' : α → Prop} {t t' t'' : Table α}

/-- The rows outside of `mine` are the same. -/
def AgreeOff (mine : α → Prop) (t t' : Table α) : Prop := ∀ r, ¬mine r → (r ∈ t' ↔ r ∈ t)

namespace AgreeOff

theorem refl (t : Table α) : AgreeOff mine t t := fun _ _ => Iff.rfl

theorem trans (h : AgreeOff mine t t') (h' : AgreeOff mine t' t'') : AgreeOff mine t t'' :=
  fun r hr => (h' r hr).trans (h r hr)

theorem mono (h : AgreeOff mine t t') (hmine : ∀ r, mine r → mine' r) : AgreeOff mine' t t' :=
  fun r hr => h r fun hm => hr (hmine r hm)

theorem insert {a : α} (h : mine (withKey t.next a)) : AgreeOff mine t (t.insert a) := by
  intro r hr
  rw [Table.mem_insert, or_iff_left]
  rintro rfl
  exact hr h

theorem modify {k : ℕ} {f : α → α} (hf : ∀ r, key (f r) = key r) (h : ∀ r ∈ t, key r = k → mine r ∧ mine (f r)) :
    AgreeOff mine t (t.modify k f hf) := by
  intro r hr
  rw [Table.mem_modify]
  constructor
  · rintro ⟨s, hs, hsr⟩
    by_cases hk : key s = k
    · rw [if_pos hk] at hsr
      exact absurd (hsr ▸ (h s hs hk).2) hr
    · rw [if_neg hk] at hsr
      exact hsr ▸ hs
  · intro hmem
    refine ⟨r, hmem, if_neg fun hk => ?_⟩
    exact hr (h r hmem hk).1

theorem remove {p : α → Bool} (h : ∀ r, p r = true → mine r) : AgreeOff mine t (t.remove p) := by
  intro r hr
  rw [Table.mem_remove, and_iff_left]
  exact Bool.eq_false_iff.mpr fun hp => hr (h r hp)

/-- A row that is read before some turns still stands for all rows with its key. -/
theorem mine_of_key (h : AgreeOff mine t t') {r s : α} (hr : r ∈ t) (hmine : mine r) (hs : s ∈ t')
    (hk : key s = key r) : mine s := by
  by_contra hs'
  rw [Table.eq_of_key_eq ((h s hs').mp hs) hr hk] at hs'
  exact hs' hmine

end AgreeOff

/-- The rows stay, and so do the columns that `view` shows. -/
def AgreeOn {β : Type*} (view : α → β) (t t' : Table α) : Prop := t'.rows.map view = t.rows.map view

theorem AgreeOn.modify {β : Type*} {view : α → β} {k : ℕ} {f : α → α} (hf : ∀ r, key (f r) = key r)
    (h : ∀ r, view (f r) = view r) : AgreeOn view t (t.modify k f hf) := by
  show (t.rows.map _).map view = _
  rw [List.map_map]
  refine List.map_congr_left fun r _ => ?_
  show view (if key r = k then f r else r) = view r
  split_ifs
  · exact h r
  · rfl

end Table

/-! ## Guarded writes -/

namespace Schema
variable {α ε : Type*} [Keyed α] {sc : Schema α ε} {mine : α → Prop} {t t' : Table α}

theorem agreeOff_insert {a : α} (h : mine (withKey t.next a)) (hok : sc.insert t a = .ok t') :
    Table.AgreeOff mine t t' := by
  obtain ⟨-, rfl⟩ := insert_eq_ok.mp hok
  exact .insert h

theorem agreeOff_modify {k : ℕ} {f : α → α} {hf : ∀ r, key (f r) = key r}
    (h : ∀ r ∈ t, key r = k → mine r ∧ mine (f r)) (hok : sc.modify t k f hf = .ok t') : Table.AgreeOff mine t t' := by
  obtain ⟨-, rfl⟩ := modify_eq_ok.mp hok
  exact .modify hf h

end Schema

namespace Inventory
universe u
variable {α ρ : Type u} {κ ι : Type*} {ε : Type*} [Keyed α] [DecidableEq ι] {v : Inventory α ρ κ ι ε} {s : ℕ}
  {t t' : Table α}

theorem agreeOff_upsert {i : ρ} (hok : v.upsert s t i = .ok t') : Table.AgreeOff (v.owner · = s) t t' := by
  unfold upsert at hok
  cases hrow : (v.rowsOf s t (v.fold (v.named i))).head? with
  | none =>
    rw [hrow] at hok
    exact Schema.agreeOff_insert (v.owner_fresh _ _ _) hok
  | some r =>
    rw [hrow] at hok
    obtain ⟨hr, howner, -⟩ := mem_rowsOf.mp (List.mem_of_mem_head? hrow)
    refine Schema.agreeOff_modify (fun r' hr' hk => ?_) hok
    rw [Table.eq_of_key_eq hr' hr hk]
    exact ⟨howner, (v.owner_write r i).trans howner⟩

theorem agreeOff_report {report : List ρ} (hok : report.foldlM (v.upsert s) t = .ok t') :
    Table.AgreeOff (v.owner · = s) t t' := by
  induction report generalizing t with
  | nil =>
    obtain rfl := pure_eq_ok.mp hok
    exact .refl t
  | cons i report ih =>
    rw [List.foldlM_cons] at hok
    obtain ⟨d, hfirst, hrest⟩ := bind_eq_ok.mp hok
    exact (agreeOff_upsert hfirst).trans (ih hrest)

omit [DecidableEq ι] in
theorem agreeOff_deleteMissing [DecidableEq κ] {names : List κ} :
    Table.AgreeOff (v.owner · = s) t (v.deleteMissing s t names) :=
  .remove fun _ h => (of_decide_eq_true h).1

end Inventory
end OpsMonitor.Library
