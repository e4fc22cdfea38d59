import OpsMonitor.Library.Loops
import OpsMonitor.Library.Schema

/-! The rows of an owner kept in step with a report. Each reported item is written over the row
that the database takes for it, or inserted; then the rows that are not reported go. The database
compares folded names, the deletion compares the names themselves. -/

namespace OpsMonitor.Library
open Keyed

/-! ## The last value that is not empty -/

section Last
variable {β : Type*} {empty : β → Bool}

/-- An empty new value leaves the old one. -/
def keep (empty : β → Bool) (old new : β) : β := if empty new then old else new

theorem keep_self (b : β) : keep empty b b = b := ite_self b

/-- The last value that is not empty, else the previous one; without either an empty one. -/
def LastReported (empty : β → Bool) (values : List β) (previous : Option β) (actual : β) : Prop :=
  match values.reverse.find? (!empty ·) with
  | some v => actual = v
  | none => previous.elim (empty actual = true) (actual = ·)

theorem foldl_keep (values : List β) (old : β) :
    values.foldl (keep empty) old = (values.reverse.find? (!empty ·)).getD old := by
  induction values generalizing old with
  | nil => rfl
  | cons v values ih =>
    rw [List.foldl_cons, ih, List.reverse_cons, List.find?_append]
    cases hfind : values.reverse.find? (!empty ·) with
    | some w => rfl
    | none =>
      cases hv : empty v with
      | true => simp [keep, hv]
      | false => simp [keep, hv]

theorem foldl_keep_again (values : List β) (old : β) :
    values.foldl (keep empty) (values.foldl (keep empty) old) = values.foldl (keep empty) old := by
  rw [foldl_keep, foldl_keep]
  cases values.reverse.find? (!empty ·) <;> rfl

theorem lastReported_stored (values : List β) (old : β) :
    LastReported empty values (some old) (values.foldl (keep empty) old) := by
  rw [LastReported, foldl_keep]
  cases values.reverse.find? (!empty ·) <;> rfl

theorem lastReported_new (v : β) (values : List β) :
    LastReported empty (v :: values) none ((v :: values).foldl (keep empty) v) := by
  rw [LastReported, foldl_keep]
  cases hfind : (v :: values).reverse.find? (!empty ·) with
  | some w => rfl
  | none =>
    have hv := List.find?_eq_none.mp hfind v (by simp)
    simpa using hv

end Last

/-! ## Names and rows -/

/-- Which rows and items have one name, what the table stores of an item, and the constraints. -/
structure Inventory (α ρ κ ι ε : Type*) [Keyed α] where
  schema : Schema α ε
  owner : α → ℕ
  name : α → κ
  named : ρ → κ
  fold : κ → ι
  fresh : ℕ → ρ → α
  write : α → ρ → α
  fits : ρ → Prop
  key_write : ∀ r i, key (write r i) = key r
  owner_write : ∀ r i, owner (write r i) = owner r
  name_write : ∀ r i, name (write r i) = name r
  owner_fresh : ∀ k s i, owner (withKey k (fresh s i)) = s
  name_fresh : ∀ k s i, name (withKey k (fresh s i)) = named i
  column_fresh : ∀ k s i, schema.column (withKey k (fresh s i)) = none ↔ fits i
  column_write : ∀ r i, schema.column r = none → (schema.column (write r i) = none ↔ fits i)
  collide_write : ∀ u ∈ schema.unique, ∀ r i r', u.collide (write r i) r' = u.collide r r'
  collide_same : ∀ u ∈ schema.unique, ∀ r r', u.collide r r' = true →
    owner r = owner r' ∧ fold (name r) = fold (name r')
  write_fresh : ∀ k s i, write (withKey k (fresh s i)) i = withKey k (fresh s i)
  write_again : ∀ r (items : List ρ), items.foldl write (items.foldl write r) = items.foldl write r

namespace Inventory

universe u
variable {α : Type u} {ρ : Type u} {κ ι : Type*} {ε : Type*} [Keyed α]

/-- What an item makes of the rows with its folded name. -/
def receive (v : Inventory α ρ κ ι ε) (s next : ℕ) (i : ρ) : List α → List α
  | [] => [withKey next (v.fresh s i)]
  | r :: rows => v.write r i :: rows

/-- The rows of a folded name after its items: the first one has taken them all. -/
def Gathered (v : Inventory α ρ κ ι ε) (s : ℕ) (items : List ρ) (before after : List α) : Prop :=
  match before, items with
  | r :: rows, items => after = items.foldl v.write r :: rows
  | [], [] => after = []
  | [], i :: items => ∃ k, after = [(i :: items).foldl v.write (withKey k (v.fresh s i))]

/-- Every folded name belongs to one row of the owner at most. -/
def OneEach (v : Inventory α ρ κ ι ε) (s : ℕ) (t : Table α) : Prop :=
  ∀ r ∈ t, ∀ r' ∈ t, v.owner r = s → v.owner r' = s → v.fold (v.name r) = v.fold (v.name r') → r = r'

/-- What the database takes for a reported name is that name. -/
def Untangled (v : Inventory α ρ κ ι ε) (s : ℕ) (t : Table α) (report : List ρ) : Prop :=
  ∀ i ∈ report, (∀ j ∈ report, v.fold (v.named j) = v.fold (v.named i) → v.named j = v.named i) ∧
    ∀ r ∈ t, v.owner r = s → v.fold (v.name r) = v.fold (v.named i) → v.name r = v.named i

variable {v : Inventory α ρ κ ι ε} {s : ℕ} {t t' : Table α} {c : ι} {i : ρ} {report : List ρ}

theorem refuse_write {r : α} (h : v.schema.Consistent t) (hr : r ∈ t) :
    v.schema.refuse t (v.write r i) = none ↔ v.fits i := by
  rw [Schema.refuse_eq_none, v.column_write r i (h.column r hr), and_iff_left_iff_imp]
  intro _
  rw [Schema.clash_eq_none]
  intro u hu r' hr' hc
  rw [v.collide_write u hu] at hc
  rw [v.key_write, h.unique u hu r hr r' hr' hc]

theorem receive_ne_nil (next : ℕ) (rows : List α) : v.receive s next i rows ≠ [] := by
  cases rows <;> simp [receive]

theorem gathered_nil_iff {before after : List α} : v.Gathered s [] before after ↔ after = before := by
  cases before <;> rfl

/-- An item and those after it. -/
theorem gathered_cons {items : List ρ} {next : ℕ} {before after : List α}
    (h : v.Gathered s items (v.receive s next i before) after) : v.Gathered s (i :: items) before after := by
  cases before with
  | nil =>
    refine ⟨next, ?_⟩
    rw [List.foldl_cons, v.write_fresh]
    exact h
  | cons r rows => exact h

/-- A name belongs to one row after its items, if it did before. -/
theorem Gathered.eq_of_mem {items : List ρ} {before after : List α}
    (h : v.Gathered s items before after) (hbefore : ∀ r ∈ before, ∀ r' ∈ before, r = r')
    (hnodup : before.Nodup) {r r' : α} (hr : r ∈ after) (hr' : r' ∈ after) : r = r' := by
  match before, items, h with
  | a :: rows, items, h =>
    have hrows : rows = [] := by
      by_contra hne
      obtain ⟨b, hb⟩ := List.exists_mem_of_ne_nil rows hne
      rw [hbefore a List.mem_cons_self b (List.mem_cons_of_mem _ hb)] at hnodup
      exact (List.nodup_cons.mp hnodup).1 hb
    rw [h, hrows, List.mem_singleton] at hr hr'
    rw [hr, hr']
  | [], [], h =>
    rw [h] at hr
    cases hr
  | [], i :: items, ⟨k, h⟩ =>
    rw [h, List.mem_singleton] at hr hr'
    rw [hr, hr']

theorem name_foldl (r : α) (items : List ρ) : v.name (items.foldl v.write r) = v.name r := by
  induction items generalizing r with
  | nil => rfl
  | cons i items ih => rw [List.foldl_cons, ih, v.name_write]

/-! ## One item -/

section Upsert
variable [DecidableEq ι]

/-- The rows of the owner with the folded name `c`. -/
def rowsOf (v : Inventory α ρ κ ι ε) (s : ℕ) (t : Table α) (c : ι) : List α := t.select fun r => v.owner r = s ∧ v.fold (v.name r) = c

def upsert (v : Inventory α ρ κ ι ε) (s : ℕ) (t : Table α) (i : ρ) : Except ε (Table α) :=
  match (v.rowsOf s t (v.fold (v.named i))).head? with
  | some r => v.schema.modify t (key r) (fun r => v.write r i) fun r => v.key_write r i
  | none => v.schema.insert t (v.fresh s i)

theorem mem_rowsOf {r : α} : r ∈ v.rowsOf s t c ↔ r ∈ t ∧ v.owner r = s ∧ v.fold (v.name r) = c := by
  rw [rowsOf, Table.mem_select, decide_eq_true_iff]

theorem refuse_fresh (hnone : v.rowsOf s t (v.fold (v.named i)) = []) :
    v.schema.refuse t (withKey t.next (v.fresh s i)) = none ↔ v.fits i := by
  rw [Schema.refuse_eq_none, v.column_fresh, and_iff_left_iff_imp]
  intro _
  rw [Schema.clash_eq_none]
  intro u hu r hr hc
  -- a row that collides would have been found
  obtain ⟨howner, hname⟩ := v.collide_same u hu _ _ hc
  rw [v.owner_fresh] at howner
  rw [v.name_fresh] at hname
  have hfound : r ∈ v.rowsOf s t (v.fold (v.named i)) := mem_rowsOf.mpr ⟨hr, howner.symm, hname.symm⟩
  rw [hnone] at hfound
  cases hfound

theorem upsert_eq_ok (h : v.schema.Consistent t) : (∃ t', v.upsert s t i = .ok t') ↔ v.fits i := by
  unfold upsert
  cases hrows : v.rowsOf s t (v.fold (v.named i)) with
  | nil =>
    rw [← refuse_fresh hrows]
    constructor
    · rintro ⟨t', hok⟩
      exact (Schema.insert_eq_ok.mp hok).1
    · exact fun hrefuse => ⟨_, Schema.insert_eq_ok.mpr ⟨hrefuse, rfl⟩⟩
  | cons r rows =>
    have hr : r ∈ t := (mem_rowsOf.mp (hrows ▸ List.mem_cons_self)).1
    rw [← refuse_write h hr]
    constructor
    · rintro ⟨t', hok⟩
      exact ((Schema.modify_key_eq_ok hr).mp hok).1
    · exact fun hrefuse => ⟨_, (Schema.modify_key_eq_ok hr).mpr ⟨hrefuse, rfl⟩⟩

/-- The table after an item: only the rows with its folded name differ. -/
structure Received (v : Inventory α ρ κ ι ε) (s : ℕ) (i : ρ) (t t' : Table α) : Prop where
  consistent : v.schema.Consistent t'
  rowsOf_self : v.rowsOf s t' (v.fold (v.named i)) = v.receive s t.next i (v.rowsOf s t (v.fold (v.named i)))
  rowsOf_ne : ∀ c, c ≠ v.fold (v.named i) → v.rowsOf s t' c = v.rowsOf s t c
  others : ∀ r, v.owner r ≠ s → (r ∈ t' ↔ r ∈ t)
  next : v.rowsOf s t (v.fold (v.named i)) ≠ [] → t'.next = t.next

theorem rowsOf_insert (c : ι) : v.rowsOf s (t.insert (v.fresh s i)) c =
    v.rowsOf s t c ++ if v.fold (v.named i) = c then [withKey t.next (v.fresh s i)] else [] := by
  rw [rowsOf, Table.select_insert, rowsOf]
  simp only [v.owner_fresh, v.name_fresh, true_and, decide_eq_true_eq]

theorem rowsOf_modify (c : ι) (k : ℕ) : v.rowsOf s (t.modify k (fun r => v.write r i) fun r => v.key_write r i) c =
    (v.rowsOf s t c).map fun r => if key r = k then v.write r i else r := by
  refine Table.select_update _ fun r _ => ?_
  dsimp only
  split_ifs
  · rw [v.owner_write, v.name_write]
  · rfl

theorem upsert_received (h : v.schema.Consistent t) (hok : v.upsert s t i = .ok t') :
    Received v s i t t' := by
  unfold upsert at hok
  cases hrows : v.rowsOf s t (v.fold (v.named i)) with
  | nil =>
    rw [hrows] at hok
    have hinsert := h.insert hok
    obtain ⟨-, rfl⟩ := Schema.insert_eq_ok.mp hok
    refine ⟨hinsert, ?_, ?_, ?_, fun hne => absurd hrows hne⟩
    · rw [rowsOf_insert, hrows, if_pos rfl]
      rfl
    · intro c hc
      rw [rowsOf_insert, if_neg (Ne.symm hc), List.append_nil]
    · intro r hr
      rw [Table.mem_insert, or_iff_left]
      rintro rfl
      exact hr (v.owner_fresh _ _ _)
  | cons r rows =>
    rw [hrows] at hok
    have hmem : r ∈ v.rowsOf s t (v.fold (v.named i)) := hrows ▸ List.mem_cons_self
    obtain ⟨hr, howner, hname⟩ := mem_rowsOf.mp hmem
    have hmodify := h.modify hok
    obtain ⟨-, rfl⟩ := (Schema.modify_key_eq_ok hr).mp hok
    refine ⟨hmodify, ?_, ?_, ?_, fun _ => rfl⟩
    -- the rows after the first have other keys
    · have hsorted := t.select_sorted fun r => v.owner r = s ∧ v.fold (v.name r) = v.fold (v.named i)
      have hsplit := hrows
      rw [rowsOf] at hsplit
      rw [hsplit, List.pairwise_cons] at hsorted
      rw [rowsOf_modify, hrows, List.map_cons, if_pos rfl, receive]
      congr 1
      refine (List.map_congr_left fun r' hr' => ?_).trans (List.map_id rows)
      rw [if_neg (hsorted.1 r' hr').ne', id]
    · intro c hc
      rw [rowsOf_modify]
      refine (List.map_congr_left fun r' hr' => ?_).trans (List.map_id _)
      have hne : key r' ≠ key r := by
        intro hk
        obtain ⟨hr', -, hname'⟩ := mem_rowsOf.mp hr'
        rw [Table.eq_of_key_eq hr' hr hk] at hname'
        exact hc (hname'.symm.trans hname)
      rw [if_neg hne, id]
    · intro r' hr'
      rw [Table.mem_modify_of_mem hr rfl]
      constructor
      · rintro (rfl | hold)
        · exact absurd ((v.owner_write r i).trans howner) hr'
        · exact hold.1
      · intro hold
        refine .inr ⟨hold, fun hk => hr' ?_⟩
        rw [Table.eq_of_key_eq hold hr hk, howner]

/-! ## The items of a report -/

/-- The items of the report with the folded name `c`. -/
def itemsOf (v : Inventory α ρ κ ι ε) (report : List ρ) (c : ι) : List ρ :=
  report.filter fun i => v.fold (v.named i) = c

/-- The table after the items of a report. -/
structure Applied (v : Inventory α ρ κ ι ε) (s : ℕ) (report : List ρ) (t t' : Table α) : Prop where
  consistent : v.schema.Consistent t'
  rowsOf : ∀ c, v.Gathered s (v.itemsOf report c) (v.rowsOf s t c) (v.rowsOf s t' c)
  others : ∀ r, v.owner r ≠ s → (r ∈ t' ↔ r ∈ t)
  next : (∀ i ∈ report, v.rowsOf s t (v.fold (v.named i)) ≠ []) → t'.next = t.next

theorem foldlM_applied (h : v.schema.Consistent t) (hok : report.foldlM (v.upsert s) t = .ok t') :
    Applied v s report t t' := by
  induction report generalizing t with
  | nil =>
    obtain rfl := pure_eq_ok.mp hok
    exact ⟨h, fun _ => gathered_nil_iff.mpr rfl, fun _ _ => Iff.rfl, fun _ => rfl⟩
  | cons i report ih =>
    rw [List.foldlM_cons] at hok
    obtain ⟨d, hfirst, hrest⟩ := bind_eq_ok.mp hok
    have hreceived := upsert_received h hfirst
    have happlied := ih hreceived.consistent hrest
    refine ⟨happlied.consistent, ?_, ?_, ?_⟩
    · intro c
      have hrows := happlied.rowsOf c
      by_cases hc : c = v.fold (v.named i)
      · have hitems : v.itemsOf (i :: report) c = i :: v.itemsOf report c :=
          List.filter_cons_of_pos (by simp [hc])
        rw [hitems]
        rw [hc, hreceived.rowsOf_self, ← hc] at hrows
        exact gathered_cons hrows
      · have hitems : v.itemsOf (i :: report) c = v.itemsOf report c :=
          List.filter_cons_of_neg (by simpa using Ne.symm hc)
        rwa [hitems, ← hreceived.rowsOf_ne c hc]
    · intro r hr
      rw [happlied.others r hr, hreceived.others r hr]
    · intro hfound
      have hkeep : ∀ c, v.rowsOf s t c ≠ [] → v.rowsOf s d c ≠ [] := by
        intro c hne
        by_cases hc : c = v.fold (v.named i)
        · rw [hc, hreceived.rowsOf_self]
          exact receive_ne_nil _ _
        · rwa [hreceived.rowsOf_ne c hc]
      rw [happlied.next fun j hj => hkeep _ (hfound j (List.mem_cons_of_mem _ hj)),
        hreceived.next (hfound i List.mem_cons_self)]

/-- The items are all taken exactly when each fits its columns. -/
theorem foldlM_eq_ok_iff (h : v.schema.Consistent t) :
    (∃ t', report.foldlM (v.upsert s) t = .ok t') ↔ ∀ i ∈ report, v.fits i := by
  induction report generalizing t with
  | nil => simp
  | cons i report ih =>
    rw [List.forall_mem_cons]
    constructor
    · rintro ⟨t', hok⟩
      rw [List.foldlM_cons] at hok
      obtain ⟨d, hfirst, hrest⟩ := bind_eq_ok.mp hok
      exact ⟨(upsert_eq_ok h).mp ⟨d, hfirst⟩, (ih (upsert_received h hfirst).consistent).mp ⟨t', hrest⟩⟩
    · rintro ⟨hfits, hrest⟩
      obtain ⟨d, hfirst⟩ := (upsert_eq_ok (s := s) h).mpr hfits
      obtain ⟨t', hok⟩ := (ih (upsert_received h hfirst).consistent).mpr hrest
      refine ⟨t', ?_⟩
      rw [List.foldlM_cons, hfirst]
      exact hok

theorem OneEach.eq_of_mem (h : OneEach v s t) {r r' : α} (hr : r ∈ v.rowsOf s t c)
    (hr' : r' ∈ v.rowsOf s t c) : r = r' := by
  obtain ⟨hr, howner, hname⟩ := mem_rowsOf.mp hr
  obtain ⟨hr', howner', hname'⟩ := mem_rowsOf.mp hr'
  exact h r hr r' hr' howner howner' (hname.trans hname'.symm)

theorem Applied.oneEach (h : Applied v s report t t') (hone : OneEach v s t) : OneEach v s t' := by
  intro r hr r' hr' howner howner' hname
  refine (h.rowsOf (v.fold (v.name r))).eq_of_mem ?_ (t.nodup_select _) ?_ ?_
  · exact fun a ha b hb => hone.eq_of_mem ha hb
  · exact mem_rowsOf.mpr ⟨hr, howner, rfl⟩
  · exact mem_rowsOf.mpr ⟨hr', howner', hname.symm⟩

theorem Applied.oneEach_other {s' : ℕ} (h : Applied v s report t t') (hne : s' ≠ s)
    (hone : OneEach v s' t) : OneEach v s' t' := by
  intro r hr r' hr' howner howner' hname
  have hkeep : ∀ a, v.owner a = s' → a ∈ t' → a ∈ t := fun a ha hmem =>
    (h.others a (by rwa [ha])).mp hmem
  exact hone r (hkeep r howner hr) r' (hkeep r' howner' hr') howner howner' hname

/-- The row that stands for a reported item before the deletion. -/
theorem Applied.exists_row (h : Applied v s report t t') (hi : i ∈ report) :
    ∃ r ∈ v.rowsOf s t' (v.fold (v.named i)),
      (∃ r₀ ∈ v.rowsOf s t (v.fold (v.named i)),
        r = (v.itemsOf report (v.fold (v.named i))).foldl v.write r₀) ∨
      v.rowsOf s t (v.fold (v.named i)) = [] ∧ ∃ j items k,
        v.itemsOf report (v.fold (v.named i)) = j :: items ∧
        r = (j :: items).foldl v.write (withKey k (v.fresh s j)) := by
  have hrows := h.rowsOf (v.fold (v.named i))
  have hitem : i ∈ v.itemsOf report (v.fold (v.named i)) := List.mem_filter.mpr ⟨hi, decide_eq_true rfl⟩
  cases hbefore : v.rowsOf s t (v.fold (v.named i)) with
  | cons r₀ rows =>
    rw [hbefore] at hrows
    refine ⟨_, hrows ▸ List.mem_cons_self, .inl ⟨r₀, List.mem_cons_self, rfl⟩⟩
  | nil =>
    cases hitems : v.itemsOf report (v.fold (v.named i)) with
    | nil =>
      rw [hitems] at hitem
      cases hitem
    | cons j items =>
      rw [hbefore, hitems] at hrows
      obtain ⟨k, hrows⟩ := hrows
      exact ⟨_, hrows ▸ List.mem_cons_self, .inr ⟨rfl, j, items, k, rfl, rfl⟩⟩

/-- The row of a reported name carries that name. -/
theorem Applied.name_eq (h : Applied v s report t t') (hclean : Untangled v s t report) {i : ρ}
    (hi : i ∈ report) {r : α} (hone : OneEach v s t) (hr : r ∈ v.rowsOf s t' (v.fold (v.named i))) :
    v.name r = v.named i := by
  obtain ⟨r', hr', hbase⟩ := h.exists_row hi
  rw [(h.oneEach hone).eq_of_mem hr hr']
  rcases hbase with ⟨r₀, hr₀, rfl⟩ | ⟨-, j, items, k, hitems, rfl⟩
  · obtain ⟨hmem, howner, hname⟩ := mem_rowsOf.mp hr₀
    rw [name_foldl, (hclean i hi).2 r₀ hmem howner hname]
  · have hj : j ∈ v.itemsOf report (v.fold (v.named i)) := hitems ▸ List.mem_cons_self
    obtain ⟨hj, hfold⟩ := List.mem_filter.mp hj
    rw [name_foldl, v.name_fresh, (hclean i hi).1 j hj (of_decide_eq_true hfold)]

end Upsert

/-! ## The whole report -/

section Sync
variable [DecidableEq κ]

def deleteMissing (v : Inventory α ρ κ ι ε) (s : ℕ) (t : Table α) (names : List κ) : Table α :=
  t.remove fun r => v.owner r = s ∧ v.name r ∉ names

/-- The stored row with exactly this name. -/
def storedAs (v : Inventory α ρ κ ι ε) (s : ℕ) (t : Table α) (k : κ) : Option α :=
  (t.select fun r => v.owner r = s ∧ v.name r = k).head?

/-- The rows are the reported names, one each, and hold what the items with their name say. -/
structure Exact (v : Inventory α ρ κ ι ε) (s : ℕ) (holds : List ρ → Option α → α → Prop)
    (report : List ρ) (t t' : Table α) : Prop where
  names : ∀ k, (∃ r ∈ t', v.owner r = s ∧ v.name r = k) ↔ ∃ i ∈ report, v.named i = k
  one : ∀ r ∈ t', ∀ r' ∈ t', v.owner r = s → v.owner r' = s → v.name r = v.name r' → r = r'
  contents : ∀ r ∈ t', v.owner r = s →
    holds (report.filter fun i => v.named i = v.name r) (v.storedAs s t (v.name r)) r

theorem mem_deleteMissing {names : List κ} {r : α} : r ∈ v.deleteMissing s t names ↔
    r ∈ t ∧ (v.owner r = s → v.name r ∈ names) := by
  rw [deleteMissing, Table.mem_remove, decide_eq_false_iff_not, not_and, not_not]

variable [DecidableEq ι]

def sync (v : Inventory α ρ κ ι ε) (s : ℕ) (t : Table α) (report : List ρ) : Except ε (Table α) := do
  let t ← report.foldlM (v.upsert s) t
  pure (v.deleteMissing s t (report.map v.named))

variable {holds : List ρ → Option α → α → Prop}

theorem sync_eq_ok : v.sync s t report = .ok t' ↔
    ∃ d, report.foldlM (v.upsert s) t = .ok d ∧ t' = v.deleteMissing s d (report.map v.named) := by
  rw [sync, bind_eq_ok]
  refine exists_congr fun d => and_congr_right fun _ => ?_
  rw [pure_eq_ok, eq_comm]

theorem itemsOf_eq (hclean : Untangled v s t report) (hi : i ∈ report) :
    v.itemsOf report (v.fold (v.named i)) = report.filter fun j => v.named j = v.named i := by
  refine List.filter_congr fun j hj => ?_
  rw [decide_eq_decide]
  exact ⟨(hclean i hi).1 j hj, fun h => by rw [h]⟩

theorem storedAs_eq_head? (hclean : Untangled v s t report) (hi : i ∈ report) :
    v.storedAs s t (v.named i) = (v.rowsOf s t (v.fold (v.named i))).head? := by
  have hselect : (t.select fun r => v.owner r = s ∧ v.name r = v.named i) =
      v.rowsOf s t (v.fold (v.named i)) := by
    refine List.filter_congr fun r hr => ?_
    rw [decide_eq_decide]
    refine and_congr_right fun howner => ⟨fun h => by rw [h], (hclean i hi).2 r hr howner⟩
  rw [storedAs, hselect]

/-- Where the names are untangled the report is stored exactly. -/
theorem Applied.exact (h : Applied v s report t t') (hone : OneEach v s t)
    (hclean : Untangled v s t report)
    (hstored : ∀ items r, holds items (some r) (items.foldl v.write r))
    (hnew : ∀ k i items, holds (i :: items) none ((i :: items).foldl v.write (withKey k (v.fresh s i)))) :
    Exact v s holds report t (v.deleteMissing s t' (report.map v.named)) := by
  have hkept : ∀ r ∈ v.deleteMissing s t' (report.map v.named), v.owner r = s →
      ∃ i ∈ report, v.named i = v.name r ∧ r ∈ v.rowsOf s t' (v.fold (v.named i)) := by
    intro r hr howner
    obtain ⟨hr, hname⟩ := mem_deleteMissing.mp hr
    obtain ⟨i, hi, hnamed⟩ := List.mem_map.mp (hname howner)
    exact ⟨i, hi, hnamed, mem_rowsOf.mpr ⟨hr, howner, by rw [hnamed]⟩⟩
  refine ⟨?_, ?_, ?_⟩
  · intro k
    constructor
    · rintro ⟨r, hr, howner, rfl⟩
      obtain ⟨i, hi, hnamed, -⟩ := hkept r hr howner
      exact ⟨i, hi, hnamed⟩
    · rintro ⟨i, hi, rfl⟩
      obtain ⟨r, hr, -⟩ := h.exists_row hi
      have hname := h.name_eq hclean hi hone hr
      obtain ⟨hmem, howner, -⟩ := mem_rowsOf.mp hr
      refine ⟨r, mem_deleteMissing.mpr ⟨hmem, fun _ => ?_⟩, howner, hname⟩
      rw [hname]
      exact List.mem_map_of_mem hi
  · intro r hr r' hr' howner howner' hname
    exact h.oneEach hone r (mem_deleteMissing.mp hr).1 r' (mem_deleteMissing.mp hr').1 howner howner'
      (congrArg v.fold hname)
  · intro r hr howner
    obtain ⟨i, hi, hnamed, hr⟩ := hkept r hr howner
    obtain ⟨r', hr', hbase⟩ := h.exists_row hi
    rw [← hnamed, ← itemsOf_eq hclean hi, storedAs_eq_head? hclean hi,
      (h.oneEach hone).eq_of_mem hr hr']
    rcases hbase with ⟨r₀, hr₀, rfl⟩ | ⟨hnone, j, items, k, hitems, rfl⟩
    · have hhead : (v.rowsOf s t (v.fold (v.named i))).head? = some r₀ := by
        cases hrows : v.rowsOf s t (v.fold (v.named i)) with
        | nil =>
          rw [hrows] at hr₀
          cases hr₀
        | cons a rows =>
          have ha : a ∈ v.rowsOf s t (v.fold (v.named i)) := hrows ▸ List.mem_cons_self
          rw [List.head?_cons, hone.eq_of_mem ha hr₀]
      rw [hhead]
      exact hstored _ _
    · rw [hnone, hitems]
      exact hnew _ _ _

/-- Names that the database takes for each other cannot all be kept. -/
theorem Applied.untangled (h : Applied v s report t t') (hone : OneEach v s t)
    (hexact : Exact v s holds report t (v.deleteMissing s t' (report.map v.named))) :
    Untangled v s t report := by
  intro i hi
  -- every reported name with this folded name has its row, and there is one
  have hrow : ∀ j ∈ report, v.fold (v.named j) = v.fold (v.named i) →
      ∃ r ∈ v.rowsOf s t' (v.fold (v.named i)), v.name r = v.named j := by
    intro j hj hfold
    obtain ⟨r, hr, howner, hname⟩ := (hexact.names (v.named j)).mpr ⟨j, hj, rfl⟩
    exact ⟨r, mem_rowsOf.mpr ⟨(mem_deleteMissing.mp hr).1, howner, by rw [hname, hfold]⟩, hname⟩
  obtain ⟨r, hr, hname⟩ := hrow i hi rfl
  constructor
  · intro j hj hfold
    obtain ⟨r', hr', hname'⟩ := hrow j hj hfold
    rw [← hname', ← hname, (h.oneEach hone).eq_of_mem hr hr']
  · intro r₀ hr₀ howner hfold
    obtain ⟨r', hr', hbase⟩ := h.exists_row hi
    have hmem : r₀ ∈ v.rowsOf s t (v.fold (v.named i)) := mem_rowsOf.mpr ⟨hr₀, howner, hfold⟩
    rcases hbase with ⟨r₁, hr₁, hfolded⟩ | ⟨hnone, -⟩
    · rw [hone.eq_of_mem hmem hr₁, ← hname, (h.oneEach hone).eq_of_mem hr hr', hfolded, name_foldl]
    · rw [hnone] at hmem
      cases hmem

/-- A second run of the same report finds every row as it left it. -/
theorem Applied.again (h : Applied v s report t t') (hone : OneEach v s t)
    (hclean : Untangled v s t report) (hfits : ∀ i ∈ report, v.fits i) :
    v.sync s (v.deleteMissing s t' (report.map v.named)) report =
      .ok (v.deleteMissing s t' (report.map v.named)) := by
  obtain ⟨d, hd⟩ : ∃ d, d = v.deleteMissing s t' (report.map v.named) := ⟨_, rfl⟩
  rw [← hd]
  have hconsistent : v.schema.Consistent d := hd ▸ h.consistent.remove _
  have hmem : ∀ r, r ∈ d ↔ r ∈ t' ∧ (v.owner r = s → v.name r ∈ report.map v.named) := fun r => by
    rw [hd, mem_deleteMissing]
  have hkept : ∀ i ∈ report, ∀ r, r ∈ v.rowsOf s d (v.fold (v.named i)) ↔
      r ∈ v.rowsOf s t' (v.fold (v.named i)) := by
    intro i hi r
    rw [mem_rowsOf, mem_rowsOf, hmem]
    refine ⟨fun hr => ⟨hr.1.1, hr.2⟩, fun hr => ⟨⟨hr.1, fun _ => ?_⟩, hr.2⟩⟩
    rw [h.name_eq hclean hi hone (mem_rowsOf.mpr hr)]
    exact List.mem_map_of_mem hi
  obtain ⟨d', hd'⟩ := (foldlM_eq_ok_iff (s := s) hconsistent).mpr hfits
  have hagain := foldlM_applied hconsistent hd'
  have honed : OneEach v s d := fun r hr r' hr' =>
    h.oneEach hone r ((hmem r).mp hr).1 r' ((hmem r').mp hr').1
  -- the row of a reported name takes its items a second time
  have hreported : ∀ i ∈ report, ∀ r, r ∈ v.rowsOf s d' (v.fold (v.named i)) ↔
      r ∈ v.rowsOf s d (v.fold (v.named i)) := by
    intro i hi r
    obtain ⟨r₁, hr₁, hbase₁⟩ := h.exists_row hi
    obtain ⟨r₂, hr₂, hbase₂⟩ := hagain.exists_row hi
    have hsame : r₂ = r₁ := by
      rcases hbase₂ with ⟨r₀, hr₀, rfl⟩ | ⟨hnone, -⟩
      · rw [(h.oneEach hone).eq_of_mem ((hkept i hi r₀).mp hr₀) hr₁]
        rcases hbase₁ with ⟨b, -, rfl⟩ | ⟨-, j, items, k, hitems, rfl⟩
        · rw [v.write_again]
        · rw [hitems, v.write_again]
      · have hr := (hkept i hi r₁).mpr hr₁
        rw [hnone] at hr
        cases hr
    rw [hkept i hi]
    rw [hsame] at hr₂
    constructor
    · intro hr
      rwa [(hagain.oneEach honed).eq_of_mem hr hr₂]
    · intro hr
      rwa [(h.oneEach hone).eq_of_mem hr hr₁]
  have hsame : d' = d := by
    refine Table.eq_of_mem_iff (fun r => ?_) (hagain.next fun i hi hnone => ?_)
    · by_cases howner : v.owner r = s
      · have hrow : ∀ x : Table α, r ∈ x ↔ r ∈ v.rowsOf s x (v.fold (v.name r)) := fun x => by
          rw [mem_rowsOf, and_iff_left ⟨howner, rfl⟩]
        rw [hrow d', hrow d]
        by_cases hitem : ∃ i ∈ report, v.fold (v.named i) = v.fold (v.name r)
        · obtain ⟨i, hi, hfold⟩ := hitem
          rw [← hfold]
          exact hreported i hi r
        · have hnone : v.itemsOf report (v.fold (v.name r)) = [] :=
            List.filter_eq_nil_iff.mpr fun i hi hfold => hitem ⟨i, hi, of_decide_eq_true hfold⟩
          have hrows := hagain.rowsOf (v.fold (v.name r))
          rw [hnone, gathered_nil_iff] at hrows
          rw [hrows]
      · exact hagain.others r howner
    · obtain ⟨r, hr, -⟩ := h.exists_row hi
      have hr := (hkept i hi r).mpr hr
      rw [hnone] at hr
      cases hr
  refine sync_eq_ok.mpr ⟨d', hd', ?_⟩
  rw [hsame]
  refine Table.eq_of_mem_iff (fun r => ?_) rfl
  rw [mem_deleteMissing, iff_self_and]
  exact fun hr => ((hmem r).mp hr).2

/-- The report is stored exactly, and a second run changes nothing, if and only if every item fits
its columns and no reported name is taken for another one. -/
theorem sync_exact_iff (h : v.schema.Consistent t) (hone : OneEach v s t)
    (hstored : ∀ items r, holds items (some r) (items.foldl v.write r))
    (hnew : ∀ k i items, holds (i :: items) none ((i :: items).foldl v.write (withKey k (v.fresh s i)))) :
    (∃ t', v.sync s t report = .ok t' ∧ Exact v s holds report t t' ∧ v.sync s t' report = .ok t') ↔
      Untangled v s t report ∧ ∀ i ∈ report, v.fits i := by
  constructor
  · rintro ⟨t', hok, hexact, -⟩
    obtain ⟨d, hd, rfl⟩ := sync_eq_ok.mp hok
    exact ⟨(foldlM_applied h hd).untangled hone hexact, (foldlM_eq_ok_iff h).mp ⟨d, hd⟩⟩
  · rintro ⟨hclean, hfits⟩
    obtain ⟨d, hd⟩ := (foldlM_eq_ok_iff (s := s) h).mpr hfits
    have happlied := foldlM_applied h hd
    exact ⟨_, sync_eq_ok.mpr ⟨d, hd, rfl⟩, happlied.exact hone hclean hstored hnew,
      happlied.again hone hclean hfits⟩

/-- A report keeps the constraints and the single rows. -/
theorem sync_keeps (h : v.schema.Consistent t) (hone : ∀ s, OneEach v s t)
    (hok : v.sync s t report = .ok t') : v.schema.Consistent t' ∧ ∀ s, OneEach v s t' := by
  obtain ⟨d, hd, rfl⟩ := sync_eq_ok.mp hok
  have happlied := foldlM_applied h hd
  refine ⟨happlied.consistent.remove _, fun s' r hr r' hr' => ?_⟩
  have hkeep : OneEach v s' d := by
    by_cases hs : s' = s
    · exact hs ▸ happlied.oneEach (hone s)
    · exact happlied.oneEach_other hs (hone s')
  exact hkeep r (mem_deleteMissing.mp hr).1 r' (mem_deleteMissing.mp hr').1

end Sync
end Inventory
end OpsMonitor.Library
