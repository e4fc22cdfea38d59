import OpsMonitor.Library.Runs
import OpsMonitor.Library.Table

/-! Transactions on a shared state in two steps: a transaction computes on the snapshot it
reads, and what it changed there is written at its commit, over whatever was committed in
between. -/

namespace OpsMonitor.Library

/-- The lists that merge two lists and keep the order of each. -/
inductive Shuffle {α : Type*} : List α → List α → List α → Prop
  | nil : Shuffle [] [] []
  | left {a : α} {l m n : List α} (h : Shuffle l m n) : Shuffle (a :: l) m (a :: n)
  | right {a : α} {l m n : List α} (h : Shuffle l m n) : Shuffle l (a :: m) (a :: n)

namespace Shuffle
variable {α : Type*} {a : α} {l m n : List α}

theorem eq_of_nil_left (h : Shuffle [] m n) : n = m := by
  induction m generalizing n with
  | nil => cases h; rfl
  | cons a m ih =>
    cases h with
    | right h => rw [ih h]

theorem eq_of_nil_right (h : Shuffle l [] n) : n = l := by
  induction l generalizing n with
  | nil => cases h; rfl
  | cons a l ih =>
    cases h with
    | left h => rw [ih h]

end Shuffle

inductive Phase (ι : Type*)
  | read (i : ι)
  | commit (i : ι)
  deriving DecidableEq

section Schedules
variable {ι : Type*}

/-- The orders in which the steps of two transactions can happen. -/
def Interleaving (i j : ι) (l : List (Phase ι)) : Prop :=
  Shuffle [.read i, .commit i] [.read j, .commit j] l

/-- `j` reads what `i` committed. -/
def Follows (i j : ι) (l : List (Phase ι)) : Prop :=
  l = [.read i, .commit i, .read j, .commit j]

/-- Both read before any commit, and `i` commits first. -/
def Overlaps (i j : ι) (l : List (Phase ι)) : Prop :=
  l = [.read i, .read j, .commit i, .commit j] ∨ l = [.read j, .read i, .commit i, .commit j]

def Serial (i j : ι) (l : List (Phase ι)) : Prop := Follows i j l ∨ Follows j i l

theorem interleaving_cases {i j : ι} {l : List (Phase ι)} (h : Interleaving i j l) :
    Serial i j l ∨ Overlaps i j l ∨ Overlaps j i l := by
  cases h with
  | left h =>
    cases h with
    | left h => exact .inl (.inl (by rw [h.eq_of_nil_left]; rfl))
    | right h =>
      cases h with
      | left h => exact .inr (.inl (.inl (by rw [h.eq_of_nil_left])))
      | right h => exact .inr (.inr (.inr (by rw [h.eq_of_nil_right])))
  | right h =>
    cases h with
    | left h =>
      cases h with
      | left h => exact .inr (.inl (.inr (by rw [h.eq_of_nil_left])))
      | right h => exact .inr (.inr (.inl (by rw [h.eq_of_nil_right])))
    | right h => exact .inl (.inr (by rw [h.eq_of_nil_right]; rfl))

theorem Serial.not_overlaps {i j a b : ι} {l : List (Phase ι)} (h : Serial i j l) :
    ¬ Overlaps a b l := by
  rintro (rfl | rfl) <;> rcases h with h | h <;> simp [Follows] at h

theorem Overlaps.not_serial {i j a b : ι} {l : List (Phase ι)} (h : Overlaps a b l) :
    ¬ Serial i j l := fun hs => hs.not_overlaps h

theorem Overlaps.commits {i j : ι} {l : List (Phase ι)} (h : Overlaps i j l) :
    l.drop 2 = [.commit i, .commit j] := by
  rcases h with rfl | rfl <;> rfl

theorem Overlaps.unique {i j a b : ι} {l : List (Phase ι)} (h : Overlaps i j l)
    (h' : Overlaps a b l) : a = i ∧ b = j := by
  have heq := h'.commits.symm.trans h.commits
  simpa using heq

end Schedules

/-- A family of transactions. `body i` is what the transaction `i` makes of its snapshot and
what it answers, `none` when it raises. `write base new cur` brings the changes from `base` to
`new` into `cur`, `none` when the store refuses them. -/
structure Transactions (ι σ ρ : Type*) where
  body : ι → σ → Option (σ × ρ)
  write : σ → σ → σ → Option σ

structure World (ι σ ρ : Type*) where
  shared : σ
  snapshot : ι → Option σ
  reply : ι → Option ρ

def World.start {ι σ ρ : Type*} (s : σ) : World ι σ ρ := ⟨s, fun _ => none, fun _ => none⟩

namespace Transactions
variable {ι σ ρ : Type*} (T : Transactions ι σ ρ)

/-- The commit of a transaction that read `base`, on the shared state `cur`. -/
def outcome (i : ι) (base cur : σ) : Option (σ × ρ) :=
  (T.body i base).bind fun p => (T.write base p.1 cur).map fun s => (s, p.2)

/-- The shared state after the commit; a transaction that raises or is refused is rolled back. -/
def result (i : ι) (base cur : σ) : σ := ((T.outcome i base cur).map Prod.fst).getD cur

def answer (i : ι) (base cur : σ) : Option ρ := (T.outcome i base cur).map Prod.snd

section
variable {T} {i : ι} {base new cur s : σ} {r : ρ}

theorem result_of_raised (h : T.body i base = none) : T.result i base cur = cur := by
  simp [result, outcome, h]

theorem result_of_refused (h : T.body i base = some (new, r)) (hw : T.write base new cur = none) :
    T.result i base cur = cur := by
  simp [result, outcome, h, hw]

theorem result_of_written (h : T.body i base = some (new, r))
    (hw : T.write base new cur = some s) : T.result i base cur = s := by
  simp [result, outcome, h, hw]

end

variable [DecidableEq ι]

def step (w : World ι σ ρ) : Phase ι → World ι σ ρ
  | .read i => { w with snapshot := Function.update w.snapshot i (some w.shared) }
  | .commit i =>
    match w.snapshot i with
    | none => w
    | some base =>
      { w with
        shared := T.result i base w.shared
        reply := Function.update w.reply i (T.answer i base w.shared) }

def play (s : σ) (l : List (Phase ι)) : World ι σ ρ := run T.step (.start s) l

/-- Every step of the schedule takes the shared state to one that `R` relates to it. -/
def Keeps (R : σ → σ → Prop) (s : σ) (l : List (Phase ι)) : Prop :=
  Along (fun pre a => R (T.play s pre).shared (T.play s (pre ++ [a])).shared) l

variable {T} {i j : ι} {s : σ} {l : List (Phase ι)}

theorem replies_of_follows (h : Follows i j l) (hne : i ≠ j) :
    (T.play s l).reply i = T.answer i s s ∧
      (T.play s l).reply j = T.answer j (T.result i s s) (T.result i s s) := by
  subst h
  simp [play, run, step, World.start, hne]

theorem replies_of_overlaps (h : Overlaps i j l) (hne : i ≠ j) :
    (T.play s l).reply i = T.answer i s s ∧
      (T.play s l).reply j = T.answer j s (T.result i s s) := by
  rcases h with rfl | rfl <;> simp [play, run, step, World.start, hne, hne.symm]

theorem shared_of_follows (h : Follows i j l) (hne : i ≠ j) :
    (T.play s l).shared = T.result j (T.result i s s) (T.result i s s) := by
  subst h
  simp [play, run, step, World.start, hne]

section Keeps
variable {R : σ → σ → Prop} (hrefl : ∀ s, R s s)
include hrefl

theorem keeps_of_follows (h : Follows i j l) :
    T.Keeps R s l ↔ R s (T.result i s s) ∧
      R (T.result i s s) (T.result j (T.result i s s) (T.result i s s)) := by
  subst h
  simp [Keeps, along_cons, play, run, step, World.start, hrefl]

theorem keeps_of_overlaps (h : Overlaps i j l) (hne : i ≠ j) :
    T.Keeps R s l ↔ R s (T.result i s s) ∧
      R (T.result i s s) (T.result j s (T.result i s s)) := by
  rcases h with rfl | rfl
  · simp [Keeps, along_cons, play, run, step, World.start, hne, hrefl]
  · simp [Keeps, along_cons, play, run, step, World.start, hne.symm, hrefl]

/-- Only the second commit of two overlapping transactions can break what every commit on its
own snapshot keeps. -/
theorem keeps_iff (hown : ∀ k s, R s (T.result k s s)) (hne : i ≠ j) (hl : Interleaving i j l) :
    T.Keeps R s l ↔
      ∀ a b, Overlaps a b l → R (T.result a s s) (T.result b s (T.result a s s)) := by
  have hserial : ∀ a b, Follows a b l → T.Keeps R s l := fun a b h =>
    (keeps_of_follows hrefl h).mpr ⟨hown a s, hown b _⟩
  have hover : ∀ a b, a ≠ b → Overlaps a b l → (T.Keeps R s l ↔
      ∀ c d, Overlaps c d l → R (T.result c s s) (T.result d s (T.result c s s))) := by
    intro a b hab h
    rw [keeps_of_overlaps hrefl h hab, and_iff_right (hown a s)]
    constructor
    · intro hR c d hcd
      obtain ⟨rfl, rfl⟩ := h.unique hcd
      exact hR
    · exact fun hall => hall a b h
  rcases interleaving_cases hl with h | h | h
  · exact iff_of_true (h.elim (hserial i j) (hserial j i)) fun a b hab => absurd hab h.not_overlaps
  · exact hover i j hne h
  · exact hover j i hne.symm h

end Keeps

end Transactions

/-! ## Writing back the changed columns -/

/-- A column that the transaction did not change is not written. -/
def mergeColumn {α : Type*} [DecidableEq α] (base new cur : α) : α :=
  if new = base then cur else new

section Merge
variable {α : Type*} [DecidableEq α] {base new cur : α}

@[simp] theorem mergeColumn_self : mergeColumn base new base = new := by
  unfold mergeColumn
  split_ifs with h
  · exact h.symm
  · rfl

theorem mergeColumn_eq_cur : mergeColumn base new cur = cur ↔ new = base ∨ new = cur := by
  unfold mergeColumn
  split_ifs with h
  · simp [h]
  · simp [h]

end Merge

namespace Table
variable {α : Type*} [Keyed α]

/-- The rows that `new` has beyond those of `base`. -/
def inserted (base new : Table α) : List α := new.select fun r => base.next ≤ Keyed.key r

theorem mem_inserted {base new : Table α} {r : α} :
    r ∈ inserted base new ↔ r ∈ new ∧ base.next ≤ Keyed.key r := by
  simp [inserted]

/-- The rows of `cur` with the changes from `base` to `new`, then the rows that `new` adds,
which are numbered when they are written. -/
def merge (m : α → α → α → α) (hm : ∀ b n c, Keyed.key (m b n c) = Keyed.key c)
    (base new cur : Table α) : Table α :=
  (cur.update (fun c =>
    match base.get? (Keyed.key c), new.get? (Keyed.key c) with
    | some b, some n => m b n c
    | _, _ => c) (by intro c; split <;> simp only [hm])).insertAll (inserted base new)

section
variable {m : α → α → α → α} {hm : ∀ b n c, Keyed.key (m b n c) = Keyed.key c}
  {base new cur : Table α}

theorem merge_mem {b n c : α} (hb : b ∈ base) (hn : n ∈ new) (hc : c ∈ cur)
    (hbc : Keyed.key b = Keyed.key c) (hnc : Keyed.key n = Keyed.key c) :
    m b n c ∈ merge m hm base new cur := by
  refine mem_insertAll.mpr (.inl (mem_update.mpr ⟨c, hc, ?_⟩))
  have hbase : base.get? (Keyed.key c) = some b := get?_eq_some.mpr ⟨hb, hbc⟩
  have hnew : new.get? (Keyed.key c) = some n := get?_eq_some.mpr ⟨hn, hnc⟩
  simp only [hbase, hnew]

/-- A row with a number of `cur` comes from `cur`, and one without a counterpart in `base`
stays as it was there. -/
theorem of_mem_merge {r : α} (hr : r ∈ merge m hm base new cur) (hlt : Keyed.key r < cur.next) :
    ∃ c ∈ cur, Keyed.key c = Keyed.key r ∧
      (r = c ∨ ∃ b ∈ base, ∃ n ∈ new, Keyed.key b = Keyed.key c ∧ Keyed.key n = Keyed.key c ∧
        r = m b n c) := by
  rcases mem_insertAll.mp hr with hr | hr
  · obtain ⟨c, hc, rfl⟩ := mem_update.mp hr
    refine ⟨c, hc, ?_, ?_⟩
    · split <;> simp only [hm]
    · split
      · rename_i b n hb hn
        obtain ⟨hb, hbk⟩ := get?_eq_some.mp hb
        obtain ⟨hn, hnk⟩ := get?_eq_some.mp hn
        exact .inr ⟨b, hb, n, hn, hbk, hnk, rfl⟩
      · exact .inl rfl
  · have hle := le_key_of_mem_keyed hr
    simp only [next_update] at hle
    omega

theorem of_mem_merge_new {r : α} (hr : r ∈ merge m hm base new cur)
    (hle : cur.next ≤ Keyed.key r) : ∃ a ∈ inserted base new, ∃ k, r = Keyed.withKey k a := by
  rcases mem_insertAll.mp hr with hr | hr
  · obtain ⟨c, hc, rfl⟩ := mem_update.mp hr
    have hkey : Keyed.key c < cur.next := key_lt hc
    split at hle
    · rw [hm] at hle
      omega
    · omega
  · obtain ⟨a, ha, k, -, rfl⟩ := exists_of_mem_keyed hr
    exact ⟨a, ha, k, rfl⟩

theorem exists_mem_merge {a : α} (ha : a ∈ inserted base new) :
    ∃ k, Keyed.withKey k a ∈ merge m hm base new cur := by
  obtain ⟨k, hk⟩ := exists_keyed_of_mem ha
  exact ⟨k, mem_insertAll.mpr (.inr hk)⟩

end

end Table
end OpsMonitor.Library
