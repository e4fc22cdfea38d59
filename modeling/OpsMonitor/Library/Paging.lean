import Mathlib

/-! Pages by offset and limit. Each query sorts the rows again, and the rows that the order leaves
tied come in any order. -/

namespace OpsMonitor.Library.Paging
variable {α : Type*}

/-- Page `page`, from 1 on, of an answer. -/
def pageOf (answer : List α) (page pageSize : ℕ) : List α :=
  (answer.drop ((page - 1) * pageSize)).take pageSize

/-- The number of pages. -/
def pageCount (total pageSize : ℕ) : ℕ := (total + pageSize - 1) / pageSize

/-- What a database may answer: the rows in an order that `le` allows. -/
structure Arranged (le : α → α → Prop) (rows answer : List α) : Prop where
  perm : answer.Perm rows
  sorted : answer.Pairwise le

/-- The pages of the answers hold each row once, the later pages nothing. -/
structure Partitions (rows : List α) (pageSize : ℕ) (query : ℕ → ℕ × List α) : Prop where
  total : ∀ page, (query page).1 = rows.length
  partition : ((List.range (pageCount rows.length pageSize)).flatMap fun i => (query (i + 1)).2).Perm rows
  later : ∀ page, pageCount rows.length pageSize < page → (query page).2 = []

section Ties
variable (le : α → α → Prop) [DecidableRel le]

/-- The rows strictly before `x`. -/
def before (rows : List α) (x : α) : ℕ := rows.countP fun y => ¬ le x y

/-- The rows before `x` or tied with it. -/
def upTo (rows : List α) (x : α) : ℕ := rows.countP fun y => le y x

/-- The rows tied with `x` are on both sides of the end of a page. -/
def Straddles (rows : List α) (pageSize : ℕ) (x : α) : Prop :=
  ∃ page, before le rows x < page * pageSize ∧ page * pageSize < upTo le rows x

end Ties

section Orders
variable {le : α → α → Prop} [DecidableRel le] {rows answer : List α} {n b : ℕ} {x : α}

theorem upTo_le_length : upTo le rows x ≤ rows.length := List.countP_le_length

theorem Arranged.before_eq (h : Arranged le rows answer) (x : α) :
    before le answer x = before le rows x := h.perm.countP_eq _

theorem Arranged.upTo_eq (h : Arranged le rows answer) (x : α) :
    upTo le answer x = upTo le rows x := h.perm.countP_eq _

/-- In the first `b` rows, fewer than `b` rows are before one. -/
theorem Arranged.before_lt (hrefl : ∀ a, le a a) (h : Arranged le rows answer) (hx : x ∈ answer.take b) :
    before le rows x < b := by
  have hsorted := h.sorted
  rw [← List.take_append_drop b answer] at hsorted
  have hlater : ∀ y ∈ answer.drop b, le x y := (List.pairwise_append.mp hsorted).2.2 x hx
  have hsplit : before le answer x = (answer.take b).countP (fun y => ¬ le x y) := by
    have hnone : (answer.drop b).countP (fun y => ¬ le x y) = 0 :=
      List.countP_eq_zero.mpr fun y hy => by simpa using hlater y hy
    rw [before]
    conv_lhs => rw [← List.take_append_drop b answer]
    rw [List.countP_append, hnone, Nat.add_zero]
  have hlt : (answer.take b).countP (fun y => ¬ le x y) < (answer.take b).length := by
    refine lt_of_le_of_ne List.countP_le_length fun heq => ?_
    have hall := List.countP_eq_length.mp heq x hx
    simp [hrefl] at hall
  rw [← h.before_eq, hsplit]
  exact hlt.trans_le (List.length_take_le b answer)

/-- After the first `b` rows, more than `b` rows are up to one. -/
theorem Arranged.lt_upTo (hrefl : ∀ a, le a a) (h : Arranged le rows answer) (hx : x ∈ answer.drop b) :
    b < upTo le rows x := by
  have hsorted := h.sorted
  rw [← List.take_append_drop b answer] at hsorted
  have hearlier : ∀ y ∈ answer.take b, le y x :=
    fun y hy => (List.pairwise_append.mp hsorted).2.2 y hy x hx
  have hlength : (answer.take b).length = b := by
    rw [List.length_take, min_eq_left]
    have hpos := List.length_pos_of_mem hx
    rw [List.length_drop] at hpos
    omega
  have hfirst : (answer.take b).countP (fun y => le y x) = b :=
    (List.countP_eq_length.mpr fun y hy => by simpa using hearlier y hy).trans hlength
  have hself : 0 < (answer.drop b).countP (fun y => le y x) :=
    List.countP_pos_iff.mpr ⟨x, hx, by simpa using hrefl x⟩
  rw [← h.upTo_eq, upTo]
  conv_rhs => rw [← List.take_append_drop b answer]
  rw [List.countP_append, hfirst]
  omega

/-- The first `b` rows are the same in every answer, when no tie straddles their end. -/
theorem Arranged.take_perm (hrefl : ∀ a, le a a) (h : Arranged le rows answer)
    (hb : ∀ x ∈ rows, before le rows x < b → upTo le rows x ≤ b) :
    (answer.take b).Perm (rows.filter fun x => upTo le rows x ≤ b) := by
  have htake : (answer.take b).filter (fun x => upTo le rows x ≤ b) = answer.take b := by
    refine List.filter_eq_self.mpr fun x hx => ?_
    have hmem : x ∈ rows := h.perm.mem_iff.mp (List.mem_of_mem_take hx)
    exact decide_eq_true (hb x hmem (h.before_lt hrefl hx))
  have hdrop : (answer.drop b).filter (fun x => upTo le rows x ≤ b) = [] := by
    refine List.filter_eq_nil_iff.mpr fun x hx => ?_
    have hlt := h.lt_upTo hrefl hx
    simpa using hlt
  have hfilter := h.perm.filter fun x => upTo le rows x ≤ b
  rw [← List.take_append_drop b answer, List.filter_append, htake, hdrop, List.append_nil] at hfilter
  exact hfilter

/-! ## Pages without straddling ties -/

theorem filter_upTo_zero (hrefl : ∀ a, le a a) : rows.filter (fun x => upTo le rows x ≤ 0) = [] := by
  refine List.filter_eq_nil_iff.mpr fun x hx => ?_
  have hpos : 0 < upTo le rows x := List.countP_pos_iff.mpr ⟨x, hx, by simpa using hrefl x⟩
  simpa using hpos.ne'

theorem le_pageCount_mul (total : ℕ) (hn : 0 < n) : total ≤ pageCount total n * n := by
  have hdiv := Nat.lt_div_mul_add hn (a := total + n - 1)
  unfold pageCount
  omega

/-- The first pages hold the first rows, whatever order each of them was cut from. -/
theorem flatMap_pages_perm {answers : ℕ → List α} (hrefl : ∀ a, le a a)
    (hanswers : ∀ page, Arranged le rows (answers page))
    (hties : ∀ x ∈ rows, ¬ Straddles le rows n x) (k : ℕ) :
    ((List.range k).flatMap fun i => pageOf (answers (i + 1)) (i + 1) n).Perm
      (rows.filter fun x => upTo le rows x ≤ k * n) := by
  have hbound : ∀ k x, x ∈ rows → before le rows x < k * n → upTo le rows x ≤ k * n :=
    fun k x hx hlt => not_lt.mp fun hover => hties x hx ⟨k, hlt, hover⟩
  induction k with
  | zero =>
    rw [Nat.zero_mul, filter_upTo_zero hrefl]
    exact .refl _
  | succ k ih =>
    have hbefore := (hanswers (k + 1)).take_perm hrefl (hbound k)
    have hnext := (hanswers (k + 1)).take_perm hrefl (hbound (k + 1))
    have hsplit : (answers (k + 1)).take (k * n) ++ pageOf (answers (k + 1)) (k + 1) n =
        (answers (k + 1)).take ((k + 1) * n) := by
      rw [pageOf, Nat.add_sub_cancel, Nat.succ_mul, List.take_add]
    rw [List.range_succ, List.flatMap_append, List.flatMap_singleton]
    refine (ih.append_right _).trans ?_
    refine (hbefore.symm.append_right _).trans ?_
    rw [hsplit]
    exact hnext

/-- The queries that answer from the rows, sorted anew each time. -/
def query (rows : List α) (answers : ℕ → List α) (n page : ℕ) : ℕ × List α :=
  (rows.length, pageOf (answers page) page n)

theorem partitions_of_not_straddles {answers : ℕ → List α} (hrefl : ∀ a, le a a) (hn : 0 < n)
    (hanswers : ∀ page, Arranged le rows (answers page))
    (hties : ∀ x ∈ rows, ¬ Straddles le rows n x) : Partitions rows n (query rows answers n) where
  total _ := rfl
  partition := by
    have hpages := flatMap_pages_perm hrefl hanswers hties (pageCount rows.length n)
    have hall : rows.filter (fun x => upTo le rows x ≤ pageCount rows.length n * n) = rows :=
      List.filter_eq_self.mpr fun x _ =>
        decide_eq_true (upTo_le_length.trans (le_pageCount_mul _ hn))
    rw [hall] at hpages
    exact hpages
  later := by
    intro page hpage
    have hlength := (hanswers page).perm.length_eq
    have hend : rows.length ≤ (page - 1) * n :=
      (le_pageCount_mul _ hn).trans (Nat.mul_le_mul_right n (by omega))
    rw [query, pageOf, List.drop_eq_nil_of_le (by omega), List.take_nil]

/-! ## A tie at the end of a page -/

/-- Around the end of a page that a tie straddles, two rows may be swapped. -/
theorem exists_swap (htotal : ∀ a b, le a b ∨ le b a) (htrans : ∀ a b c, le a b → le b c → le a c)
    (hanswer : Arranged le rows answer) (hbefore : before le rows x < b) (hupTo : b < upTo le rows x) :
    ∃ front a a' rest, answer = front ++ a :: a' :: rest ∧ front.length + 1 = b ∧
      Arranged le rows (front ++ a' :: a :: rest) := by
  have hrefl : ∀ a, le a a := fun a => (htotal a a).elim id id
  have hlength : b < answer.length := by
    rw [hanswer.perm.length_eq]
    exact hupTo.trans_le upTo_le_length
  have htake : (answer.take b).length = b := List.length_take_of_le hlength.le
  have hsorted := hanswer.sorted
  obtain ⟨front, a, hfront⟩ := List.eq_nil_or_concat (answer.take b) |>.resolve_left fun h => by
    rw [h] at htake
    simp at htake
    omega
  obtain ⟨a', rest, hrest⟩ := List.exists_cons_of_ne_nil (l := answer.drop b) fun h => by
    have hnil := List.drop_eq_nil_iff.mp h
    omega
  rw [List.concat_eq_append] at hfront
  have hsplit : answer = front ++ a :: a' :: rest := by
    rw [← List.take_append_drop b answer, hfront, hrest, List.append_assoc, List.singleton_append]
  have hb : front.length + 1 = b := by
    rw [← htake, hfront, List.length_append, List.length_singleton]
  rw [hsplit] at hsorted
  obtain ⟨hfrontSorted, htail, hcross⟩ := List.pairwise_append.mp hsorted
  obtain ⟨haAll, htail⟩ := List.pairwise_cons.mp htail
  obtain ⟨ha'All, hrestSorted⟩ := List.pairwise_cons.mp htail
  -- the row before the end is not before `x`, the row after it is not after `x`
  have hax : le x a := by
    by_contra hnot
    have hall : (front ++ [a]).countP (fun y => ¬ le x y) = (front ++ [a]).length := by
      refine List.countP_eq_length.mpr fun y hy => decide_eq_true fun hxy => hnot ?_
      rcases List.mem_append.mp hy with hy | hy
      · exact htrans _ _ _ hxy (hcross y hy a List.mem_cons_self)
      · rwa [List.mem_singleton.mp hy] at hxy
    have hle : (front ++ [a]).countP (fun y => ¬ le x y) ≤ before le answer x := by
      rw [hsplit, before, List.countP_append, List.countP_append, List.countP_cons (l := a' :: rest)]
      simp only [List.countP_singleton]
      omega
    rw [hanswer.before_eq, hall, List.length_append, List.length_singleton] at hle
    omega
  have ha'x : le a' x := by
    by_contra hnot
    have hnone : (a' :: rest).countP (fun y => le y x) = 0 := by
      refine List.countP_eq_zero.mpr fun y hy hyx => hnot ?_
      rcases List.mem_cons.mp hy with rfl | hy
      · exact of_decide_eq_true hyx
      · exact htrans _ _ _ (ha'All y hy) (of_decide_eq_true hyx)
    have hle : upTo le answer x ≤ b := by
      have hparts : answer = (front ++ [a]) ++ a' :: rest := by
        rw [hsplit, List.append_assoc, List.singleton_append]
      rw [hparts, upTo, List.countP_append, hnone, Nat.add_zero]
      refine List.countP_le_length.trans ?_
      rw [List.length_append, List.length_singleton, hb]
    rw [hanswer.upTo_eq] at hle
    omega
  have hswap : le a' a := htrans _ _ _ ha'x hax
  refine ⟨front, a, a', rest, hsplit, hb, ?_, ?_⟩
  · refine List.Perm.trans ?_ hanswer.perm
    rw [hsplit]
    exact (List.Perm.swap a a' rest).append_left front
  · refine List.pairwise_append.mpr ⟨hfrontSorted, ?_, ?_⟩
    · refine List.pairwise_cons.mpr ⟨?_, List.pairwise_cons.mpr ⟨?_, hrestSorted⟩⟩
      · intro y hy
        rcases List.mem_cons.mp hy with rfl | hy
        · exact hswap
        · exact ha'All y hy
      · exact fun y hy => haAll y (List.mem_cons_of_mem _ hy)
    · intro y hy z hz
      refine hcross y hy z ?_
      rcases List.mem_cons.mp hz with rfl | hz
      · exact List.mem_cons_of_mem _ List.mem_cons_self
      · rcases List.mem_cons.mp hz with rfl | hz
        · exact List.mem_cons_self
        · exact List.mem_cons_of_mem _ (List.mem_cons_of_mem _ hz)

theorem mem_pageOf {i page : ℕ} (hi : answer[i]? = some x) (hlow : (page - 1) * n ≤ i)
    (hhigh : i < (page - 1) * n + n) : x ∈ pageOf answer page n := by
  refine List.mem_of_getElem? (i := i - (page - 1) * n) ?_
  rw [pageOf, List.getElem?_take_of_lt (by omega), List.getElem?_drop, Nat.add_sub_cancel' hlow, hi]

theorem not_straddles_of_partitions (htotal : ∀ a b, le a b ∨ le b a)
    (htrans : ∀ a b c, le a b → le b c → le a c) (hn : 0 < n) (hnodup : rows.Nodup)
    (hall : ∀ answers, (∀ page, Arranged le rows (answers page)) →
      Partitions rows n (query rows answers n)) (x : α) : ¬ Straddles le rows n x := by
  rintro ⟨page, hbefore, hupTo⟩
  have hsort : Arranged le rows (rows.insertionSort le) := by
    have : Std.Total le := ⟨htotal⟩
    have : IsTrans α le := ⟨htrans⟩
    exact ⟨List.perm_insertionSort _ _, List.pairwise_insertionSort _ _⟩
  obtain ⟨front, a, a', rest, hsplit, hfront, hswap⟩ := exists_swap htotal htrans hsort hbefore hupTo
  obtain ⟨k, rfl⟩ : ∃ k, page = k + 1 := ⟨page - 1, by
    rcases page with _ | page
    · rw [Nat.zero_mul] at hbefore
      omega
    · rfl⟩
  rw [Nat.succ_mul] at hfront
  -- the row before the end comes again after it
  have hpartition := hall
    (fun page => if page = k + 1 then rows.insertionSort le else front ++ a' :: a :: rest)
    (fun page => by
      split_ifs
      · exact hsort
      · exact hswap)
  have hpages := hpartition.partition.nodup_iff.mpr hnodup
  have hdisjoint := (List.nodup_flatMap.mp hpages).2
  have hlast : k + 1 < pageCount rows.length n := by
    have hle : upTo le rows x ≤ rows.length := upTo_le_length
    have hcount := le_pageCount_mul rows.length hn
    by_contra hge
    have hmul := Nat.mul_le_mul_right n (not_lt.mp hge)
    omega
  have hpair := List.pairwise_iff_getElem.mp hdisjoint k (k + 1) (by simp; omega) (by simpa using hlast)
    (Nat.lt_succ_self k)
  simp only [List.getElem_range, Function.onFun, query, if_pos,
    Nat.succ_ne_self, if_false] at hpair
  refine hpair (a := a) ?_ ?_
  · refine mem_pageOf (i := front.length) ?_ (by simp; omega) (by simp; omega)
    rw [hsplit]
    simp
  · refine mem_pageOf (i := front.length + 1) ?_ (by rw [Nat.add_sub_cancel, Nat.succ_mul]; omega)
      (by rw [Nat.add_sub_cancel, Nat.succ_mul]; omega)
    simp

/-- The pages partition the rows in every order if and only if no tie straddles the end of a page. -/
theorem partitions_iff (htotal : ∀ a b, le a b ∨ le b a)
    (htrans : ∀ a b c, le a b → le b c → le a c) (hn : 0 < n) (hnodup : rows.Nodup) :
    (∀ answers, (∀ page, Arranged le rows (answers page)) →
      Partitions rows n (query rows answers n)) ↔ ∀ x ∈ rows, ¬ Straddles le rows n x := by
  constructor
  · intro hall x _
    exact not_straddles_of_partitions htotal htrans hn hnodup hall x
  · intro hties answers hanswers
    exact partitions_of_not_straddles (fun a => (htotal a a).elim id id) hn hanswers hties

theorem countP_le_add {p q r : α → Bool} (h : ∀ y, p y → q y ∨ r y) (l : List α) :
    l.countP p ≤ l.countP q + l.countP r := by
  induction l with
  | nil => simp
  | cons y l ih =>
    have hy := h y
    simp only [List.countP_cons]
    by_cases hp : p y = true
    · rcases hy hp with hq | hr
      · rw [if_pos hp, if_pos hq]
        omega
      · rw [if_pos hp, if_pos hr]
        omega
    · rw [if_neg hp]
      omega

/-- An order without ties leaves nothing to straddle. -/
theorem not_straddles_of_antisymm (hnodup : rows.Nodup)
    (hantisymm : ∀ y ∈ rows, le x y → le y x → y = x) : ¬ Straddles le rows n x := by
  rintro ⟨page, hbefore, hupTo⟩
  have htied : rows.countP (fun y => le x y ∧ le y x) ≤ 1 := by
    classical
    refine le_trans (List.countP_mono_left fun y hy htie => ?_) (List.nodup_iff_count_le_one.mp hnodup x)
    have hboth : le x y ∧ le y x := of_decide_eq_true htie
    exact beq_iff_eq.mpr (hantisymm y hy hboth.1 hboth.2)
  have hsum : upTo le rows x ≤ before le rows x + rows.countP (fun y => le x y ∧ le y x) := by
    refine countP_le_add (fun y hyx => ?_) rows
    by_cases hxy : le x y
    · exact .inr (decide_eq_true ⟨hxy, of_decide_eq_true hyx⟩)
    · exact .inl (decide_eq_true hxy)
  omega

end Orders

end OpsMonitor.Library.Paging
