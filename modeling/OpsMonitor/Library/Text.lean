import Mathlib

/-! The operations of Python's `str` that the modelled code relies on. -/

namespace OpsMonitor.Library

/-- Truth value of an optional string: neither `None` nor empty. -/
def truthy : Option String → Bool
  | none => false
  | some s => s ≠ ""

/-- `a or b` on an optional string, with a default that is a string. -/
def orText (a : Option String) (b : String) : String :=
  match a with
  | none => b
  | some s => if s = "" then b else s

/-- `str.lower` as far as a search for ASCII or caseless words can see it. The Kelvin sign and
the dotted capital I are the only letters outside ASCII whose lower case contains an ASCII one. -/
def lowerChar (c : Char) : List Char :=
  if 'A' ≤ c ∧ c ≤ 'Z' then [Char.ofNat (c.toNat + 32)]
  else if c = '\u212A' then ['k']
  else if c = '\u0130' then ['i', '\u0307']
  else [c]

def lower (s : String) : List Char := s.toList.flatMap lowerChar

/-- `str.upper` of an ASCII text. -/
def upper (s : String) : String := .ofList (s.toList.map Char.toUpper)

/-- `word in text`. -/
def occursIn (word : String) (text : List Char) : Bool :=
  text.tails.any fun rest => word.toList.isPrefixOf rest

/-! ## Texts with separators -/

theorem notMem_toString {c : Char} (hc : c.isDigit = false) (n : ℕ) : c ∉ (toString n).toList := by
  intro hmem
  have hdigits : (toString n).toList = Nat.toDigits 10 n := Nat.toList_repr
  rw [hdigits] at hmem
  have hdigit := Nat.isDigit_of_mem_toDigits (by decide) (by decide) hmem
  rw [hdigit] at hc
  cases hc

/-- What stands before the first separator, and the rest, can be read off. -/
theorem append_cons_inj {c : Char} {l r l' r' : List Char} (hl : c ∉ l) (hl' : c ∉ l')
    (h : l ++ c :: r = l' ++ c :: r') : l = l' ∧ r = r' := by
  induction l generalizing l' with
  | nil =>
    cases l' with
    | nil => exact ⟨rfl, (List.cons.inj h).2⟩
    | cons x l' => exact absurd ((List.cons.inj h).1 ▸ List.mem_cons_self) hl'
  | cons x l ih =>
    cases l' with
    | nil => exact absurd ((List.cons.inj h).1 ▸ List.mem_cons_self) hl
    | cons x' l' =>
      obtain ⟨rfl, htail⟩ := List.cons.inj h
      obtain ⟨rfl, hr⟩ := ih (fun hmem => hl (List.mem_cons_of_mem _ hmem))
        (fun hmem => hl' (List.mem_cons_of_mem _ hmem)) htail
      exact ⟨rfl, hr⟩

theorem separated_inj {c : Char} {a b a' b' : String} (ha : c ∉ a.toList) (ha' : c ∉ a'.toList)
    (h : a ++ String.singleton c ++ b = a' ++ String.singleton c ++ b') : a = a' ∧ b = b' := by
  have hlist : a.toList ++ c :: b.toList = a'.toList ++ c :: b'.toList := by
    have htoList := congrArg String.toList h
    simpa using htoList
  obtain ⟨hleft, hright⟩ := append_cons_inj ha ha' hlist
  exact ⟨String.toList_inj.mp hleft, String.toList_inj.mp hright⟩

/-- The same for the last separator. -/
theorem separated_last_inj {c : Char} {a b a' b' : String} (hb : c ∉ b.toList)
    (hb' : c ∉ b'.toList)
    (h : a ++ String.singleton c ++ b = a' ++ String.singleton c ++ b') : a = a' ∧ b = b' := by
  have hlist : b.toList.reverse ++ c :: a.toList.reverse =
      b'.toList.reverse ++ c :: a'.toList.reverse := by
    have hreverse := congrArg (fun s => s.toList.reverse) h
    simpa using hreverse
  obtain ⟨hright, hleft⟩ := append_cons_inj (by simpa using hb) (by simpa using hb') hlist
  exact ⟨String.toList_inj.mp (List.reverse_inj.mp hleft),
    String.toList_inj.mp (List.reverse_inj.mp hright)⟩

theorem toUpper_eq_newline {c : Char} (h : c.toUpper = '\n') : c = '\n' := by
  unfold Char.toUpper at h
  split at h
  · rename_i hc
    have hval := congrArg Char.val h
    dsimp only at hval
    have hshift : 'A'.val - 'a'.val = (4294967264 : UInt32) := by decide
    have hnat := congrArg UInt32.toNat hval
    have hlow : 97 ≤ c.val.toNat := UInt32.le_iff_toNat_le.mp hc.1
    have hhigh : c.val.toNat ≤ 122 := UInt32.le_iff_toNat_le.mp hc.2
    rw [hshift, UInt32.toNat_add] at hnat
    have hten : '\n'.val.toNat = 10 := by decide
    have hmod : (4294967264 : UInt32).toNat = 4294967264 := by decide
    omega
  · exact h

theorem notMem_upper {s : String} (h : '\n' ∉ s.toList) : '\n' ∉ (upper s).toList := by
  rw [upper, String.toList_ofList]
  intro hmem
  obtain ⟨c, hc, hup⟩ := List.mem_map.mp hmem
  exact h (toUpper_eq_newline hup ▸ hc)
/-! ## Numbers -/

/-- The characters below 256 that `int` skips around a number. -/
def isSpace (c : Char) : Bool := c.toNat ∈ [9, 10, 11, 12, 13, 28, 29, 30, 31, 32, 133, 160]

/-- Digits with single underscores between them, after the value read so far. -/
def readDigits : ℕ → Bool → List Char → Option ℕ
  | value, ended, [] => if ended then some value else none
  | value, ended, c :: rest =>
    if c.isDigit then readDigits (10 * value + (c.toNat - '0'.toNat)) true rest
    else if c = '_' ∧ ended then readDigits value false rest
    else none

/-- `int(text)`, where `none` is the `ValueError`. -/
def readInt (text : String) : Option ℤ :=
  match ((text.toList.dropWhile isSpace).reverse.dropWhile isSpace).reverse with
  | '-' :: digits => (readDigits 0 false digits).map fun n => -(n : ℤ)
  | '+' :: digits => (readDigits 0 false digits).map fun n => (n : ℤ)
  | digits => (readDigits 0 false digits).map fun n => (n : ℤ)

example : readInt " 1_700\n" = some 1700 := by decide

theorem readDigits_eq {l : List Char} (hl : ∀ c ∈ l, c.isDigit = true) (value : ℕ) (ended : Bool)
    (hne : l ≠ [] ∨ ended = true) :
    readDigits value ended l = some (Nat.ofDigitChars 10 l value) := by
  induction l generalizing value ended with
  | nil => simp [readDigits, hne.resolve_left (by simp)]
  | cons c l ih =>
    have hc := hl c List.mem_cons_self
    have hrest : ∀ d ∈ l, d.isDigit = true := fun d hd => hl d (List.mem_cons_of_mem _ hd)
    rw [readDigits, if_pos hc, ih hrest _ _ (.inr rfl), Nat.ofDigitChars_cons]

theorem isSpace_of_isDigit {c : Char} (h : c.isDigit = true) : isSpace c = false := by
  have hrange : 48 ≤ c.toNat ∧ c.toNat ≤ 57 := Char.isDigit_iff_toNat.mp h
  have hnotMem : c.toNat ∉ [9, 10, 11, 12, 13, 28, 29, 30, 31, 32, 133, 160] := by
    intro hmem
    simp only [List.mem_cons, List.not_mem_nil, or_false] at hmem
    omega
  exact decide_eq_false hnotMem

theorem dropWhile_isSpace {l : List Char} (hl : ∀ c ∈ l, isSpace c = false) :
    l.dropWhile isSpace = l := by
  cases l with
  | nil => rfl
  | cons c l => simp [List.dropWhile, hl c List.mem_cons_self]

theorem isDigit_of_mem_toString {n : ℕ} {c : Char} (hc : c ∈ (toString n).toList) :
    c.isDigit = true := by
  have hdigits : (toString n).toList = Nat.toDigits 10 n := Nat.toList_repr
  exact Nat.isDigit_of_mem_toDigits (by decide) (by decide) (hdigits ▸ hc)

theorem readDigits_toString (n : ℕ) : readDigits 0 false (toString n).toList = some n := by
  have hdigits : (toString n).toList = Nat.toDigits 10 n := Nat.toList_repr
  have hne : (toString n).toList ≠ [] := by
    rw [hdigits]
    exact Nat.toDigits_ne_nil
  rw [readDigits_eq (fun _ => isDigit_of_mem_toString) _ _ (.inl hne), hdigits,
    Nat.ofDigitChars_ten_toDigits]

/-- Nothing is skipped around a text without spaces. -/
theorem readInt_eq {text : String} (h : ∀ c ∈ text.toList, isSpace c = false) :
    readInt text = match text.toList with
      | '-' :: digits => (readDigits 0 false digits).map fun n => -(n : ℤ)
      | '+' :: digits => (readDigits 0 false digits).map fun n => (n : ℤ)
      | digits => (readDigits 0 false digits).map fun n => (n : ℤ) := by
  unfold readInt
  rw [dropWhile_isSpace h, dropWhile_isSpace fun c hc => h c (List.mem_reverse.mp hc),
    List.reverse_reverse]

theorem readInt_toString_nat (n : ℕ) : readInt (toString n) = some (n : ℤ) := by
  have hdigit : ∀ c ∈ (toString n).toList, c.isDigit = true := fun _ => isDigit_of_mem_toString
  rw [readInt_eq fun c hc => isSpace_of_isDigit (hdigit c hc)]
  split
  · rename_i digits heq
    exact absurd (hdigit '-' (heq ▸ List.mem_cons_self)) (by decide)
  · rename_i digits heq
    exact absurd (hdigit '+' (heq ▸ List.mem_cons_self)) (by decide)
  · rw [readDigits_toString]
    rfl

/-- A number reads back from its decimal form. -/
theorem readInt_toString (z : ℤ) : readInt (toString z) = some z := by
  cases z with
  | ofNat n => exact readInt_toString_nat n
  | negSucc n =>
    have htext : (toString (Int.negSucc n)).toList = '-' :: (toString (n + 1)).toList := by
      have hsign : toString (Int.negSucc n) = "-" ++ toString (n + 1) := rfl
      rw [hsign]
      simp
    have hspace : ∀ c ∈ (toString (Int.negSucc n)).toList, isSpace c = false := by
      intro c hc
      rw [htext] at hc
      rcases List.mem_cons.mp hc with rfl | hc
      · decide
      · exact isSpace_of_isDigit (isDigit_of_mem_toString hc)
    rw [readInt_eq hspace, htext]
    show (readDigits 0 false (toString (n + 1)).toList).map (fun n => -(n : ℤ)) = _
    rw [readDigits_toString]
    rfl

end OpsMonitor.Library
