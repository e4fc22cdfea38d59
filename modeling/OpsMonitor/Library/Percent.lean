import OpsMonitor.Library.Utf8

/-! Percent-decoding (`urllib.parse.unquote`), and the texts that it leaves as they are. -/

namespace OpsMonitor.Library.Percent
open Base64 (Bytes)

def hexValue (c : Char) : Option ℕ :=
  if '0' ≤ c ∧ c ≤ '9' then some (c.toNat - 48)
  else if 'a' ≤ c ∧ c ≤ 'f' then some (c.toNat - 87)
  else if 'A' ≤ c ∧ c ≤ 'F' then some (c.toNat - 55)
  else none

def isEscape (c a b : Char) : Bool := c = '%' && (hexValue a).isSome && (hexValue b).isSome

def asciiByte (c : Char) : UInt8 := UInt8.ofNat c.toNat

/-- `unquote_to_bytes` of an ASCII text. -/
def unquoteBytes : List Char → Bytes
  | c :: a :: b :: rest =>
    if isEscape c a b then UInt8.ofNat (16 * (hexValue a).getD 0 + (hexValue b).getD 0) :: unquoteBytes rest
    else asciiByte c :: unquoteBytes (a :: b :: rest)
  | l => l.map asciiByte

/-- Whether the byte `b` can be the second of a character that starts with the byte `a`. -/
def canFollow (a b : ℕ) : Bool :=
  if a = 0xE0 then 0xA0 ≤ b && b ≤ 0xBF
  else if a = 0xED then 0x80 ≤ b && b ≤ 0x9F
  else if a = 0xF0 then 0x90 ≤ b && b ≤ 0xBF
  else if a = 0xF4 then 0x80 ≤ b && b ≤ 0x8F
  else 0xE1 ≤ a && a ≤ 0xF3 && 0x80 ≤ b && b ≤ 0xBF

/-- How many bytes after `a`, which starts no whole character, are replaced together with it. -/
def brokenTail (a : UInt8) : Bytes → ℕ
  | [] => 0
  | b :: rest =>
    if canFollow a.toNat b.toNat then
      if 0xF0 ≤ a.toNat ∧ rest.head?.any (·.toNat / 64 = 2) then 2 else 1
    else 0

/-- `decode("utf-8", "replace")` after the first `skip` bytes. -/
def decodeReplace : ℕ → Bytes → List Char
  | _, [] => []
  | skip + 1, _ :: rest => decodeReplace skip rest
  | 0, a :: rest =>
    match Utf8.readChar a rest with
    | some (c, n) => c :: decodeReplace n rest
    | none => '\uFFFD' :: decodeReplace (brokenTail a rest) rest

/-- The characters of a text whose ASCII parts are decoded one by one, `run` being the part read so far. -/
def unquoteRun : List Char → List Char → List Char
  | run, [] => decodeReplace 0 (unquoteBytes run)
  | run, c :: rest =>
    if c.toNat < 128 then unquoteRun (run ++ [c]) rest
    else decodeReplace 0 (unquoteBytes run) ++ c :: unquoteRun [] rest

/-- `unquote`. -/
def unquote (s : String) : String := if '%' ∈ s.toList then .ofList (unquoteRun [] s.toList) else s

example : unquote "a%20b%E4%B8%AD%zz%FF" = "a b中%zz\uFFFD" := by decide +kernel

/-! ## Texts without escapes -/

def hasEscape : List Char → Bool
  | c :: a :: b :: rest => isEscape c a b || hasEscape (a :: b :: rest)
  | _ => false

section
variable {run s : List Char} {c : Char}

theorem unquoteBytes_cons (c : Char) (l : List Char) (h : hasEscape (c :: l) = false) :
    unquoteBytes (c :: l) = asciiByte c :: unquoteBytes l ∧ hasEscape l = false := by
  match l with
  | [] => exact ⟨rfl, rfl⟩
  | [a] => exact ⟨rfl, rfl⟩
  | a :: b :: rest =>
    rw [hasEscape, Bool.or_eq_false_iff] at h
    rw [unquoteBytes, h.1, if_neg Bool.false_ne_true]
    exact ⟨rfl, h.2⟩

theorem unquoteBytes_eq_map (h : hasEscape run = false) : unquoteBytes run = run.map asciiByte := by
  induction run with
  | nil => rfl
  | cons c l ih =>
    obtain ⟨hcons, hrest⟩ := unquoteBytes_cons c l h
    rw [hcons, ih hrest]
    rfl

/-- Decoding makes a text with an escape shorter, and no text longer. -/
theorem length_unquoteBytes (l : List Char) :
    (unquoteBytes l).length ≤ l.length ∧ (hasEscape l = true → (unquoteBytes l).length < l.length) := by
  induction l using unquoteBytes.induct with
  | case1 c a b rest hescape ih =>
    rw [unquoteBytes, if_pos hescape]
    simp only [List.length_cons]
    exact ⟨by omega, fun _ => by omega⟩
  | case2 c a b rest hescape ih =>
    rw [unquoteBytes, if_neg hescape, hasEscape, Bool.eq_false_iff.mpr hescape, Bool.false_or]
    simp only [List.length_cons] at ih ⊢
    exact ⟨by omega, fun h => Nat.succ_lt_succ (ih.2 h)⟩
  | case3 l hother =>
    have hfalse : hasEscape l = false := by
      unfold hasEscape
      split
      · exact absurd rfl (hother _ _ _ _)
      · rfl
    rw [unquoteBytes_eq_map hfalse, List.length_map, hfalse]
    exact ⟨le_refl _, fun h => by cases h⟩

theorem length_decodeReplace (skip : ℕ) (bytes : Bytes) : (decodeReplace skip bytes).length ≤ bytes.length := by
  induction bytes generalizing skip with
  | nil => simp [decodeReplace]
  | cons a rest ih =>
    cases skip with
    | succ skip =>
      rw [decodeReplace, List.length_cons]
      exact (ih skip).trans (Nat.le_succ _)
    | zero =>
      rw [decodeReplace]
      split
      · exact Nat.succ_le_succ (ih _)
      · exact Nat.succ_le_succ (ih _)

theorem readChar_asciiByte (h : c.toNat < 128) (rest : Bytes) : Utf8.readChar (asciiByte c) rest = some (c, 0) := by
  have hbyte : (asciiByte c).toNat = c.toNat := by
    rw [asciiByte, UInt8.toNat_ofNat']
    exact Nat.mod_eq_of_lt (by omega)
  have hvalid : c.toNat.isValidChar := c.valid
  rw [Utf8.readChar, hbyte, Utf8.lead, if_pos h]
  simp [Utf8.continued, hvalid]

theorem decodeReplace_ascii (h : ∀ c ∈ run, c.toNat < 128) : decodeReplace 0 (run.map asciiByte) = run := by
  induction run with
  | nil => rfl
  | cons c run ih =>
    rw [List.map_cons, decodeReplace, readChar_asciiByte (h c List.mem_cons_self)]
    exact congrArg (c :: ·) (ih fun d hd => h d (List.mem_cons_of_mem _ hd))

theorem isEscape_of_large (h : ¬ c.toNat < 128) (a b : Char) :
    isEscape c a b = false ∧ isEscape a c b = false ∧ isEscape a b c = false := by
  have hpercent : c ≠ '%' := by
    rintro rfl
    exact h (by decide)
  have hhex : hexValue c = none := by
    have hle : ∀ d : Char, d.toNat < 128 → ¬ c ≤ d := by
      intro d hd hcd
      exact h (Nat.lt_of_le_of_lt hcd hd)
    rw [hexValue, if_neg (fun hc => hle '9' (by decide) hc.2), if_neg (fun hc => hle 'f' (by decide) hc.2),
      if_neg (fun hc => hle 'F' (by decide) hc.2)]
  simp [isEscape, hpercent, hhex]

/-- No escape reaches over a character outside ASCII. -/
theorem hasEscape_append_large (h : ¬ c.toNat < 128) (run rest : List Char) :
    hasEscape (run ++ c :: rest) = (hasEscape run || hasEscape rest) := by
  induction run with
  | nil =>
    rw [List.nil_append]
    match rest with
    | [] => rfl
    | [a] => rfl
    | a :: b :: rest =>
      rw [hasEscape, (isEscape_of_large h a b).1]
      rfl
  | cons d run ih =>
    match run with
    | [] =>
      rw [List.cons_append, List.nil_append]
      match rest with
      | [] => rfl
      | b :: rest =>
        rw [hasEscape, (isEscape_of_large h d b).2.1, Bool.false_or]
        exact ih
    | [a] =>
      rw [List.cons_append, List.cons_append, List.nil_append, hasEscape, (isEscape_of_large h d a).2.2, Bool.false_or]
      exact ih
    | a :: b :: run =>
      rw [List.cons_append, List.cons_append, List.cons_append, hasEscape, ← List.cons_append, ← List.cons_append, ih,
        ← Bool.or_assoc]
      rfl

theorem unquoteRun_eq_self (hrun : ∀ c ∈ run, c.toNat < 128) (h : hasEscape (run ++ s) = false) :
    unquoteRun run s = run ++ s := by
  induction s generalizing run with
  | nil =>
    rw [List.append_nil] at h ⊢
    rw [unquoteRun, unquoteBytes_eq_map h, decodeReplace_ascii hrun]
  | cons c s ih =>
    rw [unquoteRun]
    split_ifs with hc
    · have hnext : ∀ d ∈ run ++ [c], d.toNat < 128 := by
        intro d hd
        rcases List.mem_append.mp hd with hd | hd
        · exact hrun d hd
        · exact List.mem_singleton.mp hd ▸ hc
      rw [ih hnext (by rwa [List.append_assoc]), List.append_assoc]
      rfl
    · rw [hasEscape_append_large hc, Bool.or_eq_false_iff] at h
      have hrest : unquoteRun [] s = [] ++ s := ih (List.forall_mem_nil _) h.2
      rw [unquoteBytes_eq_map h.1, decodeReplace_ascii hrun, hrest]
      rfl

theorem length_unquoteRun (run s : List Char) : (unquoteRun run s).length ≤ run.length + s.length ∧
    (hasEscape (run ++ s) = true → (unquoteRun run s).length < run.length + s.length) := by
  induction s generalizing run with
  | nil =>
    obtain ⟨hle, hlt⟩ := length_unquoteBytes run
    have hdecode := length_decodeReplace 0 (unquoteBytes run)
    rw [unquoteRun, List.append_nil, List.length_nil, Nat.add_zero]
    exact ⟨hdecode.trans hle, fun h => hdecode.trans_lt (hlt h)⟩
  | cons c s ih =>
    rw [unquoteRun]
    split_ifs with hc
    · have happend := ih (run ++ [c])
      rw [List.append_assoc, List.length_append, List.length_singleton] at happend
      rw [List.length_cons, ← Nat.add_assoc, Nat.add_right_comm]
      exact happend
    · obtain ⟨hle, hlt⟩ := length_unquoteBytes run
      have hdecode := length_decodeReplace 0 (unquoteBytes run)
      obtain ⟨hle', hlt'⟩ := ih []
      rw [List.nil_append, List.length_nil, Nat.zero_add] at hlt'
      rw [List.length_nil, Nat.zero_add] at hle'
      rw [hasEscape_append_large hc, List.length_append, List.length_cons, List.length_cons, Bool.or_eq_true]
      refine ⟨by omega, fun h => ?_⟩
      rcases h with h | h
      · have hshort := hlt h
        omega
      · have hshort := hlt' h
        omega

end

theorem not_hasEscape {l : List Char} (h : '%' ∉ l) : hasEscape l = false := by
  induction l with
  | nil => rfl
  | cons c l ih =>
    match l with
    | [] => rfl
    | [a] => rfl
    | a :: b :: rest =>
      have hc : c ≠ '%' := fun heq => h (heq ▸ List.mem_cons_self)
      rw [hasEscape, ih fun hmem => h (List.mem_cons_of_mem _ hmem)]
      simp [isEscape, hc]

theorem length_unquote_le (s : String) : (unquote s).length ≤ s.length := by
  rw [unquote]
  split_ifs
  · have hle := (length_unquoteRun [] s.toList).1
    rwa [List.length_nil, Nat.zero_add, String.length_toList, ← String.length_ofList] at hle
  · exact le_refl _

/-- Only texts without an escape are read back. -/
theorem unquote_eq_self_iff (s : String) : unquote s = s ↔ hasEscape s.toList = false := by
  rw [unquote]
  split_ifs with h
  · constructor
    · intro heq
      by_contra hescape
      have hlt := (length_unquoteRun [] s.toList).2 (Bool.not_eq_false _ ▸ hescape)
      have hlength := congrArg String.length heq
      rw [String.length_ofList] at hlength
      rw [List.length_nil, Nat.zero_add, String.length_toList] at hlt
      omega
    · intro hescape
      have hself : unquoteRun [] s.toList = [] ++ s.toList := unquoteRun_eq_self (List.forall_mem_nil _) hescape
      rw [hself, List.nil_append, String.ofList_toList]
  · exact iff_of_true rfl (not_hasEscape h)

end OpsMonitor.Library.Percent
