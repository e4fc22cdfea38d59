import Mathlib

/-! Base64 as Python's `base64` module has it: the decoder skips what is not in the alphabet,
unless it validates, and stops at the padding. -/

namespace OpsMonitor.Library.Base64

abbrev Bytes := List UInt8

def alphabet : List Char :=
  "ABCDEFGHIJKLMNOPQRSTUVWXYZabcdefghijklmnopqrstuvwxyz0123456789+/".toList

/-- The character of a six-bit group. -/
def digit (n : ℕ) : Char := alphabet.getD n '='

def value (c : Char) : Option ℕ := alphabet.idxOf? c

theorem value_digit {n : ℕ} (h : n < 64) : value (digit n) = some n := by
  have hall : ∀ k : Fin 64, value (digit k) = some k.val := by decide +kernel
  exact hall ⟨n, h⟩

theorem digit_ne_pad {n : ℕ} (h : n < 64) : digit n ≠ '=' := by
  have hall : ∀ k : Fin 64, digit k ≠ '=' := by decide +kernel
  exact hall ⟨n, h⟩

theorem digit_toNat_lt {n : ℕ} (h : n < 64) : (digit n).toNat < 128 := by
  have hall : ∀ k : Fin 64, (digit k).toNat < 128 := by decide +kernel
  exact hall ⟨n, h⟩

/-! ## Encoding -/

def encodeChars : Bytes → List Char
  | [] => []
  | [a] => [digit (a.toNat / 4), digit (a.toNat % 4 * 16), '=', '=']
  | [a, b] =>
    [digit (a.toNat / 4), digit (a.toNat % 4 * 16 + b.toNat / 16), digit (b.toNat % 16 * 4), '=']
  | a :: b :: c :: rest =>
    digit (a.toNat / 4) :: digit (a.toNat % 4 * 16 + b.toNat / 16) ::
      digit (b.toNat % 16 * 4 + c.toNat / 64) :: digit (c.toNat % 64) :: encodeChars rest

def b64encode (bytes : Bytes) : String := .ofList (encodeChars bytes)

/-! ## Decoding -/

/-- Where the decoder stands: the position in the group of four characters, the bits left over
from the last one, and the padding seen so far. -/
structure Decoder where
  quad : ℕ
  left : ℕ
  pads : ℕ
  padded : Bool

def Decoder.start : Decoder := ⟨0, 0, 0, false⟩

/-- A character of the alphabet, with the byte it completes. -/
def Decoder.feed (d : Decoder) (v : ℕ) : Option UInt8 × Decoder :=
  match d.quad with
  | 0 => (none, { d with quad := 1, left := v, pads := 0 })
  | 1 => (some (.ofNat (d.left * 4 + v / 16)), { d with quad := 2, left := v % 16, pads := 0 })
  | 2 => (some (.ofNat (d.left * 16 + v / 4)), { d with quad := 3, left := v % 4, pads := 0 })
  | _ => (some (.ofNat (d.left * 64 + v)), { d with quad := 0, left := 0, pads := 0 })

/-- `binascii.a2b_base64` after the check of a leading pad; `none` is its `Error`. -/
def decodeChars (strict : Bool) : Decoder → List Char → Option Bytes
  | d, [] => if d.quad = 0 then some [] else none
  | d, c :: rest =>
    if c = '=' then
      if 2 ≤ d.quad ∧ 4 ≤ d.quad + (d.pads + 1) then
        if strict ∧ rest ≠ [] then none else some []
      else
        decodeChars strict
          { d with padded := true, pads := if 2 ≤ d.quad then d.pads + 1 else d.pads } rest
    else
      match value c with
      | none => if strict then none else decodeChars strict d rest
      | some v =>
        if strict ∧ d.padded then none
        else
          match d.feed v with
          | (none, d') => decodeChars strict d' rest
          | (some b, d') => (decodeChars strict d' rest).map (b :: ·)

/-- `base64.b64decode(text, validate=strict)`, where `none` is the `ValueError`. -/
def b64decode (text : String) (strict : Bool) : Option Bytes :=
  if text.toList.any fun c => 128 ≤ c.toNat then none
  else if strict ∧ text.toList.head? = some '=' then none
  else decodeChars strict .start text.toList

/-! ## Round trip -/

section RoundTrip
variable {strict : Bool} {left : ℕ} {rest : List Char}

/-- A character of the alphabet before any padding. -/
theorem decodeChars_digit {d : Decoder} (hpadded : d.padded = false) {v : ℕ} (hv : v < 64) :
    decodeChars strict d (digit v :: rest) =
      match d.feed v with
      | (none, d') => decodeChars strict d' rest
      | (some b, d') => (decodeChars strict d' rest).map (b :: ·) := by
  rw [decodeChars, if_neg (digit_ne_pad hv), value_digit hv]
  dsimp only
  rw [if_neg (by simp [hpadded])]

theorem decodeChars_first {v : ℕ} (hv : v < 64) :
    decodeChars strict .start (digit v :: rest) = decodeChars strict ⟨1, v, 0, false⟩ rest :=
  decodeChars_digit rfl hv

theorem decodeChars_second {v : ℕ} (hv : v < 64) :
    decodeChars strict ⟨1, left, 0, false⟩ (digit v :: rest) =
      (decodeChars strict ⟨2, v % 16, 0, false⟩ rest).map (.ofNat (left * 4 + v / 16) :: ·) :=
  decodeChars_digit rfl hv

theorem decodeChars_third {v : ℕ} (hv : v < 64) :
    decodeChars strict ⟨2, left, 0, false⟩ (digit v :: rest) =
      (decodeChars strict ⟨3, v % 4, 0, false⟩ rest).map (.ofNat (left * 16 + v / 4) :: ·) :=
  decodeChars_digit rfl hv

theorem decodeChars_fourth {v : ℕ} (hv : v < 64) :
    decodeChars strict ⟨3, left, 0, false⟩ (digit v :: rest) =
      (decodeChars strict .start rest).map (.ofNat (left * 64 + v) :: ·) :=
  decodeChars_digit rfl hv

theorem decodeChars_two_pads : decodeChars strict ⟨2, left, 0, false⟩ ['=', '='] = some [] := by
  simp [decodeChars]

theorem decodeChars_one_pad : decodeChars strict ⟨3, left, 0, false⟩ ['='] = some [] := by
  simp [decodeChars]

theorem ofNat_eq {n : ℕ} {b : UInt8} (h : n = b.toNat) : UInt8.ofNat n = b := by
  rw [h, UInt8.ofNat_toNat]

theorem decodeChars_encodeChars (bytes : Bytes) :
    decodeChars strict .start (encodeChars bytes) = some bytes := by
  induction bytes using encodeChars.induct with
  | case1 => rfl
  | case2 a =>
    have ha := a.toNat_lt
    have hbyte : UInt8.ofNat (a.toNat / 4 * 4 + a.toNat % 4 * 16 / 16) = a := ofNat_eq (by omega)
    rw [encodeChars, decodeChars_first (by omega), decodeChars_second (by omega),
      decodeChars_two_pads, Option.map_some, hbyte]
  | case3 a b =>
    have ha := a.toNat_lt
    have hb := b.toNat_lt
    have hfirst : UInt8.ofNat (a.toNat / 4 * 4 + (a.toNat % 4 * 16 + b.toNat / 16) / 16) = a :=
      ofNat_eq (by omega)
    have hsecond : UInt8.ofNat ((a.toNat % 4 * 16 + b.toNat / 16) % 16 * 16 +
        b.toNat % 16 * 4 / 4) = b := ofNat_eq (by omega)
    rw [encodeChars, decodeChars_first (by omega), decodeChars_second (by omega),
      decodeChars_third (by omega), decodeChars_one_pad, Option.map_some, hsecond, Option.map_some,
      hfirst]
  | case4 a b c rest ih =>
    have ha := a.toNat_lt
    have hb := b.toNat_lt
    have hc := c.toNat_lt
    rw [encodeChars, decodeChars_first (by omega), decodeChars_second (by omega),
      decodeChars_third (by omega), decodeChars_fourth (by omega), ih]
    have hfirst : UInt8.ofNat (a.toNat / 4 * 4 + (a.toNat % 4 * 16 + b.toNat / 16) / 16) = a :=
      ofNat_eq (by omega)
    have hsecond : UInt8.ofNat ((a.toNat % 4 * 16 + b.toNat / 16) % 16 * 16 +
        (b.toNat % 16 * 4 + c.toNat / 64) / 4) = b := ofNat_eq (by omega)
    have hthird : UInt8.ofNat ((b.toNat % 16 * 4 + c.toNat / 64) % 4 * 64 + c.toNat % 64) = c :=
      ofNat_eq (by omega)
    simp only [hfirst, hsecond, hthird, Option.map_some]

end RoundTrip

/-- What a character of an encoded text can be. -/
theorem mem_encodeChars {bytes : Bytes} {c : Char} (h : c ∈ encodeChars bytes) :
    c = '=' ∨ ∃ n < 64, c = digit n := by
  induction bytes using encodeChars.induct with
  | case1 => simp [encodeChars] at h
  | case2 a =>
    have ha := a.toNat_lt
    simp only [encodeChars, List.mem_cons, List.not_mem_nil, or_false] at h
    rcases h with rfl | rfl | rfl | rfl
    · exact .inr ⟨_, by omega, rfl⟩
    · exact .inr ⟨_, by omega, rfl⟩
    · exact .inl rfl
    · exact .inl rfl
  | case3 a b =>
    have ha := a.toNat_lt
    have hb := b.toNat_lt
    simp only [encodeChars, List.mem_cons, List.not_mem_nil, or_false] at h
    rcases h with rfl | rfl | rfl | rfl
    · exact .inr ⟨_, by omega, rfl⟩
    · exact .inr ⟨_, by omega, rfl⟩
    · exact .inr ⟨_, by omega, rfl⟩
    · exact .inl rfl
  | case4 a b c' rest ih =>
    have ha := a.toNat_lt
    have hb := b.toNat_lt
    have hc := c'.toNat_lt
    simp only [encodeChars, List.mem_cons] at h
    rcases h with rfl | rfl | rfl | rfl | h
    · exact .inr ⟨_, by omega, rfl⟩
    · exact .inr ⟨_, by omega, rfl⟩
    · exact .inr ⟨_, by omega, rfl⟩
    · exact .inr ⟨_, by omega, rfl⟩
    · exact ih h

theorem head?_encodeChars (bytes : Bytes) : (encodeChars bytes).head? ≠ some '=' := by
  have hhead : ∀ a : UInt8, digit (a.toNat / 4) ≠ '=' := by
    intro a
    have ha := a.toNat_lt
    exact digit_ne_pad (by omega)
  induction bytes using encodeChars.induct with
  | case1 => simp [encodeChars]
  | case2 a | case3 a | case4 a => simp [encodeChars, hhead a]

theorem b64decode_b64encode (bytes : Bytes) (strict : Bool) :
    b64decode (b64encode bytes) strict = some bytes := by
  have hascii : ((encodeChars bytes).any fun c => decide (128 ≤ c.toNat)) = false := by
    rw [List.any_eq_false]
    intro c hc
    rcases mem_encodeChars hc with rfl | ⟨n, hn, rfl⟩
    · decide
    · simp [digit_toNat_lt hn]
  have hhead := head?_encodeChars bytes
  unfold b64decode b64encode
  simp [String.toList_ofList, hascii, hhead, decodeChars_encodeChars]

end OpsMonitor.Library.Base64
