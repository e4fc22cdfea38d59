import OpsMonitor.Library.Base64

/-! UTF-8 read from bytes, once refusing what is not UTF-8 (Python's `decode`) and once replacing
each byte that starts no character (Go's `range` over a string). -/

namespace OpsMonitor.Library.Utf8
open Base64 (Bytes)

/-- What the first byte of a character announces: the bytes to follow, its own bits, and the
least code that needs so many bytes. -/
def lead (a : ℕ) : Option (ℕ × ℕ × ℕ) :=
  if a < 0x80 then some (0, a, 0)
  else if a / 32 = 6 then some (1, a % 32, 0x80)
  else if a / 16 = 14 then some (2, a % 16, 0x800)
  else if a / 8 = 30 then some (3, a % 8, 0x10000)
  else none

/-- The code with the bits of the next `n` bytes added, if all of them continue a character. -/
def continued : ℕ → ℕ → Bytes → Option ℕ
  | 0, code, _ => some code
  | _ + 1, _, [] => none
  | n + 1, code, b :: rest =>
    if b.toNat / 64 = 2 then continued n (64 * code + b.toNat % 64) rest else none

/-- The character that starts with the byte `a`, and how many bytes it takes from `rest`. -/
def readChar (a : UInt8) (rest : Bytes) : Option (Char × ℕ) := do
  let (n, bits, least) ← lead a.toNat
  let code ← continued n bits rest
  if least ≤ code ∧ code.isValidChar then some (Char.ofNat code, n) else none

/-- The characters after the first `skip` bytes, and `none` for a byte that starts no character. -/
def runes : ℕ → Bytes → List (Option Char)
  | _, [] => []
  | skip + 1, _ :: rest => runes skip rest
  | 0, a :: rest =>
    match readChar a rest with
    | some (c, n) => some c :: runes n rest
    | none => none :: runes 0 rest

/-- `bytes.decode("utf-8")`, where `none` is the `UnicodeDecodeError`. -/
def decode (bytes : Bytes) : Option String := ((runes 0 bytes).mapM id).map .ofList

/-- The text of the runes of a Go string. -/
def decodeLossy (bytes : Bytes) : String :=
  .ofList ((runes 0 bytes).map fun r => r.getD '\uFFFD')

example : decode [0x61, 0xE8, 0xB6, 0x85] = some "a超" ∧ decode [0xC0, 0x80] = none ∧
    decodeLossy [0xE8, 0xB6, 0x61] = "\uFFFD\uFFFDa" := by decide +kernel

theorem getD_of_mapM_id {l : List (Option Char)} {cs : List Char} (h : l.mapM id = some cs) :
    l.map (fun r => r.getD '\uFFFD') = cs := by
  induction l generalizing cs with
  | nil => simpa using h.symm
  | cons r l ih =>
    simp only [List.mapM_cons, id, Option.bind_eq_bind, Option.bind_eq_some_iff,
      Option.pure_def, Option.some.injEq] at h
    obtain ⟨c, rfl, tail, htail, rfl⟩ := h
    simp [ih htail]

/-- What decodes without an error reads the same in both ways. -/
theorem decodeLossy_of_decode {bytes : Bytes} {s : String} (h : decode bytes = some s) :
    decodeLossy bytes = s := by
  obtain ⟨cs, hcs, rfl⟩ := Option.map_eq_some_iff.mp h
  exact congrArg String.ofList (getD_of_mapM_id hcs)

end OpsMonitor.Library.Utf8
