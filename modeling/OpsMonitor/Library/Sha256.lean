import OpsMonitor.Library.Base64

/-! SHA-256 of a list of bytes, and its hexadecimal form (`hashlib.sha256(data).hexdigest()`). -/

namespace OpsMonitor.Library.Sha256
open Base64

def roundConstants : List UInt32 :=
  [0x428a2f98, 0x71374491, 0xb5c0fbcf, 0xe9b5dba5, 0x3956c25b, 0x59f111f1, 0x923f82a4, 0xab1c5ed5,
    0xd807aa98, 0x12835b01, 0x243185be, 0x550c7dc3, 0x72be5d74, 0x80deb1fe, 0x9bdc06a7, 0xc19bf174,
    0xe49b69c1, 0xefbe4786, 0x0fc19dc6, 0x240ca1cc, 0x2de92c6f, 0x4a7484aa, 0x5cb0a9dc, 0x76f988da,
    0x983e5152, 0xa831c66d, 0xb00327c8, 0xbf597fc7, 0xc6e00bf3, 0xd5a79147, 0x06ca6351, 0x14292967,
    0x27b70a85, 0x2e1b2138, 0x4d2c6dfc, 0x53380d13, 0x650a7354, 0x766a0abb, 0x81c2c92e, 0x92722c85,
    0xa2bfe8a1, 0xa81a664b, 0xc24b8b70, 0xc76c51a3, 0xd192e819, 0xd6990624, 0xf40e3585, 0x106aa070,
    0x19a4c116, 0x1e376c08, 0x2748774c, 0x34b0bcb5, 0x391c0cb3, 0x4ed8aa4a, 0x5b9cca4f, 0x682e6ff3,
    0x748f82ee, 0x78a5636f, 0x84c87814, 0x8cc70208, 0x90befffa, 0xa4506ceb, 0xbef9a3f7, 0xc67178f2]

def rotr (x n : UInt32) : UInt32 := (x >>> n) ||| (x <<< (32 - n))

/-- The chaining state. -/
structure State where
  a : UInt32
  b : UInt32
  c : UInt32
  d : UInt32
  e : UInt32
  f : UInt32
  g : UInt32
  h : UInt32

def State.initial : State :=
  ⟨0x6a09e667, 0xbb67ae85, 0x3c6ef372, 0xa54ff53a, 0x510e527f, 0x9b05688c, 0x1f83d9ab, 0x5be0cd19⟩

def State.add (s t : State) : State :=
  ⟨s.a + t.a, s.b + t.b, s.c + t.c, s.d + t.d, s.e + t.e, s.f + t.f, s.g + t.g, s.h + t.h⟩

def State.words (s : State) : List UInt32 := [s.a, s.b, s.c, s.d, s.e, s.f, s.g, s.h]

/-- A round with the constant `k`. The window holds the next sixteen words of the schedule. -/
def round (acc : State × List UInt32) (k : UInt32) : State × List UInt32 :=
  let (s, window) := acc
  let w := window.getD 0 0
  let t1 := s.h + (rotr s.e 6 ^^^ rotr s.e 11 ^^^ rotr s.e 25) +
    ((s.e &&& s.f) ^^^ (~~~s.e &&& s.g)) + k + w
  let t2 := (rotr s.a 2 ^^^ rotr s.a 13 ^^^ rotr s.a 22) +
    ((s.a &&& s.b) ^^^ (s.a &&& s.c) ^^^ (s.b &&& s.c))
  let w1 := window.getD 1 0
  let w14 := window.getD 14 0
  let next := (rotr w14 17 ^^^ rotr w14 19 ^^^ (w14 >>> 10)) + window.getD 9 0 +
    (rotr w1 7 ^^^ rotr w1 18 ^^^ (w1 >>> 3)) + w
  (⟨t1 + t2, s.a, s.b, s.c, s.d + t1, s.e, s.f, s.g⟩, window.tail ++ [next])

def compress (s : State) (block : List UInt32) : State :=
  s.add (roundConstants.foldl round (s, block)).1

/-- Big-endian words. -/
def words : Bytes → List UInt32
  | a :: b :: c :: d :: rest =>
    .ofNat (((a.toNat * 256 + b.toNat) * 256 + c.toNat) * 256 + d.toNat) :: words rest
  | _ => []

def bigEndian (width n : ℕ) : Bytes :=
  (List.range width).reverse.map fun i => .ofNat (n / 256 ^ i % 256)

/-- The message, a set bit, zeros, and the length in bits. -/
def pad (message : Bytes) : Bytes :=
  message ++ 0x80 :: List.replicate ((119 - message.length % 64) % 64) 0 ++
    bigEndian 8 (8 * message.length)

def digest (message : Bytes) : Bytes :=
  let final := ((words (pad message)).toChunks 16).foldl compress .initial
  final.words.flatMap fun w => bigEndian 4 w.toNat

def hexChar (n : ℕ) : Char := "0123456789abcdef".toList.getD n '0'

def hex (bytes : Bytes) : String :=
  .ofList (bytes.flatMap fun b => [hexChar (b.toNat / 16), hexChar (b.toNat % 16)])

def hexdigest (message : Bytes) : String := hex (digest message)

example : hexdigest [] = "e3b0c44298fc1c149afbf4c8996fb92427ae41e4649b934ca495991b7852b855" := by
  decide +kernel

theorem hexChar_ne {c : Char} (hc : c ∉ "0123456789abcdef".toList) (n : ℕ) : hexChar n ≠ c := by
  intro h
  by_cases hn : n < 16
  · have hmem : hexChar n ∈ "0123456789abcdef".toList := by
      unfold hexChar
      rw [List.getD_eq_getElem _ _ (by simpa using hn)]
      exact List.getElem_mem _
    exact hc (h ▸ hmem)
  · have hdefault : hexChar n = '0' := List.getD_eq_default _ _ (by simpa using hn)
    exact hc (h ▸ hdefault ▸ by decide)

/-- A digest is free of separators. -/
theorem notMem_hex {c : Char} (hc : c ∉ "0123456789abcdef".toList) (bytes : Bytes) :
    c ∉ (hex bytes).toList := by
  rw [hex, String.toList_ofList]
  intro hmem
  obtain ⟨b, -, hb⟩ := List.mem_flatMap.mp hmem
  rcases List.mem_pair.mp hb with h | h
  · exact hexChar_ne hc _ h.symm
  · exact hexChar_ne hc _ h.symm

end OpsMonitor.Library.Sha256
