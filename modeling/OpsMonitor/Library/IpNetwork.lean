import Mathlib

/-! Blocks of Internet addresses, with the operations of Python's `ipaddress` on them. -/

namespace OpsMonitor.Library.Ip

inductive Version
  | v4 | v6
  deriving DecidableEq, Repr

def Version.bits : Version → ℕ
  | v4 => 32
  | v6 => 128

structure Address where
  version : Version
  value : ℕ
  deriving DecidableEq, Repr

/-- A block whose first address has no host bits. -/
structure Network where
  version : Version
  prefixLength : ℕ
  base : ℕ
  prefixLength_le : prefixLength ≤ version.bits
  base_lt : base < 2 ^ version.bits
  aligned : 2 ^ (version.bits - prefixLength) ∣ base
  deriving DecidableEq

namespace Network

def hostBits (n : Network) : ℕ := n.version.bits - n.prefixLength

def broadcast (n : Network) : ℕ := n.base + (2 ^ n.hostBits - 1)

def Contains (n : Network) (a : Address) : Prop :=
  a.version = n.version ∧ n.base ≤ a.value ∧ a.value ≤ n.broadcast

/-- `subnet_of`, or none where Python raises `TypeError`. -/
def subnetOf (n m : Network) : Option Bool :=
  if n.version = m.version then some (m.base ≤ n.base ∧ n.broadcast ≤ m.broadcast) else none

/-- `hosts`: a block of one or two addresses has no address of its own. -/
def hosts (n : Network) : List Address :=
  (if n.hostBits = 0 then [n.base]
    else if n.hostBits = 1 then [n.base, n.base + 1]
    else match n.version with
      | .v4 => List.range' (n.base + 1) (2 ^ n.hostBits - 2)
      | .v6 => List.range' (n.base + 1) (2 ^ n.hostBits - 1)).map (Address.mk n.version)

/-- An address of the block that is neither the one of the block itself nor, for IPv4, the one for
broadcasts, where the block has such addresses. -/
def IsHost (n : Network) (a : Address) : Prop :=
  n.Contains a ∧ (1 < n.hostBits → a.value ≠ n.base ∧ (n.version = .v4 → a.value ≠ n.broadcast))

variable {n m : Network} {a : Address}

theorem four_le (h0 : n.hostBits ≠ 0) (h1 : n.hostBits ≠ 1) : 4 ≤ 2 ^ n.hostBits := by
  have htwo : 2 ≤ n.hostBits := by omega
  calc 4 = 2 ^ 2 := rfl
    _ ≤ 2 ^ n.hostBits := Nat.pow_le_pow_right (by norm_num) htwo

theorem mem_hosts : a ∈ n.hosts ↔ n.IsHost a := by
  obtain ⟨version, value⟩ := a
  have hmem : ∀ l : List ℕ, (⟨version, value⟩ : Address) ∈ l.map (Address.mk n.version) ↔
      version = n.version ∧ value ∈ l := by
    intro l
    simp only [List.mem_map, Address.mk.injEq]
    constructor
    · rintro ⟨x, hx, rfl, rfl⟩
      exact ⟨rfl, hx⟩
    · rintro ⟨rfl, hx⟩
      exact ⟨value, hx, rfl, rfl⟩
  rw [hosts, hmem, IsHost, Contains, and_assoc, broadcast]
  refine and_congr_right fun _ => ?_
  dsimp only
  split_ifs with h0 h1
  · rw [h0, List.mem_singleton]
    omega
  · rw [h1, List.mem_cons, List.mem_singleton]
    omega
  · have hsize := four_le h0 h1
    have hwide : 1 < n.hostBits := by omega
    cases hversion : n.version with
    | v4 =>
      rw [List.mem_range'_1]
      constructor
      · rintro ⟨hlow, hhigh⟩
        exact ⟨⟨by omega, by omega⟩, fun _ => ⟨by omega, fun _ => by omega⟩⟩
      · rintro ⟨⟨hlow, hhigh⟩, hown⟩
        obtain ⟨hbase, hbroadcast⟩ := hown hwide
        have hlast := hbroadcast rfl
        omega
    | v6 =>
      rw [List.mem_range'_1]
      constructor
      · rintro ⟨hlow, hhigh⟩
        exact ⟨⟨by omega, by omega⟩, fun _ => ⟨by omega, by simp⟩⟩
      · rintro ⟨⟨hlow, hhigh⟩, hown⟩
        obtain ⟨hbase, -⟩ := hown hwide
        omega

/-- The hosts are enumerated in the order of their addresses. -/
theorem hosts_sorted (n : Network) : n.hosts.Pairwise fun a b => a.value < b.value := by
  rw [hosts, List.pairwise_map]
  dsimp only
  split_ifs
  · exact List.pairwise_singleton _ _
  · simp
  · cases n.version with
    | v4 => exact List.pairwise_lt_range'
    | v6 => exact List.pairwise_lt_range'

theorem version_of_mem_hosts (h : a ∈ n.hosts) : a.version = n.version := (mem_hosts.mp h).1.1

/-- What a block contains is contained in every block it is a subnet of. -/
theorem Contains.mono (h : n.Contains a) (hsub : n.subnetOf m = some true) : m.Contains a := by
  unfold subnetOf at hsub
  split_ifs at hsub with hversion
  have hrange := of_decide_eq_true (Option.some.inj hsub)
  exact ⟨h.1.trans hversion, hrange.1.trans h.2.1, h.2.2.trans hrange.2⟩

theorem base_le_broadcast (n : Network) : n.base ≤ n.broadcast := Nat.le_add_right _ _

/-- `subnet_of` is inclusion. -/
theorem subnetOf_iff : n.subnetOf m = some true ↔ ∀ a, n.Contains a → m.Contains a := by
  constructor
  · exact fun hsub _ h => h.mono hsub
  · intro h
    have hlow := h ⟨n.version, n.base⟩ ⟨rfl, le_rfl, n.base_le_broadcast⟩
    have hhigh := h ⟨n.version, n.broadcast⟩ ⟨rfl, n.base_le_broadcast, le_rfl⟩
    rw [subnetOf, if_pos hlow.1]
    exact congrArg some (decide_eq_true ⟨hlow.2.1, hhigh.2.2⟩)

end Network
end OpsMonitor.Library.Ip
