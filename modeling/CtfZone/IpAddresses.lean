/-
# Addresses and networks of the Internet Protocol

Addresses of both versions, and networks as the addresses that share a prefix.

* `Block` : the words of one width that begin with the bits of a prefix;
* `Block.subset_of_mem` : of two blocks with a common word, the one with the longer prefix lies
  in the other;
* `IpAddr`, `IpNet` : the addresses and networks of both versions;
* `IpAddr.unmapped` : an IPv4 address that is mapped into IPv6, as itself.
-/
import Mathlib.Algebra.Order.Ring.Int
import Mathlib.Data.List.Basic
import Mathlib.Data.Nat.Basic
import Mathlib.Tactic.Ring

namespace IpAddresses

/-! ## Blocks of words -/

/-- The words of `w` bits that begin with the first `length` bits of `base`. -/
structure Block (w : ℕ) where
  base : BitVec w
  length : ℕ
  length_le : length ≤ w

variable {w : ℕ}

/-- The word begins with the bits of the prefix. -/
def Block.contains (b : Block w) (a : BitVec w) : Bool :=
  a.toNat / 2 ^ (w - b.length) = b.base.toNat / 2 ^ (w - b.length)

theorem Block.contains_iff {b : Block w} {a : BitVec w} :
    b.contains a = true ↔ a.toNat / 2 ^ (w - b.length) = b.base.toNat / 2 ^ (w - b.length) :=
  decide_eq_true_iff

/-- Words that agree on a prefix agree on every shorter one. -/
theorem div_eq_of_le {x y m n : ℕ} (h : x / 2 ^ m = y / 2 ^ m) (hle : m ≤ n) :
    x / 2 ^ n = y / 2 ^ n := by
  obtain ⟨k, rfl⟩ := Nat.exists_eq_add_of_le hle
  rw [Nat.pow_add, ← Nat.div_div_eq_div_mul, ← Nat.div_div_eq_div_mul, h]

/-- **Of two blocks with a common word, the longer prefix lies in the other.** -/
theorem Block.subset_of_mem {n r : Block w} {a : BitVec w} (hn : n.contains a = true)
    (hr : r.contains a = true) (hle : r.length ≤ n.length) {b : BitVec w}
    (hb : n.contains b = true) : r.contains b = true := by
  rw [Block.contains_iff] at *
  have hlonger : w - n.length ≤ w - r.length := by omega
  have hsame : b.toNat / 2 ^ (w - n.length) = a.toNat / 2 ^ (w - n.length) := hb.trans hn.symm
  exact (div_eq_of_le hsame hlonger).trans hr

/-! ## Addresses -/

/-- An address of either version. -/
inductive IpAddr
  | v4 (bits : BitVec 32)
  | v6 (bits : BitVec 128)
  deriving DecidableEq

/-- The octets of an IPv4 address. -/
def octet (address : BitVec 32) (i : ℕ) : ℕ := address.toNat / 2 ^ (8 * (3 - i)) % 2 ^ 8

/-- The segments of an IPv6 address. -/
def segment (address : BitVec 128) (i : ℕ) : ℕ := address.toNat / 2 ^ (16 * (7 - i)) % 2 ^ 16

/-- The segments of an IPv6 address, in order. -/
def segments (address : BitVec 128) : List ℕ := (List.range 8).map (segment address)

/-- The IPv4 address of four octets. -/
def ipv4 (a b c d : ℕ) : BitVec 32 := .ofNat 32 (((a * 2 ^ 8 + b) * 2 ^ 8 + c) * 2 ^ 8 + d)

/-- The IPv6 address of eight segments. -/
def ipv6 (a b c d e f g h : ℕ) : BitVec 128 :=
  .ofNat 128 (((((((a * 2 ^ 16 + b) * 2 ^ 16 + c) * 2 ^ 16 + d) * 2 ^ 16 + e) * 2 ^ 16 + f) *
    2 ^ 16 + g) * 2 ^ 16 + h)

/-- The IPv4 address that an IPv6 address maps: it stands after 80 zeros and 16 ones. -/
def toIpv4Mapped (address : BitVec 128) : Option (BitVec 32) :=
  if (segments address).take 6 = [0, 0, 0, 0, 0, 0xffff] then
    some (.ofNat 32 (address.toNat % 2 ^ 32))
  else none

/-- The address, an IPv4 address where it maps one. -/
def IpAddr.unmapped : IpAddr → IpAddr
  | .v4 address => .v4 address
  | .v6 address =>
    match toIpv4Mapped address with
    | some mapped => .v4 mapped
    | none => .v6 address

/-! ## Networks -/

/-- A network of either version. -/
inductive IpNet
  | v4 (block : Block 32)
  | v6 (block : Block 128)

/-- The length of the prefix. -/
def IpNet.prefixLen : IpNet → ℕ
  | .v4 block => block.length
  | .v6 block => block.length

/-- The network contains the address. -/
def IpNet.contains : IpNet → IpAddr → Bool
  | .v4 block, .v4 address => block.contains address
  | .v6 block, .v6 address => block.contains address
  | _, _ => false

/-- The network of an IPv4 address and a prefix length. -/
def net4 (address : BitVec 32) (length : ℕ) (h : length ≤ 32 := by decide) : IpNet :=
  .v4 ⟨address, length, h⟩

/-- The network of an IPv6 address and a prefix length. -/
def net6 (address : BitVec 128) (length : ℕ) (h : length ≤ 128 := by decide) : IpNet :=
  .v6 ⟨address, length, h⟩

theorem contains_net4 {a b c d length : ℕ} {h : length ≤ 32} {address : BitVec 32} :
    (net4 (ipv4 a b c d) length h).contains (.v4 address) = true ↔
      address.toNat / 2 ^ (32 - length) =
        (((a * 2 ^ 8 + b) * 2 ^ 8 + c) * 2 ^ 8 + d) % 2 ^ 32 / 2 ^ (32 - length) := by
  rw [net4, IpNet.contains, Block.contains_iff, ipv4, BitVec.toNat_ofNat]

theorem contains_net6 {a b c d e f g h length : ℕ} {hle : length ≤ 128} {address : BitVec 128} :
    (net6 (ipv6 a b c d e f g h) length hle).contains (.v6 address) = true ↔
      address.toNat / 2 ^ (128 - length) =
        (((((((a * 2 ^ 16 + b) * 2 ^ 16 + c) * 2 ^ 16 + d) * 2 ^ 16 + e) * 2 ^ 16 + f) * 2 ^ 16 +
          g) * 2 ^ 16 + h) % 2 ^ 128 / 2 ^ (128 - length) := by
  rw [net6, IpNet.contains, Block.contains_iff, ipv6, BitVec.toNat_ofNat]

/-- An address of the other version is in no network of one version. -/
theorem contains_net4_v6 {base : BitVec 32} {length : ℕ} {h : length ≤ 32}
    {address : BitVec 128} : (net4 base length h).contains (.v6 address) = false := rfl

theorem contains_net6_v4 {base : BitVec 128} {length : ℕ} {h : length ≤ 128}
    {address : BitVec 32} : (net6 base length h).contains (.v4 address) = false := rfl

/-- Every address of the network is one of the other. -/
def IpNet.Within (n r : IpNet) : Prop := ∀ a, n.contains a = true → r.contains a = true

/-- **A network lies in another one** if they have an address in common and its prefix is not
shorter. -/
theorem IpNet.within_of_mem {n r : IpNet} {a : IpAddr} (hn : n.contains a = true)
    (hr : r.contains a = true) (hle : r.prefixLen ≤ n.prefixLen) : n.Within r := by
  intro b hb
  cases n with
  | v4 n =>
      cases a with
      | v6 a => cases hn
      | v4 a =>
          cases b with
          | v6 b => cases hb
          | v4 b =>
              cases r with
              | v6 r => cases hr
              | v4 r => exact Block.subset_of_mem hn hr hle hb
  | v6 n =>
      cases a with
      | v4 a => cases hn
      | v6 a =>
          cases b with
          | v4 b => cases hb
          | v6 b =>
              cases r with
              | v4 r => cases hr
              | v6 r => exact Block.subset_of_mem hn hr hle hb

/-! ## Masks -/

/-- The bits of a word under a mask of its highest ones. -/
theorem and_highBits {x w k : ℕ} (hx : x < 2 ^ w) (hk : k ≤ w) :
    x &&& (2 ^ (w - k) - 1) * 2 ^ k = x / 2 ^ k * 2 ^ k := by
  have hhigh : (x &&& (2 ^ (w - k) - 1) * 2 ^ k) / 2 ^ k = x / 2 ^ k := by
    have hlt : x / 2 ^ k < 2 ^ (w - k) := by
      rw [Nat.div_lt_iff_lt_mul (Nat.two_pow_pos k), ← Nat.pow_add, Nat.sub_add_cancel hk]
      exact hx
    rw [Nat.and_div_two_pow, Nat.mul_div_cancel _ (Nat.two_pow_pos k),
      Nat.and_two_pow_sub_one_eq_mod, Nat.mod_eq_of_lt hlt]
  have hlow : (x &&& (2 ^ (w - k) - 1) * 2 ^ k) % 2 ^ k = 0 := by
    rw [Nat.and_mod_two_pow, Nat.mul_mod_left, Nat.and_zero]
  have hsplit := Nat.div_add_mod (x &&& (2 ^ (w - k) - 1) * 2 ^ k) (2 ^ k)
  rw [hhigh, hlow, Nat.add_zero] at hsplit
  rw [← hsplit, Nat.mul_comm]

theorem segment_lt (address : BitVec 128) (i : ℕ) : segment address i < 2 ^ 16 :=
  Nat.mod_lt _ (Nat.two_pow_pos 16)

end IpAddresses
