/-
# Numbers and texts of bytes

The big-endian bytes of a number, and the hexadecimal text of bytes.

* `fromBeBytes_toBeBytes` : a number is read from its bytes;
* `fromBeBytes_drop` : whether zeros are before them or not;
* `hexDecode_hexEncode` : bytes are read from their hexadecimal text.
-/
import Mathlib.Algebra.Order.Ring.Int
import Mathlib.Data.List.Basic

namespace ByteTexts

/-! ## Big-endian numbers -/

/-- The lowest `w` bytes of a number, the highest of them first. -/
def toBeBytes : ℕ → ℕ → List UInt8
  | 0, _ => []
  | w + 1, n => toBeBytes w (n / 256) ++ [.ofNat n]

/-- The number of big-endian bytes. -/
def fromBeBytes (b : List UInt8) : ℕ := b.foldl (fun n x => n * 256 + x.toNat) 0

theorem length_toBeBytes (w n : ℕ) : (toBeBytes w n).length = w := by
  induction w generalizing n with
  | zero => rfl
  | succ w ih => rw [toBeBytes, List.length_append, ih, List.length_singleton]

/-- A number is read from its bytes. -/
theorem fromBeBytes_toBeBytes {w n : ℕ} (h : n < 256 ^ w) : fromBeBytes (toBeBytes w n) = n := by
  induction w generalizing n with
  | zero =>
      obtain rfl : n = 0 := by simpa using h
      rfl
  | succ w ih =>
      have hhigh : n / 256 < 256 ^ w := by
        rw [Nat.div_lt_iff_lt_mul (by decide), ← Nat.pow_succ]
        exact h
      have hread := ih hhigh
      rw [fromBeBytes] at hread
      rw [toBeBytes, fromBeBytes, List.foldl_append, hread, List.foldl_cons, List.foldl_nil,
        UInt8.toNat_ofNat']
      omega

/-- Zeros before the bytes of a number do not matter. -/
theorem fromBeBytes_append {zeros : List UInt8} (h : ∀ x ∈ zeros, x = 0) (b : List UInt8) :
    fromBeBytes (zeros ++ b) = fromBeBytes b := by
  have hzeros : zeros.foldl (fun n x => n * 256 + x.toNat) 0 = 0 := by
    induction zeros with
    | nil => rfl
    | cons x zeros ih =>
        obtain ⟨rfl, hzeros⟩ := List.forall_mem_cons.mp h
        rw [List.foldl_cons]
        exact ih hzeros
  rw [fromBeBytes, List.foldl_append, hzeros]
  rfl

theorem fromBeBytes_drop {b : List UInt8} {k : ℕ} (h : ∀ x ∈ b.take k, x = 0) :
    fromBeBytes (b.drop k) = fromBeBytes b := by
  conv_rhs => rw [← List.take_append_drop k b]
  rw [fromBeBytes_append h]

/-! ## Hexadecimal texts -/

/-- The digit of a number below 16. -/
def hexChar (n : ℕ) : Char := "0123456789abcdef".toList.getD n '0'

/-- The number of a digit, in lower or upper case. -/
def hexValue (c : Char) : Option ℕ :=
  if 48 ≤ c.toNat ∧ c.toNat ≤ 57 then some (c.toNat - 48)
  else if 97 ≤ c.toNat ∧ c.toNat ≤ 102 then some (c.toNat - 87)
  else if 65 ≤ c.toNat ∧ c.toNat ≤ 70 then some (c.toNat - 55)
  else none

/-- Two digits for each byte. -/
def hexEncode : List UInt8 → List Char
  | [] => []
  | x :: b => hexChar (x.toNat / 16) :: hexChar (x.toNat % 16) :: hexEncode b

/-- The bytes of pairs of digits. -/
def hexDecode : List Char → Option (List UInt8)
  | [] => some []
  | [_] => none
  | c :: c' :: text =>
    (hexValue c).bind fun high => (hexValue c').bind fun low =>
      (hexDecode text).map (.ofNat (high * 16 + low) :: ·)

attribute [simp] hexEncode hexDecode

theorem hexValue_hexChar {n : ℕ} (h : n < 16) : hexValue (hexChar n) = some n := by
  have hall : ∀ n < 16, hexValue (hexChar n) = some n := by decide
  exact hall n h

theorem hexDecode_hexEncode (b : List UInt8) : hexDecode (hexEncode b) = some b := by
  induction b with
  | nil => rfl
  | cons x b ih =>
      have hx := x.toNat_lt
      rw [hexEncode, hexDecode, hexValue_hexChar (by omega), hexValue_hexChar (by omega), ih]
      rw [Option.bind_some, Option.bind_some, Option.map_some, Nat.div_add_mod', UInt8.ofNat_toNat]

theorem length_hexEncode (b : List UInt8) : (hexEncode b).length = 2 * b.length := by
  induction b with
  | nil => rfl
  | cons x b ih =>
      rw [hexEncode, List.length_cons, List.length_cons, List.length_cons, ih]
      omega

theorem hexChar_mem {n : ℕ} (h : n < 16) : hexChar n ∈ "0123456789abcdef".toList := by
  have hall : ∀ n < 16, hexChar n ∈ "0123456789abcdef".toList := by decide
  exact hall n h

/-- The characters of a hexadecimal text. -/
theorem hexEncode_mem {b : List UInt8} {c : Char} (hc : c ∈ hexEncode b) :
    c ∈ "0123456789abcdef".toList := by
  induction b with
  | nil => cases hc
  | cons x b ih =>
      have hx := x.toNat_lt
      rcases List.mem_cons.mp hc with rfl | hc
      · exact hexChar_mem (by omega)
      · rcases List.mem_cons.mp hc with rfl | hc
        · exact hexChar_mem (by omega)
        · exact ih hc

end ByteTexts
