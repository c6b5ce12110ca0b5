import Mathlib.Algebra.Order.Ring.Nat
import Mathlib.Data.List.Basic
import Mathlib.Tactic.Ring

/-!
# Integers in memory

`encode w n` are the `w` bytes of `n` in memory, the low one first, and `decode` is the integer
that a block of memory stands for.  `swap` reads the bytes the other way round; doing so twice
changes nothing (`swap_swap`).
-/

namespace LittleEndian

def encode : ℕ → ℕ → List UInt8
  | 0, _ => []
  | w + 1, n => (n % 256).toUInt8 :: encode w (n / 256)

def decode : List UInt8 → ℕ
  | [] => 0
  | b :: bytes => b.toNat + 256 * decode bytes

/-- The integer with the same bytes in the opposite order. -/
def swap (w n : ℕ) : ℕ := decode (encode w n).reverse

@[simp] theorem length_encode (w n : ℕ) : (encode w n).length = w := by
  induction w generalizing n with
  | zero => rfl
  | succ w ih => rw [encode, List.length_cons, ih]

theorem decode_encode (w n : ℕ) : decode (encode w n) = n % 256 ^ w := by
  induction w generalizing n with
  | zero => rw [Nat.pow_zero, Nat.mod_one]; rfl
  | succ w ih =>
      have hbyte : (n % 256).toUInt8.toNat = n % 256 := by
        rw [Nat.toUInt8_eq, UInt8.toNat_ofNat']
        omega
      rw [encode, decode, hbyte, ih, Nat.pow_succ', Nat.mod_mul]

theorem encode_decode (bytes : List UInt8) : encode bytes.length (decode bytes) = bytes := by
  induction bytes with
  | nil => rfl
  | cons b bytes ih =>
      have hb : b.toNat < 256 := b.toNat_lt
      have hlow : (decode (b :: bytes) % 256).toUInt8 = b := by
        rw [decode, Nat.add_mul_mod_self_left, Nat.mod_eq_of_lt hb]
        exact UInt8.ofNat_toNat
      have hhigh : decode (b :: bytes) / 256 = decode bytes := by
        rw [decode]
        omega
      rw [List.length_cons, encode, hlow, hhigh, ih]

theorem decode_lt (bytes : List UInt8) : decode bytes < 256 ^ bytes.length := by
  have h := decode_encode bytes.length (decode bytes)
  rw [encode_decode] at h
  rw [h]
  exact Nat.mod_lt _ (Nat.pow_pos (by decide))

theorem encode_swap (w n : ℕ) : encode w (swap w n) = (encode w n).reverse := by
  have h := encode_decode (encode w n).reverse
  rwa [List.length_reverse, length_encode] at h

theorem swap_lt (w n : ℕ) : swap w n < 256 ^ w := by
  have h := decode_lt (encode w n).reverse
  rwa [List.length_reverse, length_encode] at h

theorem swap_swap {w n : ℕ} (hn : n < 256 ^ w) : swap w (swap w n) = n := by
  rw [swap, encode_swap, List.reverse_reverse, decode_encode, Nat.mod_eq_of_lt hn]

end LittleEndian
