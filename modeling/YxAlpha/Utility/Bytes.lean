import Mathlib.Algebra.Order.Ring.Nat
import Mathlib.Data.List.Basic
import Mathlib.Data.Nat.Notation

/-!
# Bytes

Strings and blocks of characters are lists of bytes.
-/

namespace YxAlpha

abbrev Bytes := List UInt8

/-- The bytes of a literal of the source. -/
def ascii (text : String) : Bytes := text.toList.map fun c => c.toNat.toUInt8

/-- `isspace` of the C locale. -/
def isSpace (c : UInt8) : Bool := c = 32 ∨ (9 ≤ c ∧ c ≤ 13)

/-- A number as `snprintf` prints it. -/
def decimal (n : ℕ) : Bytes := (Nat.toDigits 10 n).map fun c => c.toNat.toUInt8

theorem isDigit_toUInt8 {c : Char} (hc : c.isDigit = true) :
    c.toNat.toUInt8.toNat = c.toNat ∧ 48 ≤ c.toNat ∧ c.toNat ≤ 57 := by
  simp only [Char.isDigit, Bool.and_eq_true, decide_eq_true_eq] at hc
  have hlow : 48 ≤ c.toNat := hc.1
  have hhigh : c.toNat ≤ 57 := hc.2
  refine ⟨?_, hlow, hhigh⟩
  rw [Nat.toUInt8_eq, UInt8.toNat_ofNat']
  omega

/-- A printed number consists of digits. -/
theorem mem_decimal {n : ℕ} {b : UInt8} (hb : b ∈ decimal n) : 48 ≤ b.toNat ∧ b.toNat ≤ 57 := by
  obtain ⟨c, hc, rfl⟩ := List.mem_map.mp hb
  obtain ⟨hsame, hdigit⟩ := isDigit_toUInt8 (Nat.isDigit_of_mem_toDigits (by decide) (by decide) hc)
  rw [hsame]
  exact hdigit

/-- A printed number reads back. -/
theorem foldl_decimal (n : ℕ) :
    (decimal n).foldl (fun value digit => 10 * value + (digit.toNat - 48)) 0 = n := by
  rw [decimal, List.foldl_map]
  calc (Nat.toDigits 10 n).foldl (fun value c => 10 * value + (c.toNat.toUInt8.toNat - 48)) 0
      = (Nat.toDigits 10 n).foldl (fun value c => 10 * value + (c.toNat - 48)) 0 := by
        apply List.foldl_ext
        intro value c hc
        rw [(isDigit_toUInt8 (Nat.isDigit_of_mem_toDigits (by decide) (by decide) hc)).1]
    _ = Nat.ofDigitChars 10 (Nat.toDigits 10 n) 0 := Nat.ofDigitChars_eq_foldl.symm
    _ = n := Nat.ofDigitChars_toDigits (by decide) (by decide)

theorem decimal_injective : Function.Injective decimal := by
  intro m n h
  rw [← foldl_decimal m, ← foldl_decimal n, h]

theorem length_decimal_le {n k : ℕ} (hk : 0 < k) (hn : n < 10 ^ k) : (decimal n).length ≤ k := by
  rw [decimal, List.length_map]
  exact (Nat.length_toDigits_le_iff (by decide) hk).mpr hn

end YxAlpha
