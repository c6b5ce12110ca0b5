import Mathlib.Algebra.Order.Ring.Int
import YxAlpha.Library.Copying
import YxAlpha.Utility.Bytes

/-!
# Numbers of the log

`convert` of `logger/logstream.cc` writes the digits of an integer from the last to the first
and reverses them in place.  It never negates the number: the remainders of a negative one are
negative, and the table of digits is read on the other side of its zero.

A write outside the memory it is given and a read outside the table are `none`.  `Canonical`
says what the numeral of an integer is, and `convert_exact` that this is what is written, for
the integers of every type of the source.
-/

namespace YxAlpha

/-- An integer type of the source. -/
structure IntType where
  width : ℕ
  signed : Bool

def IntType.Holds (T : IntType) (value : ℤ) : Prop :=
  if T.signed then -2 ^ (T.width - 1) ≤ value ∧ value < 2 ^ (T.width - 1)
  else 0 ≤ value ∧ value < 2 ^ T.width

def minus : UInt8 := 45

/-- The table; `zero` points to its middle. -/
def digits : Bytes := ascii "9876543210123456789"

def zero : ℕ := 9

/-- `zero[lsd]`. -/
def digitOf (lsd : ℤ) : Option UInt8 :=
  if 0 ≤ zero + lsd then digits[(zero + lsd).toNat]? else none

theorem natAbs_tdiv_lt {i : ℤ} (h : i.tdiv 10 ≠ 0) : (i.tdiv 10).natAbs < i.natAbs := by
  have hdiv := Int.natAbs_tdiv i 10
  have hpos := Int.natAbs_pos.mpr h
  change _ = i.natAbs / 10 at hdiv
  omega

/-- The loop of `convert`, with `*p++` as its next write. -/
def digitLoop (v : Bytes) (p : ℕ) (i : ℤ) : Option (Bytes × ℕ) :=
  (digitOf (i.tmod 10)).bind fun c =>
  (Copying.store v p [c]).bind fun v =>
    if h : i.tdiv 10 ≠ 0 then digitLoop v (p + 1) (i.tdiv 10) else some (v, p + 1)
termination_by i.natAbs
decreasing_by exact natAbs_tdiv_lt h

/-- `std::reverse(first, last)`. -/
def stdReverse (v : Bytes) (first last : ℕ) : Bytes :=
  v.take first ++ ((v.take last).drop first).reverse ++ v.drop last

def convert (v : Bytes) (buf : ℕ) (value : ℤ) : Option (Bytes × ℕ) :=
  (digitLoop v buf value).bind fun (v, p) =>
  (if value < 0 then (Copying.store v p [minus]).map (·, p + 1) else some (v, p)).bind fun (v, p) =>
  (Copying.store v p [0]).map fun v => (stdReverse v buf p, p - buf)

/-! ## Numerals -/

def numeral (value : ℤ) : Bytes :=
  if value < 0 then minus :: decimal value.natAbs else decimal value.natAbs

/-- What is left of a numeral without its sign. -/
def unsigned (text : Bytes) : Bytes := if text.head? = some minus then text.tail else text

/-- The integer that a numeral stands for. -/
def readNumeral (text : Bytes) : ℤ :=
  let value : ℕ := (unsigned text).foldl (fun value digit => 10 * value + (digit.toNat - 48)) 0
  if text.head? = some minus then -(value : ℤ) else value

/-- The canonical decimal numeral of an integer. -/
structure Canonical (text : Bytes) (value : ℤ) : Prop where
  sign : text.head? = some minus ↔ value < 0
  digits : unsigned text ≠ [] ∧ ∀ c ∈ unsigned text, 48 ≤ c.toNat ∧ c.toNat ≤ 57
  /-- A zero in front is the whole of it. -/
  leading : (unsigned text).head? = some 48 → unsigned text = [48]
  reads : readNumeral text = value

theorem decimal_of_lt {n : ℕ} (hn : n < 10) : decimal n = [(48 + n).toUInt8] := by
  rw [decimal, Nat.toDigits_of_lt_base hn]
  revert n
  decide

theorem decimal_of_le {n : ℕ} (hn : 10 ≤ n) :
    decimal n = decimal (n / 10) ++ [(48 + n % 10).toUInt8] := by
  rw [decimal, Nat.toDigits_of_base_le (by decide) hn, List.map_append,
    ← decimal_of_lt (Nat.mod_lt n (by decide)), decimal, decimal,
    Nat.toDigits_of_lt_base (Nat.mod_lt n (by decide))]

theorem decimal_ne_nil (n : ℕ) : decimal n ≠ [] := by
  simp [decimal]

/-- A number does not begin with a zero unless it is one. -/
theorem decimal_leading {n : ℕ} (h : (decimal n).head? = some 48) : n = 0 := by
  induction n using Nat.strong_induction_on with
  | _ n ih =>
      rcases Nat.lt_or_ge n 10 with hlt | hge
      · have hsmall : ∀ n < 10, [(48 + n).toUInt8].head? = some 48 → n = 0 := by decide
        rw [decimal_of_lt hlt] at h
        exact hsmall n hlt h
      · rw [decimal_of_le hge, List.head?_append_of_ne_nil _ (decimal_ne_nil _)] at h
        have hzero := ih (n / 10) (by omega) h
        omega

theorem head?_decimal_ne_minus (n : ℕ) : (decimal n).head? ≠ some minus := by
  intro h
  have hdigit := mem_decimal (List.mem_of_mem_head? h)
  exact absurd hdigit.1 (by decide)

theorem unsigned_numeral (value : ℤ) : unsigned (numeral value) = decimal value.natAbs := by
  unfold numeral unsigned
  split
  · rfl
  · exact if_neg (head?_decimal_ne_minus _)

theorem head?_numeral (value : ℤ) : (numeral value).head? = some minus ↔ value < 0 := by
  unfold numeral
  split
  · rename_i hneg
    exact iff_of_true rfl hneg
  · rename_i hnonneg
    exact iff_of_false (head?_decimal_ne_minus _) hnonneg

theorem mem_numeral {value : ℤ} {c : UInt8} (hc : c ∈ numeral value) :
    c = minus ∨ 48 ≤ c.toNat ∧ c.toNat ≤ 57 := by
  unfold numeral at hc
  split at hc
  · exact (List.mem_cons.mp hc).imp_right mem_decimal
  · exact Or.inr (mem_decimal hc)

theorem canonical_numeral (value : ℤ) : Canonical (numeral value) value where
  sign := head?_numeral value
  digits := by
    rw [unsigned_numeral]
    exact ⟨decimal_ne_nil _, fun _ hc => mem_decimal hc⟩
  leading h := by
    rw [unsigned_numeral] at h ⊢
    rw [decimal_leading h]
    decide
  reads := by
    unfold readNumeral
    rw [unsigned_numeral, foldl_decimal]
    dsimp only
    split
    · rename_i hneg
      have := (head?_numeral value).mp hneg
      omega
    · rename_i hnonneg
      have := (head?_numeral value).not.mp hnonneg
      omega

/-! ## The loop -/

theorem digitOf_tmod (i : ℤ) : digitOf (i.tmod 10) = some (48 + i.natAbs % 10).toUInt8 := by
  -- both halves of the table
  have htable : ∀ d < 10, digitOf (d : ℕ) = some (48 + d).toUInt8 ∧
      digitOf (-(d : ℕ)) = some (48 + d).toUInt8 := by decide
  obtain ⟨hpos, hneg⟩ := htable (i.natAbs % 10) (Nat.mod_lt _ (by decide))
  have habs : (i.tmod 10).natAbs = i.natAbs % 10 := Int.natAbs_tmod i 10
  rcases Int.natAbs_eq (i.tmod 10) with h | h <;> rw [habs] at h <;> rw [h] <;> assumption

theorem digitLoop_eq {v : Bytes} {p : ℕ} (i : ℤ)
    (hroom : p + (decimal i.natAbs).length ≤ v.length) :
    digitLoop v p i = some (v.take p ++ (decimal i.natAbs).reverse ++
      v.drop (p + (decimal i.natAbs).length), p + (decimal i.natAbs).length) := by
  -- the quotient is the smaller number, whatever the sign
  induction hn : i.natAbs using Nat.strong_induction_on generalizing i v p with
  | _ n ih =>
      subst hn
      have hdiv : (i.tdiv 10).natAbs = i.natAbs / 10 := Int.natAbs_tdiv i 10
      rw [digitLoop, digitOf_tmod, Option.bind_some]
      rcases Nat.lt_or_ge i.natAbs 10 with hlt | hge
      · have hlast : i.tdiv 10 = 0 := Int.natAbs_eq_zero.mp (by omega)
        rw [decimal_of_lt hlt] at hroom ⊢
        rw [Copying.store_eq_some (by simpa using hroom), Option.bind_some,
          dif_neg (not_not.mpr hlast), Nat.mod_eq_of_lt hlt]
        rfl
      · have hnext : i.tdiv 10 ≠ 0 := Int.natAbs_ne_zero.mp (by omega)
        rw [decimal_of_le hge] at hroom ⊢
        rw [List.length_append, List.length_singleton] at hroom ⊢
        have hp : p < v.length := by omega
        set c := (48 + i.natAbs % 10).toUInt8
        -- behind the first write, the loop goes on with the other digits
        have hstored : Copying.store v p [c] = some (v.take p ++ [c] ++ v.drop (p + 1)) :=
          Copying.store_eq_some hp
        have hfront : (v.take p ++ [c]).length = p + 1 := by
          rw [List.length_append, List.length_take, List.length_singleton]
          omega
        have hlength : (v.take p ++ [c] ++ v.drop (p + 1)).length = v.length := by
          rw [List.length_append, hfront, List.length_drop]
          omega
        have hrest := ih (i.tdiv 10).natAbs (by omega) (v := v.take p ++ [c] ++ v.drop (p + 1))
          (p := p + 1) (i.tdiv 10) (by rw [hlength, hdiv]; omega) rfl
        have hend : p + 1 + (decimal (i.natAbs / 10)).length =
            p + ((decimal (i.natAbs / 10)).length + 1) := by omega
        rw [hstored, Option.bind_some, dif_pos hnext, hrest, hdiv, List.take_left' hfront,
          ← List.drop_drop, List.drop_left' hfront, List.drop_drop, List.reverse_append, hend,
          List.reverse_singleton, List.append_assoc (v.take p)]

/-! ## The whole of `convert` -/

/-- What has been written since `first`, reversed. -/
theorem stdReverse_splice {front middle : Bytes} (rest : Bytes) {first last : ℕ}
    (hfirst : front.length = first) (hlast : first + middle.length = last) :
    stdReverse (front ++ middle ++ rest) first last = front ++ middle.reverse ++ rest := by
  have hwhole : (front ++ middle).length = last := by
    rw [List.length_append, hfirst, hlast]
  rw [stdReverse, List.take_left' hwhole, List.drop_left' hwhole, List.drop_left' hfirst,
    List.append_assoc front, List.take_left' hfirst]

/-- The next write behind what has been written. -/
theorem store_behind {v front : Bytes} {p : ℕ} (hfront : front.length = p) (hp : p < v.length)
    (c : UInt8) :
    Copying.store (front ++ v.drop p) p [c] = some (front ++ [c] ++ v.drop (p + 1)) := by
  have hroom : p + [c].length ≤ (front ++ v.drop p).length := by
    rw [List.length_append, List.length_drop, List.length_singleton]
    omega
  rw [Copying.store_eq_some hroom, List.take_left' hfront, List.length_singleton,
    ← List.drop_drop, List.drop_left' hfront, List.drop_drop]

/-- All that is written before the NUL is the numeral, reversed. -/
theorem written_eq {v : Bytes} {buf : ℕ} (value : ℤ)
    (hroom : buf + (numeral value).length < v.length) :
    ((digitLoop v buf value).bind fun (v, p) =>
      if value < 0 then (Copying.store v p [minus]).map (·, p + 1) else some (v, p)) =
      some (v.take buf ++ (numeral value).reverse ++ v.drop (buf + (numeral value).length),
        buf + (numeral value).length) := by
  by_cases hneg : value < 0
  · have hnumeral : numeral value = minus :: decimal value.natAbs := if_pos hneg
    rw [hnumeral, List.length_cons] at hroom ⊢
    have hdigits : (v.take buf ++ (decimal value.natAbs).reverse).length =
        buf + (decimal value.natAbs).length := by
      rw [List.length_append, List.length_take, List.length_reverse]
      omega
    rw [digitLoop_eq value (by omega), Option.bind_some]
    dsimp only
    rw [if_pos hneg, store_behind hdigits (by omega), Option.map_some, List.reverse_cons,
      ← List.append_assoc (v.take buf)]
    rfl
  · have hnumeral : numeral value = decimal value.natAbs := if_neg hneg
    rw [hnumeral] at hroom ⊢
    rw [digitLoop_eq value (by omega), Option.bind_some]
    dsimp only
    rw [if_neg hneg]

theorem convert_eq {v : Bytes} {buf : ℕ} (value : ℤ)
    (hroom : buf + (numeral value).length < v.length) :
    convert v buf value = some (v.take buf ++ numeral value ++
      0 :: v.drop (buf + (numeral value).length + 1), (numeral value).length) := by
  have hfront : (v.take buf).length = buf := by
    rw [List.length_take]
    omega
  have hlast : (v.take buf ++ (numeral value).reverse).length = buf + (numeral value).length := by
    rw [List.length_append, hfront, List.length_reverse]
  set last := buf + (numeral value).length with hend
  set written := v.take buf ++ (numeral value).reverse with hwritten
  calc convert v buf value
      = (Copying.store (written ++ v.drop last) last [0]).map fun v =>
          (stdReverse v buf last, last - buf) := by
        rw [convert, ← Option.bind_assoc, written_eq value hroom, Option.bind_some]
    _ = some (stdReverse (written ++ ([0] ++ v.drop (last + 1))) buf last, last - buf) := by
        rw [store_behind hlast hroom, Option.map_some, List.append_assoc written]
    _ = some (v.take buf ++ numeral value ++ 0 :: v.drop (last + 1), (numeral value).length) := by
        -- the NUL lies behind the range that is reversed
        rw [hwritten, stdReverse_splice _ hfront (by rw [List.length_reverse]),
          List.reverse_reverse, hend, Nat.add_sub_cancel_left]
        rfl

theorem length_numeral_le {T : IntType} (hwidth : T.width ≤ 64) {value : ℤ}
    (hvalue : T.Holds value) : (numeral value).length ≤ 20 := by
  unfold IntType.Holds at hvalue
  unfold numeral
  split at hvalue
  · have hpow : (2 : ℤ) ^ (T.width - 1) ≤ 2 ^ 63 :=
      pow_le_pow_right₀ one_le_two (Nat.sub_le_sub_right hwidth 1)
    have hdigits : (decimal value.natAbs).length ≤ 19 :=
      length_decimal_le (Nat.succ_pos 18) (by omega)
    split
    · rw [List.length_cons]
      omega
    · omega
  · have hpow : (2 : ℤ) ^ T.width ≤ 2 ^ 64 := pow_le_pow_right₀ one_le_two hwidth
    rw [if_neg (by omega)]
    exact length_decimal_le (Nat.succ_pos 19) (by omega)

/-- **`convert` renders every integer exactly**: where 32 bytes are free it writes the canonical
numeral of any value of an integer type of at most 64 bits, and a NUL behind it. -/
theorem convert_exact {T : IntType} (hwidth : T.width ≤ 64) {value : ℤ} (hvalue : T.Holds value)
    {v : Bytes} {buf : ℕ} (hroom : buf + 32 ≤ v.length) :
    ∃ text, Canonical text value ∧ text.length ≤ 20 ∧
      convert v buf value =
        some (v.take buf ++ text ++ 0 :: v.drop (buf + text.length + 1), text.length) := by
  have hlength := length_numeral_le hwidth hvalue
  exact ⟨numeral value, canonical_numeral value, hlength, convert_eq value (by omega)⟩

/-- The least value of all. -/
theorem convert_exact_least : ∃ text, Canonical text (-2 ^ 63) ∧ text.length ≤ 20 ∧
    convert (List.replicate 40 7) 3 (-2 ^ 63) =
      some (List.replicate 3 7 ++ text ++ 0 :: List.drop (3 + text.length + 1)
        (List.replicate 40 7), text.length) :=
  convert_exact (T := ⟨64, true⟩) (by decide) (by simp [IntType.Holds]) (by decide)

end YxAlpha
