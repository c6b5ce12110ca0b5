import Mathlib.Data.List.Infix
import Mathlib.Data.List.Basic
import Mathlib.Data.List.Count

/-!
# Words that do not end a line

A line `m ++ x ++ y` that should end with `x ++ z`.  If `z` is no end of what has come instead
of it, then the two words overlap, and the letters of `z` have to be found in `x` or in `m`.  A
letter that `z` does not have rules this out, if `x` begins with it (`not_suffix_shifted`) or the
line has it where `z` should begin (`not_suffix_behind`).
-/

namespace Suffix

variable {α : Type*} {a : α} {m x y z : List α}

/-- What is a suffix behind `y` and no part of it reaches further. -/
theorem exists_of_suffix_append (hy : ¬ z <:+ y) (h : x ++ z <:+ m ++ y) :
    ∃ w, w ≠ [] ∧ z = w ++ y ∧ x ++ w <:+ m := by
  rcases List.suffix_or_suffix_of_suffix ((List.suffix_append x z).trans h)
    (List.suffix_append m y) with hzy | ⟨w, hw⟩
  · exact absurd hzy hy
  · subst hw
    refine ⟨w, ?_, rfl, ?_⟩
    · rintro rfl
      exact hy List.suffix_rfl
    · rw [← List.append_assoc] at h
      exact (List.suffix_append_inj_of_length_eq rfl).mp h |>.1

/-- A word that begins with `a` is not found again behind letters other than `a`. -/
theorem not_suffix_shifted [DecidableEq α] (hx : x.head? = some a) (hz : a ∉ z) (hy : ¬ z <:+ y) :
    ¬ x ++ z <:+ m ++ x ++ y := by
  intro h
  obtain ⟨w, hne, rfl, hw⟩ := exists_of_suffix_append hy h
  -- both `x` and `x ++ w` end where `m ++ x` does, and `x` is the shorter one
  obtain ⟨u, hu⟩ : x <:+ x ++ w := by
    rcases List.suffix_or_suffix_of_suffix hw (List.suffix_append m x) with hxw | hxw
    · have hlength := hxw.length_le
      rw [List.length_append] at hlength
      exact absurd (List.eq_nil_of_length_eq_zero (by omega)) hne
    · exact hxw
  -- so `u` has the letters of `w`, among which there is no `a`, but begins as `x` does
  have hcount : u.count a = w.count a := by
    have := congrArg (List.count a) hu
    rw [List.count_append, List.count_append] at this
    omega
  have hnone : w.count a = 0 :=
    List.count_eq_zero.mpr fun ha => hz (List.mem_append_left _ ha)
  cases u with
  | nil => exact hne (List.append_right_eq_self.mp hu.symm)
  | cons b u =>
      obtain rfl : b = a := by
        cases x with
        | nil => cases hx
        | cons c x =>
            cases hx
            exact (List.cons.inj hu).1
      rw [List.count_cons_self] at hcount
      omega

/-- A word without `a` does not end where an `a` stands. -/
theorem not_suffix_behind (hz : a ∉ z) (hy : ¬ z <:+ y) (hm : m.getLast? = some a) :
    ¬ x ++ z <:+ m ++ y := by
  intro h
  obtain ⟨w, hne, rfl, hw⟩ := exists_of_suffix_append hy h
  have hlast : w.getLast? = some a := by
    obtain ⟨v, rfl⟩ := (List.suffix_append x w).trans hw
    rwa [List.getLast?_append_of_ne_nil _ hne] at hm
  exact hz (List.mem_append_left _ (List.mem_of_getLast? hlast))

end Suffix
