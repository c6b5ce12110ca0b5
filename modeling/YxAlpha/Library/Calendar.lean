import Mathlib.Data.Int.ConditionallyCompleteOrder
import Mathlib.Data.Prod.Lex
import Mathlib.Order.ConditionallyCompleteLattice.Basic
import Mathlib.Tactic.Ring

/-!
# The Gregorian calendar

Days are counted from the first of January 1970, and the rule for leap years is taken for all
years, before and after.  A date is a year, a month and a day of the month, the last two
counted from 0; dates are compared in this order, and `date` keeps the order of days.
-/

namespace Calendar

/-! ## Blocks -/

/-- The block in which a position lies, of blocks one behind the other, and the place in it. -/
def locate : List ℕ → ℕ → ℕ ×ₗ ℕ
  | [], n => toLex (0, n)
  | length :: lengths, n =>
      if n < length then toLex (0, n)
      else
        let place := ofLex (locate lengths (n - length))
        toLex (place.1 + 1, place.2)

theorem locate_strictMono (lengths : List ℕ) : StrictMono (locate lengths) := by
  induction lengths with
  | nil =>
      intro m n hlt
      exact Prod.Lex.toLex_lt_toLex.mpr (Or.inr ⟨rfl, hlt⟩)
  | cons length lengths ih =>
      intro m n hlt
      unfold locate
      by_cases hm : m < length
      · rw [if_pos hm]
        split
        · exact Prod.Lex.toLex_lt_toLex.mpr (Or.inr ⟨rfl, hlt⟩)
        · exact Prod.Lex.toLex_lt_toLex.mpr (Or.inl (Nat.succ_pos _))
      · have hn : ¬ n < length := by omega
        rw [if_neg hm, if_neg hn]
        have hlater := ih (show m - length < n - length by omega)
        rw [Prod.Lex.lt_iff] at hlater
        apply Prod.Lex.toLex_lt_toLex.mpr
        dsimp only
        omega

theorem locate_lt {lengths : List ℕ} {n : ℕ} (hn : n < lengths.sum) :
    (ofLex (locate lengths n)).1 < lengths.length ∧
      ∃ length ∈ lengths, (ofLex (locate lengths n)).2 < length := by
  induction lengths generalizing n with
  | nil => exact absurd hn (Nat.not_lt_zero n)
  | cons length lengths ih =>
      rw [List.sum_cons] at hn
      unfold locate
      split
      · exact ⟨Nat.succ_pos _, length, List.mem_cons_self, ‹_›⟩
      · obtain ⟨hblock, longer, hmem, hplace⟩ := ih (n := n - length) (by omega)
        exact ⟨Nat.succ_lt_succ hblock, longer, List.mem_cons_of_mem _ hmem, hplace⟩

/-! ## Years -/

def Leap (year : ℤ) : Prop := year % 4 = 0 ∧ (year % 100 ≠ 0 ∨ year % 400 = 0)

instance (year : ℤ) : Decidable (Leap year) := inferInstanceAs (Decidable (_ ∧ _))

def yearLength (year : ℤ) : ℕ := if Leap year then 366 else 365

/-- The first day of a year. -/
def newYear (year : ℤ) : ℤ :=
  365 * (year - 1970) + (year - 1) / 4 - (year - 1) / 100 + (year - 1) / 400 - 477

theorem newYear_succ (year : ℤ) : newYear (year + 1) = newYear year + yearLength year := by
  unfold newYear yearLength
  by_cases hleap : Leap year
  · rw [if_pos hleap]
    unfold Leap at hleap
    push_cast
    omega
  · rw [if_neg hleap]
    unfold Leap at hleap
    push_cast
    omega

theorem newYear_strictMono : StrictMono newYear := by
  apply strictMono_int_of_lt_succ
  intro year
  rw [newYear_succ]
  unfold yearLength
  split <;> omega

/-- The years that are over on a day, and the days of its own year. -/
structure Elapsed where
  era : ℤ
  centuries : ℤ
  fours : ℤ
  years : ℤ
  days : ℤ

namespace Elapsed

def year (e : Elapsed) : ℤ := 400 * e.era + 100 * e.centuries + 4 * e.fours + e.years + 1

/-- The days since the first of January 1. -/
def day (e : Elapsed) : ℤ :=
  146097 * e.era + 36524 * e.centuries + 1461 * e.fours + 365 * e.years + e.days

structure Proper (e : Elapsed) : Prop where
  centuries : 0 ≤ e.centuries ∧ e.centuries ≤ 3
  fours : 0 ≤ e.fours ∧ e.fours ≤ 24
  years : 0 ≤ e.years ∧ e.years ≤ 3
  days : 0 ≤ e.days ∧ e.days ≤ 365
  /-- A fourth year can have one more day, but not at the end of each century. -/
  long : e.days = 365 → e.years = 3 ∧ (e.fours < 24 ∨ e.centuries = 3)

theorem Proper.newYear {e : Elapsed} (he : e.Proper) :
    newYear e.year = e.day - e.days - 719162 := by
  obtain ⟨hcenturies, hfours, hyears, -, -⟩ := he
  unfold Calendar.newYear
  have hquarter : (e.year - 1) / 4 = 100 * e.era + 25 * e.centuries + e.fours := by
    unfold year
    omega
  have hhundredth : (e.year - 1) / 100 = 4 * e.era + e.centuries := by
    unfold year
    omega
  have hera : (e.year - 1) / 400 = e.era := by
    unfold year
    omega
  rw [hquarter, hhundredth, hera, year, day]
  ring

theorem Proper.days_lt {e : Elapsed} (he : e.Proper) : e.days < yearLength e.year := by
  unfold yearLength
  split
  · have := he.days
    push_cast
    omega
  · rename_i hleap
    have hshort : e.days ≠ 365 := by
      intro hlast
      obtain ⟨hyears, hcentury⟩ := he.long hlast
      have hfours := he.fours
      apply hleap
      unfold Leap year
      rw [hyears]
      refine ⟨by omega, ?_⟩
      rcases hcentury with hlt | hcenturies
      · exact Or.inl (by omega)
      · rw [hcenturies]
        omega
    have := he.days
    push_cast
    omega

end Elapsed

def elapsed (day : ℤ) : Elapsed :=
  let n := day + 719162
  let centuries := min (n % 146097 / 36524) 3
  let rest := n % 146097 - 36524 * centuries
  let years := min (rest % 1461 / 365) 3
  ⟨n / 146097, centuries, rest / 1461, years, rest % 1461 - 365 * years⟩

theorem elapsed_spec (day : ℤ) : (elapsed day).Proper ∧ (elapsed day).day = day + 719162 := by
  unfold elapsed Elapsed.day
  extract_lets n centuries rest years
  have hcenturies : 0 ≤ centuries ∧ centuries ≤ 3 ∧ 0 ≤ rest ∧ rest ≤ 36524 ∧
      (rest = 36524 → centuries = 3) := by omega
  have hyears : 0 ≤ years ∧ years ≤ 3 ∧ 0 ≤ rest % 1461 - 365 * years ∧
      rest % 1461 - 365 * years ≤ 365 ∧ (rest % 1461 - 365 * years = 365 → years = 3) := by omega
  have hday : 146097 * (n / 146097) + 36524 * centuries + rest = n := by omega
  clear_value centuries rest years
  dsimp only
  refine ⟨⟨⟨hcenturies.1, hcenturies.2.1⟩, ?_, ⟨hyears.1, hyears.2.1⟩, ?_, ?_⟩, ?_⟩
  · dsimp only
    omega
  · exact ⟨hyears.2.2.1, hyears.2.2.2.1⟩
  · dsimp only
    intro hlast
    exact ⟨hyears.2.2.2.2 hlast, by omega⟩
  · omega

/-- The year of a day. -/
def yearOf (day : ℤ) : ℤ := (elapsed day).year

theorem yearOf_spec (day : ℤ) : newYear (yearOf day) ≤ day ∧ day < newYear (yearOf day + 1) := by
  obtain ⟨hproper, hday⟩ := elapsed_spec day
  have hdays := hproper.days
  have hlt := hproper.days_lt
  have hstart := hproper.newYear
  rw [newYear_succ, yearOf]
  omega

theorem yearOf_mono : Monotone yearOf := by
  intro d e hle
  have hlt := (yearOf_spec d).1.trans_lt (hle.trans_lt (yearOf_spec e).2)
  have := newYear_strictMono.lt_iff_lt.mp hlt
  omega

/-! ## Dates -/

def monthLengths (year : ℤ) : List ℕ :=
  [31, if Leap year then 29 else 28, 31, 30, 31, 30, 31, 31, 30, 31, 30, 31]

theorem le_of_mem_monthLengths {year : ℤ} {length : ℕ} (h : length ∈ monthLengths year) :
    length ≤ 31 := by
  have hall : ∀ leap : Bool,
      ∀ length ∈ [31, if leap then 29 else 28, 31, 30, 31, 30, 31, 31, 30, 31, 30, 31],
        length ≤ 31 := by decide
  exact hall (decide (Leap year)) length (by simpa [monthLengths] using h)

theorem sum_monthLengths (year : ℤ) : (monthLengths year).sum = yearLength year := by
  unfold monthLengths yearLength
  split <;> rfl

/-- The year, the month and the day of the month. -/
def date (day : ℤ) : ℤ ×ₗ ℕ ×ₗ ℕ :=
  let year := yearOf day
  toLex (year, locate (monthLengths year) (day - newYear year).toNat)

theorem date_strictMono : StrictMono date := by
  intro d e hlt
  apply Prod.Lex.toLex_lt_toLex.mpr
  rcases (yearOf_mono hlt.le).lt_or_eq with hyear | hyear
  · exact Or.inl hyear
  · refine Or.inr ⟨hyear, ?_⟩
    have hfrom := (yearOf_spec d).1
    rw [← hyear]
    apply locate_strictMono
    omega

theorem date_lt (day : ℤ) :
    (ofLex (ofLex (date day)).2).1 < 12 ∧ (ofLex (ofLex (date day)).2).2 < 31 := by
  obtain ⟨hfrom, hto⟩ := yearOf_spec day
  rw [newYear_succ] at hto
  have hplace : (day - newYear (yearOf day)).toNat < (monthLengths (yearOf day)).sum := by
    rw [sum_monthLengths]
    omega
  obtain ⟨hmonth, length, hlength, hday⟩ := locate_lt hplace
  exact ⟨hmonth, hday.trans_le (le_of_mem_monthLengths hlength)⟩

end Calendar
