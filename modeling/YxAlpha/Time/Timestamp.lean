import Mathlib.Data.List.TakeWhile
import Mathlib.Order.Interval.Set.Basic
import YxAlpha.Library.Calendar
import YxAlpha.Library.FixedWidth
import YxAlpha.Logger.LogStream

/-!
# Time stamps

`Timestamp` of `time/timestamp.h`, as its two texts have it.  Both divide the microseconds as C++
does, towards zero, so before 1970 the remainder is negative and is printed with its sign.

The texts are not cut, and tell the time they are of; and from 1970 to 9999 formatted time
stamps, compared as texts, are in the order of their times (`texts_faithful`).
-/

namespace YxAlpha

/-! ## Numbers with a width -/

/-- `%0wd`; the zeros stand behind the sign. -/
def zeroPadded (width : ℕ) (value : ℤ) : Bytes :=
  let sign := if value < 0 then [minus] else []
  let number := decimal value.natAbs
  sign ++ List.replicate (width - sign.length - number.length) 48 ++ number

/-- `%wd`. -/
def spacePadded (width : ℕ) (value : ℤ) : Bytes :=
  List.replicate (width - (numeral value).length) 32 ++ numeral value

/-! ## The time stamp -/

/-- The parts of `struct tm` that are printed. -/
structure Tm where
  sec : ℤ
  min : ℤ
  hour : ℤ
  mday : ℤ
  mon : ℤ
  year : ℤ

/-- Hours, minutes and seconds. -/
def clock (seconds : ℕ) : ℕ ×ₗ ℕ ×ₗ ℕ :=
  toLex (seconds / 3600, toLex (seconds % 3600 / 60, seconds % 60))

def gmtime (time : ℤ) : Tm :=
  let date := ofLex (Calendar.date (time / 86400))
  let clock := ofLex (clock (time % 86400).toNat)
  { sec := (ofLex clock.2).2
    min := (ofLex clock.2).1
    hour := clock.1
    mday := (ofLex date.2).2 + 1
    mon := (ofLex date.2).1
    year := date.1 - 1900 }

/-- What a text leaves in an array of zeros, up to the first zero in it. -/
def printed (size : ℕ) (text : Bytes) : Option Bytes :=
  (LogStream.snprintf (List.replicate size 0) 0 size text).map fun (buf, _) => buf.takeWhile (· ≠ 0)

@[ext]
structure Timestamp where
  microSecondsSinceEpoch : Int64
  deriving DecidableEq

namespace Timestamp

def kMicroSecondsPerSecond : ℤ := 1000 * 1000

variable (t : Timestamp)

def seconds : ℤ := t.microSecondsSinceEpoch.toInt.tdiv kMicroSecondsPerSecond

def microsecondsRemainder : ℤ := t.microSecondsSinceEpoch.toInt.tmod kMicroSecondsPerSecond

/-- `"%ld.%06ld"` -/
def toString : Option Bytes :=
  printed 32 (numeral t.seconds ++ ascii "." ++ zeroPadded 6 t.microsecondsRemainder)

/-- `"%4d%02d%02d %02d:%02d:%02d.%06d"` -/
def toFormattedString : Option Bytes :=
  let time := gmtime t.seconds
  printed 32 (spacePadded 4 (time.year + 1900) ++ zeroPadded 2 (time.mon + 1) ++
    zeroPadded 2 time.mday ++ ascii " " ++ zeroPadded 2 time.hour ++ ascii ":" ++
    zeroPadded 2 time.min ++ ascii ":" ++ zeroPadded 2 time.sec ++ ascii "." ++
    zeroPadded 6 t.microsecondsRemainder)

end Timestamp

/-! ## What is printed -/

theorem printed_eq {size : ℕ} {text : Bytes} (hlength : text.length < size) (hzero : 0 ∉ text) :
    printed size text = some text := by
  have hroom : 0 + size ≤ (List.replicate size (0 : UInt8)).length := by
    rw [List.length_replicate, Nat.zero_add]
  rw [printed, LogStream.snprintf_eq hlength hroom, Option.map_some, List.take_zero,
    List.nil_append]
  dsimp only
  rw [List.takeWhile_append_of_pos]
  · simp
  · intro c hc
    simp only [decide_eq_true_eq]
    rintro rfl
    exact hzero hc

theorem length_zeroPadded (width : ℕ) (value : ℤ) :
    (zeroPadded width value).length = max width (numeral value).length := by
  unfold zeroPadded numeral
  split <;>
      simp only [List.length_append, List.length_replicate, List.length_cons, List.length_nil] <;>
    omega

theorem mem_zeroPadded {width : ℕ} {value : ℤ} {c : UInt8} (hc : c ∈ zeroPadded width value) :
    c = minus ∨ 48 ≤ c.toNat ∧ c.toNat ≤ 57 := by
  unfold zeroPadded at hc
  dsimp only at hc
  rw [List.mem_append, List.mem_append] at hc
  rcases hc with (hsign | hzeros) | hdigit
  · split at hsign
    · exact Or.inl (List.mem_singleton.mp hsign)
    · exact absurd hsign List.not_mem_nil
  · rw [List.eq_of_mem_replicate hzeros]
    exact Or.inr ⟨by decide, by decide⟩
  · exact Or.inr (mem_decimal hdigit)

/-- Zeros in front do not change what a numeral reads. -/
theorem readNumeral_zeroPadded (width : ℕ) (value : ℤ) :
    readNumeral (zeroPadded width value) = value := by
  have hfold : ∀ zeros, (List.replicate zeros (48 : UInt8) ++ decimal value.natAbs).foldl
      (fun value digit => 10 * value + (digit.toNat - 48)) 0 = value.natAbs := by
    intro zeros
    induction zeros with
    | zero => exact foldl_decimal _
    | succ zeros ih => exact ih
  unfold readNumeral zeroPadded unsigned
  by_cases hneg : value < 0
  · simp only [if_pos hneg, List.cons_append, List.nil_append, List.head?_cons, if_true,
      List.tail_cons, hfold]
    omega
  · have hhead : ∀ zeros, (List.replicate zeros (48 : UInt8) ++ decimal value.natAbs).head? ≠
        some minus := by
      intro zeros
      cases zeros with
      | zero => exact head?_decimal_ne_minus _
      | succ zeros => simp [List.replicate_succ, minus]
    simp only [if_neg hneg, List.nil_append, if_neg (hhead _), hfold]
    omega

theorem zeroPadded_injective (width : ℕ) : Function.Injective (zeroPadded width) := by
  intro v w h
  rw [← readNumeral_zeroPadded width v, h, readNumeral_zeroPadded]

theorem length_spacePadded (width : ℕ) (value : ℤ) :
    (spacePadded width value).length = max width (numeral value).length := by
  rw [spacePadded, List.length_append, List.length_replicate]
  omega

theorem mem_spacePadded {width : ℕ} {value : ℤ} {c : UInt8} (hc : c ∈ spacePadded width value) :
    c = 32 ∨ c = minus ∨ 48 ≤ c.toNat ∧ c.toNat ≤ 57 := by
  rcases List.mem_append.mp hc with hspace | hnumeral
  · exact Or.inl (List.eq_of_mem_replicate hspace)
  · exact Or.inr (mem_numeral hnumeral)

theorem spacePadded_injective (width : ℕ) : Function.Injective (spacePadded width) := by
  intro v w h
  have hnumeral : ∀ v, (spacePadded width v).dropWhile (· = 32) = numeral v := by
    intro v
    rw [spacePadded, List.dropWhile_append_of_pos (by simp)]
    rw [List.dropWhile_eq_self_iff]
    intro hpos
    rcases mem_numeral (List.getElem_mem hpos) with hsign | hdigit
    · simp [hsign, minus]
    · rw [Bool.not_eq_true, decide_eq_false_iff_not]
      intro hspace
      rw [hspace] at hdigit
      exact absurd hdigit.1 (by decide)
  have hsame : numeral v = numeral w := by rw [← hnumeral v, h, hnumeral w]
  rw [← (canonical_numeral v).reads, hsame, (canonical_numeral w).reads]

theorem length_numeral_le_succ {value : ℤ} {k : ℕ} (hk : 0 < k) (hvalue : value.natAbs < 10 ^ k) :
    (numeral value).length ≤ k + 1 := by
  have hdecimal := length_decimal_le hk hvalue
  unfold numeral
  split
  · exact Nat.succ_le_succ hdecimal
  · exact Nat.le_succ_of_le hdecimal

/-! ## The order of numbers -/

theorem zeroPadded_natCast (width n : ℕ) :
    zeroPadded width n = List.replicate (width - (decimal n).length) 48 ++ decimal n := by
  have hpos : ¬ (n : ℤ) < 0 := by omega
  simp [zeroPadded, hpos]

/-- The last digit stands behind the rest of a number. -/
theorem zeroPadded_succ {width : ℕ} (hwidth : 0 < width) {value : ℤ} (hvalue : 0 ≤ value) :
    zeroPadded (width + 1) value = zeroPadded width (value / 10) ++ zeroPadded 1 (value % 10) := by
  obtain ⟨n, rfl⟩ := Int.eq_ofNat_of_zero_le hvalue
  have hdigit : zeroPadded 1 ((n % 10 : ℕ) : ℤ) = [(48 + n % 10).toUInt8] := by
    rw [zeroPadded_natCast, decimal_of_lt (Nat.mod_lt _ (by decide))]
    rfl
  rw [show ((n : ℤ) / 10) = ((n / 10 : ℕ) : ℤ) by push_cast; rfl,
    show ((n : ℤ) % 10) = ((n % 10 : ℕ) : ℤ) by push_cast; rfl, hdigit, zeroPadded_natCast,
    zeroPadded_natCast]
  rcases Nat.lt_or_ge n 10 with hlt | hge
  · rw [decimal_of_lt hlt, Nat.div_eq_of_lt hlt, Nat.mod_eq_of_lt hlt, decimal_of_lt (by decide)]
    obtain ⟨zeros, rfl⟩ := Nat.exists_eq_succ_of_ne_zero hwidth.ne'
    simp [← List.replicate_succ']
  · rw [decimal_of_le hge, List.length_append, List.length_singleton, Nat.add_sub_add_right,
      List.append_assoc]

theorem fixedWidth_digit : FixedWidth (Set.Ico (0 : ℤ) 10) 1 (zeroPadded 1) := by
  have hdigit : ∀ n < 10, zeroPadded 1 (n : ℕ) = [(48 + n).toUInt8] := by
    intro n hn
    rw [zeroPadded_natCast, decimal_of_lt hn]
    rfl
  have hlt : ∀ n < 10, ∀ m < n, (48 + m).toUInt8 < (48 + n).toUInt8 := by decide
  have hnat : ∀ value ∈ Set.Ico (0 : ℤ) 10, ∃ n < 10, value = (n : ℕ) := by
    intro value hvalue
    obtain ⟨n, rfl⟩ := Int.eq_ofNat_of_zero_le hvalue.1
    exact ⟨n, by have := hvalue.2; omega, rfl⟩
  refine ⟨fun value hvalue => ?_, fun v hv w hw hvw => ?_⟩
  · obtain ⟨n, hn, rfl⟩ := hnat value hvalue
    rw [hdigit n hn]
    rfl
  · obtain ⟨m, hm, rfl⟩ := hnat v hv
    obtain ⟨n, hn, rfl⟩ := hnat w hw
    rw [hdigit m hm, hdigit n hn]
    exact List.cons_lt_cons_iff.mpr (Or.inl (hlt n hn m (by omega)))

theorem fixedWidth_zeroPadded {width : ℕ} (hwidth : 0 < width) :
    FixedWidth (Set.Ico (0 : ℤ) (10 ^ width)) width (zeroPadded width) := by
  induction width, hwidth using Nat.le_induction with
  | base => exact fixedWidth_digit
  | succ width hwidth ih =>
      have hparts := (FixedWidth.strictMono_divMod (k := 10) (by decide)).strictMonoOn
        (Set.Ico (0 : ℤ) (10 ^ (width + 1)))
      refine ((ih.pair fixedWidth_digit).comp hparts ?_).congr
        fun value hvalue => zeroPadded_succ hwidth hvalue.1
      intro value hvalue
      obtain ⟨hpos, hlt⟩ := hvalue
      rw [pow_succ] at hlt
      simp only [Set.mem_ofPred_eq, ofLex_toLex, Set.mem_Ico]
      omega

/-- A year of four digits is not padded. -/
theorem fixedWidth_year : FixedWidth (Set.Ico (1970 : ℤ) 10000) 4 (spacePadded 4) := by
  have hyears : Set.Ico (1970 : ℤ) 10000 ⊆ Set.Ico (0 : ℤ) (10 ^ 4) :=
    Set.Ico_subset_Ico (by decide) (by decide)
  have hsame : ∀ year ∈ Set.Ico (1970 : ℤ) 10000, spacePadded 4 year = zeroPadded 4 year := by
    intro year hyear
    obtain ⟨n, rfl⟩ := Int.eq_ofNat_of_zero_le (hyears hyear).1
    have hfour : 4 ≤ (decimal n).length := by
      by_contra hshort
      have hlt :=
        (Nat.length_toDigits_le_iff (b := 10) (n := n) (k := 3) (by decide) (by decide)).mp
        (by rw [decimal, List.length_map] at hshort; omega)
      have := hyear.1
      omega
    have hnumeral : numeral (n : ℤ) = decimal n := by
      have hpos : ¬ (n : ℤ) < 0 := by omega
      rw [numeral, if_neg hpos, Int.natAbs_natCast]
    rw [zeroPadded_natCast, spacePadded, hnumeral, Nat.sub_eq_zero_of_le hfour]
    rfl
  exact ((fixedWidth_zeroPadded (by decide)).mono hyears).congr hsame

/-! ## Days and clocks -/

/-- Month and day of the month, counted from 0, as `"%02d%02d"` prints them counted from 1. -/
def dayText (day : ℕ ×ₗ ℕ) : Bytes :=
  zeroPadded 2 ((ofLex day).1 + 1) ++ zeroPadded 2 ((ofLex day).2 + 1)

/-- `" %02d:%02d:%02d"` -/
def clockText (clock : ℕ ×ₗ ℕ ×ₗ ℕ) : Bytes :=
  ascii " " ++ (zeroPadded 2 (ofLex clock).1 ++
    (ascii ":" ++ (zeroPadded 2 (ofLex (ofLex clock).2).1 ++
      (ascii ":" ++ zeroPadded 2 (ofLex (ofLex clock).2).2))))

/-- Two digits of a count. -/
theorem fixedWidth_count (first : ℕ) :
    FixedWidth {n | n + first < 100} 2 fun n : ℕ => zeroPadded 2 ((n : ℤ) + first) := by
  refine (fixedWidth_zeroPadded (show 0 < 2 by decide)).comp
    (T := {n : ℕ | n + first < 100}) ?_ ?_
  · intro m _ n _ hlt
    dsimp only
    omega
  · intro n hn
    rw [Set.mem_ofPred_eq] at hn
    rw [Set.mem_Ico]
    dsimp only
    omega

def Days : Set (ℕ ×ₗ ℕ) := {day | (ofLex day).1 < 12 ∧ (ofLex day).2 < 31}

def Clocks : Set (ℕ ×ₗ ℕ ×ₗ ℕ) :=
  {clock | (ofLex clock).1 < 24 ∧ (ofLex (ofLex clock).2).1 < 60 ∧ (ofLex (ofLex clock).2).2 < 60}

theorem fixedWidth_dayText : FixedWidth Days 4 dayText := by
  refine ((fixedWidth_count 1).pair (fixedWidth_count 1)).mono ?_
  intro day hday
  simp only [Days, Set.mem_ofPred_eq] at hday ⊢
  omega

theorem fixedWidth_clockText : FixedWidth Clocks 9 clockText := by
  have hcount : FixedWidth {n | n < 100} 2 fun n : ℕ => zeroPadded 2 (n : ℤ) := by
    simpa using fixedWidth_count 0
  have hall := (hcount.pair ((hcount.pair (hcount.before (ascii ":"))).before (ascii ":"))).before
    (ascii " ")
  refine hall.mono ?_
  intro clock hclock
  simp only [Clocks, Set.mem_ofPred_eq] at hclock ⊢
  omega

theorem clock_strictMono : StrictMono clock := by
  intro m n hlt
  unfold clock
  rw [Prod.Lex.toLex_lt_toLex, Prod.Lex.toLex_lt_toLex]
  dsimp only
  omega

theorem clock_mem {seconds : ℕ} (h : seconds < 86400) : clock seconds ∈ Clocks := by
  simp only [Clocks, clock, Set.mem_ofPred_eq, ofLex_toLex]
  omega

/-- The year, the rest of the date and the time of day. -/
def moment (time : ℤ) : ℤ ×ₗ (ℕ ×ₗ ℕ) ×ₗ ℕ ×ₗ ℕ ×ₗ ℕ :=
  let date := ofLex (Calendar.date (time / 86400))
  toLex (date.1, toLex (date.2, clock (time % 86400).toNat))

theorem moment_strictMono : StrictMono moment := by
  intro s t hlt
  have hparts := FixedWidth.strictMono_divMod (k := 86400) (by decide) hlt
  rw [Prod.Lex.toLex_lt_toLex] at hparts
  dsimp only at hparts
  rw [moment, moment, Prod.Lex.toLex_lt_toLex]
  rcases hparts with hday | ⟨hday, hsecond⟩
  · rcases Prod.Lex.lt_iff.mp (Calendar.date_strictMono hday) with hyear | ⟨hyear, hrest⟩
    · exact Or.inl hyear
    · exact Or.inr ⟨hyear, Prod.Lex.toLex_lt_toLex.mpr (Or.inl hrest)⟩
  · rw [hday]
    exact Or.inr ⟨rfl, Prod.Lex.toLex_lt_toLex.mpr (Or.inr ⟨rfl, clock_strictMono (by omega)⟩)⟩

/-! ## Formatted times -/

def restText (rest : (ℕ ×ₗ ℕ) ×ₗ ℕ ×ₗ ℕ ×ₗ ℕ) : Bytes :=
  dayText (ofLex rest).1 ++ clockText (ofLex rest).2

/-- `"%4d%02d%02d %02d:%02d:%02d"` -/
def momentText (moment : ℤ ×ₗ (ℕ ×ₗ ℕ) ×ₗ ℕ ×ₗ ℕ ×ₗ ℕ) : Bytes :=
  spacePadded 4 (ofLex moment).1 ++ restText (ofLex moment).2

/-- The rest of the formatted time. -/
def fractionText (microseconds : ℤ) : Bytes := ascii "." ++ zeroPadded 6 microseconds

theorem fixedWidth_restText :
    FixedWidth {rest | (ofLex rest).1 ∈ Days ∧ (ofLex rest).2 ∈ Clocks} 13 restText :=
  fixedWidth_dayText.pair fixedWidth_clockText

theorem rest_mem (time : ℤ) : (ofLex (moment time)).2 ∈
    {rest : (ℕ ×ₗ ℕ) ×ₗ ℕ ×ₗ ℕ ×ₗ ℕ | (ofLex rest).1 ∈ Days ∧ (ofLex rest).2 ∈ Clocks} :=
  ⟨Calendar.date_lt _, clock_mem (by omega)⟩

theorem length_momentText (time : ℤ) : (momentText (moment time)).length =
    max 4 (numeral (Calendar.yearOf (time / 86400))).length + 13 := by
  rw [momentText, List.length_append, length_spacePadded,
    fixedWidth_restText.length _ (rest_mem time)]
  rfl

/-- No two moments have the same text. -/
theorem momentText_injective : Function.Injective fun time => momentText (moment time) := by
  intro s t h
  -- the year is what the text of the rest leaves
  obtain ⟨hyear, hrest⟩ := List.append_inj' h ((fixedWidth_restText.length _ (rest_mem s)).trans
    (fixedWidth_restText.length _ (rest_mem t)).symm)
  have hsame : ofLex (moment s) = ofLex (moment t) :=
    Prod.ext (spacePadded_injective 4 hyear)
      (fixedWidth_restText.injOn (rest_mem s) (rest_mem t) hrest)
  exact moment_strictMono.injective (ofLex.injective hsame)

theorem mem_momentText {moment : ℤ ×ₗ (ℕ ×ₗ ℕ) ×ₗ ℕ ×ₗ ℕ ×ₗ ℕ} {c : UInt8}
    (hc : c ∈ momentText moment) : c = 32 ∨ c = 58 ∨ c = minus ∨ 48 ≤ c.toNat ∧ c.toNat ≤ 57 := by
  have hspace : ascii " " = [32] := by decide
  have hcolon : ascii ":" = [58] := by decide
  simp only [momentText, restText, dayText, clockText, List.mem_append, hspace, hcolon,
    List.mem_singleton] at hc
  rcases hc with hyear | (hmonth | hday) | hspace | hhour | hcolon | hmin | hcolon | hsec
  · exact (mem_spacePadded hyear).imp_right Or.inr
  · exact Or.inr (Or.inr (mem_zeroPadded hmonth))
  · exact Or.inr (Or.inr (mem_zeroPadded hday))
  · exact Or.inl hspace
  · exact Or.inr (Or.inr (mem_zeroPadded hhour))
  · exact Or.inr (Or.inl hcolon)
  · exact Or.inr (Or.inr (mem_zeroPadded hmin))
  · exact Or.inr (Or.inl hcolon)
  · exact Or.inr (Or.inr (mem_zeroPadded hsec))

theorem mem_fractionText {microseconds : ℤ} {c : UInt8} (hc : c ∈ fractionText microseconds) :
    c = 46 ∨ c = minus ∨ 48 ≤ c.toNat ∧ c.toNat ≤ 57 := by
  have hdot : ascii "." = [46] := by decide
  rw [fractionText, hdot] at hc
  exact (List.mem_cons.mp hc).imp_right mem_zeroPadded

theorem zero_notMem_text (moment : ℤ ×ₗ (ℕ ×ₗ ℕ) ×ₗ ℕ ×ₗ ℕ ×ₗ ℕ) (microseconds : ℤ) :
    0 ∉ momentText moment ++ fractionText microseconds := by
  intro hzero
  rcases List.mem_append.mp hzero with h | h
  · exact absurd (mem_momentText h) (by decide)
  · exact absurd (mem_fractionText h) (by decide)

namespace Timestamp

variable (t : Timestamp)

theorem toFormattedString_def : t.toFormattedString =
    printed 32 (momentText (moment t.seconds) ++ fractionText t.microsecondsRemainder) := by
  have hyear : (gmtime t.seconds).year + 1900 = (ofLex (moment t.seconds)).1 := sub_add_cancel _ _
  rw [toFormattedString, hyear]
  refine congrArg (printed 32) ?_
  rw [momentText, restText, dayText, clockText, fractionText]
  simp only [List.append_assoc]
  rfl

theorem natAbs_seconds_le : t.seconds.natAbs ≤ 9223372036854 := by
  have hlow := t.microSecondsSinceEpoch.le_toInt
  have hhigh := t.microSecondsSinceEpoch.toInt_lt
  have hdiv := Int.natAbs_tdiv t.microSecondsSinceEpoch.toInt kMicroSecondsPerSecond
  change _ = t.microSecondsSinceEpoch.toInt.natAbs / 1000000 at hdiv
  rw [seconds, hdiv]
  omega

theorem natAbs_microsecondsRemainder_lt : t.microsecondsRemainder.natAbs < 1000000 := by
  have hmod := Int.natAbs_tmod t.microSecondsSinceEpoch.toInt kMicroSecondsPerSecond
  change _ = t.microSecondsSinceEpoch.toInt.natAbs % 1000000 at hmod
  rw [microsecondsRemainder, hmod]
  omega

theorem length_fractionText_le : (fractionText t.microsecondsRemainder).length ≤ 8 := by
  have hnumeral : (numeral t.microsecondsRemainder).length ≤ 7 :=
    length_numeral_le_succ (by decide) t.natAbs_microsecondsRemainder_lt
  rw [fractionText, List.length_append, length_zeroPadded]
  have hdot : (ascii ".").length = 1 := rfl
  omega

/-- The year has six digits at most. -/
theorem length_year_le : (numeral (Calendar.yearOf (t.seconds / 86400))).length ≤ 7 := by
  refine length_numeral_le_succ (by decide) ?_
  have hseconds := t.natAbs_seconds_le
  have hfirst : -300000 ≤ Calendar.yearOf (-106751992) := by decide
  have hlast : Calendar.yearOf 106751992 ≤ 300000 := by decide
  have hlow := Calendar.yearOf_mono (show -106751992 ≤ t.seconds / 86400 by omega)
  have hhigh := Calendar.yearOf_mono (show t.seconds / 86400 ≤ 106751992 by omega)
  omega

/-- The formatted time is not cut. -/
theorem toFormattedString_eq : t.toFormattedString =
    some (momentText (moment t.seconds) ++ fractionText t.microsecondsRemainder) := by
  rw [toFormattedString_def]
  apply printed_eq
  · have hyear := t.length_year_le
    have hfraction := t.length_fractionText_le
    rw [List.length_append, length_momentText]
    omega
  · exact zero_notMem_text _ _

theorem toString_eq :
    t.toString = some (numeral t.seconds ++ fractionText t.microsecondsRemainder) := by
  have hassoc : numeral t.seconds ++ ascii "." ++ zeroPadded 6 t.microsecondsRemainder =
      numeral t.seconds ++ fractionText t.microsecondsRemainder := List.append_assoc _ _ _
  rw [toString, hassoc]
  apply printed_eq
  · have hseconds := length_numeral_le_succ (k := 13) (by decide)
      (t.natAbs_seconds_le.trans_lt (by decide))
    have hfraction := t.length_fractionText_le
    rw [List.length_append]
    omega
  · intro hzero
    rcases List.mem_append.mp hzero with h | h
    · exact absurd (mem_numeral h) (by decide)
    · exact absurd (mem_fractionText h) (by decide)

/-- A time is the seconds and what remains. -/
theorem eq_of_parts {t u : Timestamp} (hseconds : t.seconds = u.seconds)
    (hremainder : t.microsecondsRemainder = u.microsecondsRemainder) : t = u := by
  have hparts : ∀ t : Timestamp, kMicroSecondsPerSecond * t.seconds + t.microsecondsRemainder =
      t.microSecondsSinceEpoch.toInt := fun t => Int.mul_tdiv_add_tmod _ _
  have hint : t.microSecondsSinceEpoch.toInt = u.microSecondsSinceEpoch.toInt := by
    rw [← hparts t, ← hparts u, hseconds, hremainder]
  exact Timestamp.ext (Int64.toInt_inj.mp hint)

/-- The fraction begins at the dot. -/
theorem fractionText_inj {x y : Bytes} {v w : ℤ} (hx : 46 ∉ x)
    (h : x ++ fractionText v = y ++ fractionText w) : x = y ∧ v = w := by
  have hdot : ascii "." = [46] := by decide
  have hdigits : (46 : UInt8) ∉ zeroPadded 6 v := fun hmem =>
      absurd (mem_zeroPadded hmem) (by decide)
  rw [fractionText, fractionText, hdot] at h
  obtain ⟨hfront, -, hback⟩ := (List.append_cons_inj_of_notMem hx hdigits).mp h
  exact ⟨hfront, zeroPadded_injective 6 hback⟩

/-! ## The order of times -/

/-- `operator<`. -/
instance : LT Timestamp := ⟨fun t u => t.microSecondsSinceEpoch < u.microSecondsSinceEpoch⟩

/-- The years 1970 to 9999. -/
def FourDigits : Prop :=
  0 ≤ t.microSecondsSinceEpoch.toInt ∧ t.microSecondsSinceEpoch.toInt < 253402300800000000

/-- A moment of these years. -/
def Moments : Set (ℤ ×ₗ (ℕ ×ₗ ℕ) ×ₗ ℕ ×ₗ ℕ ×ₗ ℕ) :=
  {m | (ofLex m).1 ∈ Set.Ico (1970 : ℤ) 10000 ∧ (ofLex m).2 ∈
    {rest : (ℕ ×ₗ ℕ) ×ₗ ℕ ×ₗ ℕ ×ₗ ℕ | (ofLex rest).1 ∈ Days ∧ (ofLex rest).2 ∈ Clocks}}

theorem fixedWidth_momentText : FixedWidth Moments 17 momentText :=
  fixedWidth_year.pair fixedWidth_restText

theorem fixedWidth_fractionText : FixedWidth (Set.Ico (0 : ℤ) (10 ^ 6)) 7 fractionText := by
  have hdot : (ascii ".").length = 1 := rfl
  have hfraction := (fixedWidth_zeroPadded (show 0 < 6 by decide)).before (ascii ".")
  rw [hdot] at hfraction
  exact hfraction

theorem moment_mem {time : ℤ} (hpos : 0 ≤ time) (hlt : time < 253402300800) :
    moment time ∈ Moments := by
  have hfirst : 1970 ≤ Calendar.yearOf 0 := by decide
  have hlast : Calendar.yearOf 2932896 < 10000 := by decide
  have hlow := Calendar.yearOf_mono (show 0 ≤ time / 86400 by omega)
  have hhigh := Calendar.yearOf_mono (show time / 86400 ≤ 2932896 by omega)
  exact ⟨⟨hfirst.trans hlow, hhigh.trans_lt hlast⟩, rest_mem _⟩

/-- Seconds and microseconds. -/
def parts (x : ℤ) : (ℤ ×ₗ (ℕ ×ₗ ℕ) ×ₗ ℕ ×ₗ ℕ ×ₗ ℕ) ×ₗ ℤ :=
  toLex (moment (x / 1000000), x % 1000000)

theorem parts_strictMono : StrictMono parts := by
  intro x y hlt
  have hdivMod := FixedWidth.strictMono_divMod (k := 1000000) (by decide) hlt
  rw [Prod.Lex.toLex_lt_toLex] at hdivMod
  rw [parts, parts, Prod.Lex.toLex_lt_toLex]
  exact hdivMod.imp (fun h => moment_strictMono h) fun h => ⟨congrArg moment h.1, h.2⟩

theorem parts_mapsTo : Set.MapsTo parts (Set.Ico (0 : ℤ) 253402300800000000)
    {p | (ofLex p).1 ∈ Moments ∧ (ofLex p).2 ∈ Set.Ico (0 : ℤ) (10 ^ 6)} := by
  intro x hx
  obtain ⟨hpos, hlt⟩ := hx
  refine ⟨moment_mem (by omega) (by omega), ?_⟩
  rw [Set.mem_Ico, parts, ofLex_toLex]
  omega

/-- Microseconds as they are printed in these years. -/
def partsText (x : ℤ) : Bytes :=
  momentText (ofLex (parts x)).1 ++ fractionText (ofLex (parts x)).2

theorem zero_notMem_partsText (x : ℤ) : 0 ∉ partsText x := zero_notMem_text _ _

theorem fixedWidth_partsText :
    FixedWidth (Set.Ico (0 : ℤ) 253402300800000000) 24 partsText :=
  (fixedWidth_momentText.pair fixedWidth_fractionText).comp (parts_strictMono.strictMonoOn _)
    parts_mapsTo

theorem formatted_of_fourDigits {t : Timestamp} (ht : t.FourDigits) :
    t.toFormattedString = some (partsText t.microSecondsSinceEpoch.toInt) := by
  have hseconds : t.seconds = t.microSecondsSinceEpoch.toInt / 1000000 :=
    Int.tdiv_eq_ediv_of_nonneg ht.1
  have hremainder : t.microsecondsRemainder = t.microSecondsSinceEpoch.toInt % 1000000 :=
    Int.tmod_eq_emod_of_nonneg ht.1
  rw [toFormattedString_eq, hseconds, hremainder]
  rfl

/-- What the texts of two times tell of them. -/
structure TextsFaithful (t u : Timestamp) : Prop where
  string : t.toString = u.toString ↔ t = u
  formatted : t.toFormattedString = u.toFormattedString ↔ t = u
  /-- In the years of four digits formatted times have one length, and are in order. -/
  order : t.FourDigits → u.FourDigits → ∃ x y, t.toFormattedString = some x ∧
    u.toFormattedString = some y ∧ x.length = 24 ∧ y.length = 24 ∧ (x < y ↔ t < u)

theorem texts_faithful (t u : Timestamp) : TextsFaithful t u where
  string := by
    refine ⟨fun h => ?_, congrArg _⟩
    rw [toString_eq, toString_eq, Option.some_inj] at h
    have hdot : 46 ∉ numeral t.seconds := fun hmem => absurd (mem_numeral hmem) (by decide)
    obtain ⟨hseconds, hremainder⟩ := fractionText_inj hdot h
    refine eq_of_parts ?_ hremainder
    rw [← (canonical_numeral t.seconds).reads, hseconds, (canonical_numeral u.seconds).reads]
  formatted := by
    refine ⟨fun h => ?_, congrArg _⟩
    rw [toFormattedString_eq, toFormattedString_eq, Option.some_inj] at h
    have hdot : 46 ∉ momentText (moment t.seconds) :=
      fun hmem => absurd (mem_momentText hmem) (by decide)
    obtain ⟨hmoment, hremainder⟩ := fractionText_inj hdot h
    exact eq_of_parts (momentText_injective hmoment) hremainder
  order ht hu := by
    refine ⟨_, _, formatted_of_fourDigits ht, formatted_of_fourDigits hu,
      fixedWidth_partsText.length _ ht, fixedWidth_partsText.length _ hu, ?_⟩
    rw [fixedWidth_partsText.lt_iff_lt ht hu]
    exact Int64.lt_iff_toInt_lt.symm

end Timestamp

end YxAlpha
