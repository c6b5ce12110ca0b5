import Mathlib.Data.List.Forall2
import YxAlpha.Logger.LogRecord
import YxAlpha.Time.Timestamp

/-!
# Records in the order of their times

A record begins with the formatted time of its `Logger`: the stream is empty when it is written,
and what is streamed later, or dropped, stands behind it.  So while years have four digits the
records, compared as texts, are in the order of their times, whatever has been logged
(`records_by_time`): to sort a log is to bring it in the order of time.
-/

namespace YxAlpha

namespace Logger

variable {F D : Type*} {P : Printf F D}

/-- What is streamed stands behind what has been. -/
theorem exec_prefix {s : LogStream} (h : s.Sound) {items : List (LogItem F D)}
    (hitems : ∀ item ∈ items, item.FloatShort P) (memory : Fin LogStream.kDefaultSize → UInt8) :
    ∃ t, (LogStream.machine P memory).exec s items = some t ∧ t.Sound ∧
      s.content <+: t.content := by
  induction items generalizing s with
  | nil => exact ⟨s, rfl, h, List.prefix_rfl⟩
  | cons item items ih =>
      rw [List.forall_mem_cons] at hitems
      obtain ⟨t, ht, hcontinued⟩ := LogStream.insert_eq h hitems.1
      obtain ⟨u, hu, hsound, hprefix⟩ := ih hcontinued.sound hitems.2
      refine ⟨u, by rw [Machine.exec, ← hu]; exact congrArg (Option.bind · _) ht, hsound, ?_⟩
      rw [hcontinued.content] at hprefix
      exact (List.prefix_append _ _).trans hprefix

/-- A record begins with its time. -/
theorem record_prefix (memory : Fin LogStream.kDefaultSize → UInt8) {time : CString}
    (htime : time.bytes.length < 4000) (fileName : CString) (line : Int32)
    {items : List (LogItem F D)} (hitems : ∀ item ∈ items, item.FloatShort P) :
    ∃ r, record P memory time fileName line items = some r ∧ time.bytes <+: r := by
  have hnew := LogStream.sound_new memory
  have hall : (LogStream.new memory).available = 4000 := hnew.available
  obtain ⟨s₁, hs₁, h₁⟩ := insertString_eq hnew time
  rw [fitting, hall, if_pos htime] at h₁
  obtain ⟨s₂, hs₂, h₂⟩ := insertString_eq h₁.sound ⟨ascii " ", by decide⟩
  obtain ⟨s₃, hs₃, h₃, hprefix⟩ := exec_prefix h₂.sound hitems memory
  have hlogged := logged_of_exec hs₁ hs₂ hs₃ fileName line
  obtain ⟨numbers, hdestroy, -⟩ := destroy_eq (l := ⟨s₃, line, fileName⟩) h₃ rfl rfl
  refine ⟨_, by rw [record, hlogged, Option.bind_some, hdestroy], ?_⟩
  have hempty : (LogStream.new memory).content = [] := List.take_zero
  rw [h₂.content, h₁.content, hempty, List.nil_append] at hprefix
  dsimp only
  simp only [List.append_assoc]
  exact ((List.prefix_append _ _).trans hprefix).trans (List.prefix_append _ _)

end Logger

/-! ## Entries with their times -/

/-- What `c_str` shows of a text. -/
def CString.ofText (text : Bytes) : CString :=
  ⟨text.takeWhile (· ≠ 0), fun h => by simpa using List.mem_takeWhile_imp h⟩

theorem CString.bytes_ofText {text : Bytes} (h : 0 ∉ text) : (ofText text).bytes = text := by
  refine List.takeWhile_eq_self_iff.mpr fun c hc => ?_
  rw [decide_eq_true_eq]
  rintro rfl
  exact h hc

/-- `LOG << items`, when and where it is executed. -/
structure Entry (F D : Type*) where
  memory : Fin LogStream.kDefaultSize → UInt8
  now : Timestamp
  fileName : CString
  line : Int32
  items : List (LogItem F D)

namespace Entry

variable {F D : Type*} (P : Printf F D)

/-- The record, with the time that the constructor of `Logger` asks for. -/
def record (e : Entry F D) : Option Bytes :=
  e.now.toFormattedString.bind fun time =>
  Logger.record P e.memory (CString.ofText time) e.fileName e.line e.items

/-- The year has four digits, and numbers are rendered as `%.12g` does. -/
structure Ordinary (e : Entry F D) : Prop where
  fourDigits : e.now.FourDigits
  floatShort : ∀ item ∈ e.items, item.FloatShort P

variable {P}

theorem record_eq {e : Entry F D} (h : e.Ordinary P) :
    ∃ rest, e.record P = some (Timestamp.partsText e.now.microSecondsSinceEpoch.toInt ++ rest) := by
  have hbytes := CString.bytes_ofText
    (Timestamp.zero_notMem_partsText e.now.microSecondsSinceEpoch.toInt)
  have hlength := Timestamp.fixedWidth_partsText.length _ h.fourDigits
  rw [← hbytes] at hlength ⊢
  obtain ⟨r, hr, rest, rfl⟩ := Logger.record_prefix e.memory (hlength.trans_lt (by decide))
    e.fileName e.line h.floatShort
  refine ⟨rest, ?_⟩
  rw [record, Timestamp.formatted_of_fourDigits h.fourDigits, Option.bind_some, hr]

/-- The times decide, since their texts have one length. -/
theorem record_lt {e f : Entry F D} (he : e.Ordinary P) (hf : f.Ordinary P) (hlt : e.now < f.now)
    {r s : Bytes} (hr : e.record P = some r) (hs : f.record P = some s) : r < s := by
  obtain ⟨u, hu⟩ := record_eq he
  obtain ⟨v, hv⟩ := record_eq hf
  rw [hr, Option.some_inj] at hu
  rw [hs, Option.some_inj] at hv
  have htimes := Timestamp.fixedWidth_partsText
  have hlength := (htimes.length _ he.fourDigits).trans (htimes.length _ hf.fourDigits).symm
  have htext := htimes.lt _ he.fourDigits _ hf.fourDigits (Int64.lt_iff_toInt_lt.mp hlt)
  rw [hu, hv]
  exact FixedWidth.append_lt_append hlength htext u v

end Entry

variable {F D : Type*} {P : Printf F D}

/-- Records that are in the order of texts, and entries that are in the order of times. -/
structure ByTime (entries : List (Entry F D)) (records : List Bytes) : Prop where
  sorted : records.Pairwise (· ≤ ·) → entries.Pairwise fun e f => ¬ f.now < e.now
  strict : (entries.Pairwise fun e f => e.now < f.now) → records.Pairwise (· < ·)

theorem records_by_time {entries : List (Entry F D)} (h : ∀ e ∈ entries, e.Ordinary P) :
    ∃ records, List.Forall₂ (fun e r => e.record P = some r) entries records ∧
      ByTime entries records := by
  have htext : ∀ e ∈ entries, e.record P = some ((e.record P).getD []) := by
    intro e he
    obtain ⟨rest, hrest⟩ := Entry.record_eq (h e he)
    rw [hrest, Option.getD_some]
  refine ⟨entries.map fun e => (e.record P).getD [], ?_, ?_, ?_⟩
  · rw [List.forall₂_map_right_iff, List.forall₂_same]
    exact htext
  · intro hsorted
    rw [List.pairwise_map] at hsorted
    refine hsorted.imp_of_mem fun {e f} he hf hle hlt => hle ?_
    exact Entry.record_lt (h f hf) (h e he) hlt (htext f hf) (htext e he)
  · intro hstrict
    rw [List.pairwise_map]
    refine hstrict.imp_of_mem fun {e f} he hf hlt => ?_
    exact Entry.record_lt (h e he) (h f hf) hlt (htext e he) (htext f hf)

/-- The later of two entries logs first. -/
def twoEntries : List (Entry UInt8 UInt8) :=
  [⟨fun _ => 7, ⟨1000000⟩, ⟨ascii "b.cc", by decide⟩, 7, [.int 3]⟩,
    ⟨fun _ => 0, ⟨999999⟩, ⟨ascii "a.cc", by decide⟩, 9, []⟩]

theorem records_by_time_two :
    ∃ records, List.Forall₂ (fun e r => e.record Printf.wholes = some r) twoEntries records ∧
      ByTime twoEntries records :=
  records_by_time (by
    simp only [twoEntries, List.forall_mem_cons, List.not_mem_nil]
    exact ⟨⟨⟨by decide, by decide⟩, by simp [LogItem.FloatShort]⟩,
      ⟨⟨by decide, by decide⟩, by simp⟩, by simp⟩)

end YxAlpha
