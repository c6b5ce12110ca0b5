import YxAlpha.Library.Suffix
import YxAlpha.Logger.LogStream

/-!
# Log records

A `Logger` streams the time into its line, lets the user of `LOG` stream what he likes, and its
destructor puts file and line number behind that, through the same stream that drops what does
not fit.

The colon between the two is a `char`, for which there is no overload: it is promoted to `int`
and written as the number 58.  So a record is not complete, as long as more than four bytes are
free when `~Logger` begins.  With fewer, the dashes and both numbers are dropped, and the record
is complete only if the user has already logged the rest of it (`record_complete_iff`).
-/

namespace YxAlpha

structure Logger where
  stream : LogStream
  line : Int32
  baseName : CString

namespace Logger

/-- The constructor; `time` is what `ToFormattedString` returns. -/
def new (memory : Fin LogStream.kDefaultSize → UInt8) (time fileName : CString) (line : Int32) :
    Option Logger :=
  ((LogStream.new memory).insertString (some time)).bind fun s =>
  (s.insertString (some ⟨ascii " ", by decide⟩)).map fun s => ⟨s, line, fileName⟩

/-- `~Logger`, with the record it hands to `AsyncLogging::Append`. -/
def destroy (l : Logger) : Option Bytes :=
  (l.stream.insertString (some ⟨ascii " -- ", by decide⟩)).bind fun s =>
  (s.insertString (some l.baseName)).bind fun s =>
  -- `':'` selects `operator<<(int)`
  (s.insertInt 58).bind fun s =>
  (s.insertInt l.line).bind fun s =>
  (s.insertString (some ⟨ascii "\n", by decide⟩)).map LogStream.content

variable {F D : Type*} (P : Printf F D)

/-- The logger of `LOG << items`, when its destructor begins. -/
def logged (memory : Fin LogStream.kDefaultSize → UInt8) (time fileName : CString) (line : Int32)
    (items : List (LogItem F D)) : Option Logger :=
  (new memory time fileName line).bind fun l =>
  ((LogStream.machine P memory).exec l.stream items).map fun s => { l with stream := s }

/-- `LOG << items`. -/
def record (memory : Fin LogStream.kDefaultSize → UInt8) (time fileName : CString) (line : Int32)
    (items : List (LogItem F D)) : Option Bytes :=
  (logged P memory time fileName line items).bind destroy

/-- Where a record comes from. -/
def origin (fileName : CString) (line : Int32) : Bytes :=
  ascii " -- " ++ fileName.bytes ++ (ascii ":" ++ numeral line.toInt ++ ascii "\n")

/-- What is written of a text that `free` bytes are left for. -/
def fitting (free : ℕ) (text : Bytes) : Bytes := if text.length < free then text else []

/-- At most four bytes are free, and with the file name and the newline, where these still fit,
what has been logged ends as the record should. -/
def EndsAlready (l : Logger) : Prop :=
  let free := l.stream.available
  let name := fitting free l.baseName.bytes
  free ≤ 4 ∧ origin l.baseName l.line <:+
    l.stream.content ++ name ++ fitting (free - name.length) (ascii "\n")

/-! ## The destructor -/

/-- A numeral contains nothing but a sign and digits. -/
theorem notMem_numeral {c : UInt8} (hc : ¬ (c = minus ∨ 48 ≤ c.toNat ∧ c.toNat ≤ 57))
    (value : ℤ) : c ∉ numeral value :=
  fun h => hc (mem_numeral h)

/-- A text that is streamed, if it still fits. -/
theorem insertString_eq {s : LogStream} (h : s.Sound) (value : CString) :
    ∃ t, s.insertString (some value) = some t ∧
      s.Continued (fitting s.available value.bytes) t := by
  obtain ⟨t, ht, hcontinued⟩ := LogStream.append_eq h value.bytes
  refine ⟨t, ht, ?_⟩
  unfold fitting
  split
  · rename_i hroom
    rwa [if_neg (Nat.not_le.mpr hroom)] at hcontinued
  · rename_i hfull
    rwa [if_pos (Nat.not_lt.mp hfull)] at hcontinued

theorem length_fitting_le (free : ℕ) (text : Bytes) :
    (fitting free text).length ≤ text.length := by
  unfold fitting
  split
  · exact Nat.le_refl _
  · exact Nat.zero_le _

theorem available_continued {s t : LogStream} {text : Bytes} (hs : s.Sound)
    (h : s.Continued text t) : t.available = s.available - text.length := by
  have hlength := congrArg List.length h.content
  rw [List.length_append, h.sound.length_content, hs.length_content] at hlength
  rw [h.sound.available, hs.available]
  omega

theorem insertInt_eq {s : LogStream} (h : s.Sound) (value : Int32) :
    ∃ t text, s.insertInt value = some t ∧ s.Continued text t ∧ 58 ∉ text ∧
      (s.available < 32 → text = []) := by
  obtain ⟨t, ht, hcontinued⟩ :=
    LogStream.formatInteger_eq h (by decide) (LogStream.holds_int value)
  refine ⟨t, _, ht, hcontinued, ?_, fun hfull => if_pos hfull⟩
  split
  · exact List.not_mem_nil
  · exact notMem_numeral (by decide) _

/-- What `~Logger` writes: the dashes and the name if they fit, then no colon, and numbers only
where 32 bytes are left. -/
theorem destroy_eq {l : Logger} (h : l.stream.Sound) {dashes name : Bytes}
    (hdashes : dashes = fitting l.stream.available (ascii " -- "))
    (hname : name = fitting (l.stream.available - dashes.length) l.baseName.bytes) :
    ∃ numbers,
      l.destroy = some (l.stream.content ++ dashes ++ name ++ numbers ++
        fitting (l.stream.available - dashes.length - name.length - numbers.length)
          (ascii "\n")) ∧
      58 ∉ numbers ∧
      (l.stream.available - dashes.length - name.length < 32 → numbers = []) := by
  obtain ⟨s₁, hs₁, h₁⟩ := insertString_eq h ⟨ascii " -- ", by decide⟩
  have hfree₁ := available_continued h h₁
  obtain ⟨s₂, hs₂, h₂⟩ := insertString_eq h₁.sound l.baseName
  have hfree₂ := available_continued h₁.sound h₂
  obtain ⟨s₃, colon, hs₃, h₃, hcolon, hfull₃⟩ := insertInt_eq h₂.sound 58
  have hfree₃ := available_continued h₂.sound h₃
  obtain ⟨s₄, line, hs₄, h₄, hline, hfull₄⟩ := insertInt_eq h₃.sound l.line
  have hfree₄ := available_continued h₃.sound h₄
  obtain ⟨s₅, hs₅, h₅⟩ := insertString_eq h₄.sound ⟨ascii "\n", by decide⟩
  rw [← hdashes] at h₁ hfree₁
  rw [hfree₁, ← hname] at h₂ hfree₂
  refine ⟨colon ++ line, ?_, ?_, ?_⟩
  · rw [destroy, hs₁, Option.bind_some, hs₂, Option.bind_some, hs₃, Option.bind_some, hs₄,
      Option.bind_some, hs₅, Option.map_some, h₅.content, h₄.content, h₃.content, h₂.content,
      h₁.content, hfree₄, hfree₃, hfree₂, List.length_append, Nat.sub_sub _ colon.length]
    simp only [List.append_assoc]
  · intro hmem
    rcases List.mem_append.mp hmem with hmem | hmem
    · exact hcolon hmem
    · exact hline hmem
  · intro hfull
    rw [hfull₃ (by omega), hfull₄ (by omega)]
    rfl

/-- With room for the dashes, the record is not complete. -/
theorem incomplete_of_free {l : Logger} (h : l.stream.Sound) (hfree : 4 < l.stream.available) :
    ∃ r, l.destroy = some r ∧ ¬ origin l.baseName l.line <:+ r := by
  have hdashes : fitting l.stream.available (ascii " -- ") = ascii " -- " := if_pos hfree
  obtain ⟨numbers, hdestroy, hcolon, -⟩ := destroy_eq h hdashes.symm rfl
  refine ⟨_, hdestroy, ?_⟩
  set name := fitting (l.stream.available - (ascii " -- ").length) l.baseName.bytes with hname
  set newline := fitting _ (ascii "\n") with hnewline
  have hspace : 32 ∉ ascii ":" ++ numeral l.line.toInt ++ ascii "\n" := by
    intro hmem
    rcases List.mem_append.mp hmem with hmem | hmem
    · rcases List.mem_append.mp hmem with hmem | hmem
      · exact absurd hmem (by decide)
      · exact notMem_numeral (by decide) _ hmem
    · exact absurd hmem (by decide)
  -- the colon is written as digits, and no other byte behind the name is one
  have hbehind : ¬ ascii ":" ++ numeral l.line.toInt ++ ascii "\n" <:+ numbers ++ newline := by
    intro hsuffix
    have hmem : 58 ∈ numbers ++ newline :=
      hsuffix.subset (List.mem_append_left _ (List.mem_append_left _ (by decide)))
    rcases List.mem_append.mp hmem with hmem | hmem
    · exact hcolon hmem
    · rw [hnewline, fitting] at hmem
      split at hmem
      · exact absurd hmem (by decide)
      · exact List.not_mem_nil hmem
  rw [List.append_assoc _ numbers, origin]
  by_cases hkept : l.baseName.bytes.length < l.stream.available - (ascii " -- ").length
  · rw [hname, fitting, if_pos hkept, List.append_assoc l.stream.content]
    -- the dashes of the record begin with a space, and there is none behind its name
    exact Suffix.not_suffix_shifted rfl hspace hbehind
  · rw [hname, fitting, if_neg hkept, List.append_nil]
    -- the line has a space where the record has its name
    exact Suffix.not_suffix_behind hspace hbehind (by rw [List.getLast?_append]; rfl)

/-- With no room for the dashes, it is if it ends already. -/
theorem complete_iff_of_full {l : Logger} (h : l.stream.Sound) (hfree : l.stream.available ≤ 4) :
    ∃ r, l.destroy = some r ∧ (origin l.baseName l.line <:+ r ↔ l.EndsAlready) := by
  have hdashes : fitting l.stream.available (ascii " -- ") = [] := if_neg (Nat.not_lt.mpr hfree)
  obtain ⟨numbers, hdestroy, -, hfull⟩ := destroy_eq h hdashes.symm rfl
  rw [List.length_nil, Nat.sub_zero] at hdestroy hfull
  rw [hfull (by omega), List.append_nil, List.append_nil, List.length_nil, Nat.sub_zero]
    at hdestroy
  exact ⟨_, hdestroy, (and_iff_right hfree).symm⟩

/-! ## Whole records -/

variable {F D : Type*} {P : Printf F D}

/-- What the rendering of the items takes at most. -/
def room (P : Printf F D) (items : List (LogItem F D)) : ℕ :=
  (items.map fun item => (item.render P).length).sum

theorem exec_eq {s : LogStream} (h : s.Sound) {items : List (LogItem F D)}
    (hitems : ∀ item ∈ items, item.FloatShort P)
    (memory : Fin LogStream.kDefaultSize → UInt8) :
    ∃ t, (LogStream.machine P memory).exec s items = some t ∧ t.Sound ∧
      s.available ≤ t.available + room P items := by
  induction items generalizing s with
  | nil => exact ⟨s, rfl, h, Nat.le_refl _⟩
  | cons item items ih =>
      rw [List.forall_mem_cons] at hitems
      obtain ⟨t, ht, hcontinued⟩ := LogStream.insert_eq h hitems.1
      obtain ⟨u, hu, hsound, hroom⟩ := ih hcontinued.sound hitems.2
      refine ⟨u, by rw [Machine.exec, ← hu]; exact congrArg (Option.bind · _) ht, hsound, ?_⟩
      have hfree := available_continued h hcontinued
      have hsum : room P (item :: items) = (item.render P).length + room P items :=
        List.sum_cons
      split at hfree
      · rw [List.length_nil] at hfree
        omega
      · omega

theorem logged_of_exec {memory : Fin LogStream.kDefaultSize → UInt8} {time : CString}
    {s₁ s₂ s₃ : LogStream} {items : List (LogItem F D)}
    (h₁ : (LogStream.new memory).insertString (some time) = some s₁)
    (h₂ : s₁.insertString (some ⟨ascii " ", by decide⟩) = some s₂)
    (h₃ : (LogStream.machine P memory).exec s₂ items = some s₃) (fileName : CString)
    (line : Int32) : logged P memory time fileName line items = some ⟨s₃, line, fileName⟩ := by
  rw [logged, new, h₁, Option.bind_some, h₂, Option.map_some, Option.bind_some]
  dsimp only
  rw [h₃, Option.map_some]

/-- The logger when its destructor begins. -/
theorem logged_eq (memory : Fin LogStream.kDefaultSize → UInt8) (time fileName : CString)
    (line : Int32) {items : List (LogItem F D)} (hitems : ∀ item ∈ items, item.FloatShort P) :
    ∃ l, logged P memory time fileName line items = some l ∧ l.stream.Sound ∧
      l.baseName = fileName ∧ l.line = line ∧
      4000 ≤ l.stream.available + (time.bytes.length + 1 + room P items) := by
  have hnew := LogStream.sound_new memory
  obtain ⟨s₁, hs₁, h₁⟩ := insertString_eq hnew time
  have hfree₁ := available_continued hnew h₁
  obtain ⟨s₂, hs₂, h₂⟩ := insertString_eq h₁.sound ⟨ascii " ", by decide⟩
  have hfree₂ := available_continued h₁.sound h₂
  obtain ⟨s₃, hs₃, h₃, hroom⟩ := exec_eq h₂.sound hitems memory
  have htime := length_fitting_le (LogStream.new memory).available time.bytes
  have hspace := length_fitting_le s₁.available (ascii " ")
  have hall : (LogStream.new memory).available = 4000 := hnew.available
  refine ⟨_, logged_of_exec hs₁ hs₂ hs₃ fileName line, h₃, rfl, rfl, ?_⟩
  have hone : (ascii " ").length = 1 := rfl
  dsimp only at hfree₂ ⊢
  omega

/-- A short record is not complete. -/
theorem incomplete_of_room (memory : Fin LogStream.kDefaultSize → UInt8)
    (time fileName : CString) (line : Int32) {items : List (LogItem F D)}
    (hitems : ∀ item ∈ items, item.FloatShort P)
    (hroom : time.bytes.length + 1 + room P items < 3996) :
    ∃ r, record P memory time fileName line items = some r ∧
      ¬ origin fileName line <:+ r := by
  obtain ⟨l, hl, hsound, rfl, rfl, hfree⟩ := logged_eq memory time fileName line hitems
  obtain ⟨r, hr, hincomplete⟩ := incomplete_of_free hsound (by omega)
  exact ⟨r, by rw [record, hl, Option.bind_some, hr], hincomplete⟩

/-- A record of one text behind an empty time stamp. -/
theorem logged_text (memory : Fin LogStream.kDefaultSize → UInt8) (fileName : CString)
    (line : Int32) {text : CString} (htext : text.bytes.length < 3999) :
    ∃ l, logged P memory ⟨[], List.not_mem_nil⟩ fileName line [.string (some text)] = some l ∧
      l.stream.available = 3999 - text.bytes.length ∧
      l.stream.content = ascii " " ++ text.bytes ∧ l.baseName = fileName ∧ l.line = line := by
  have hnew := LogStream.sound_new memory
  have hall : (LogStream.new memory).available = 4000 := hnew.available
  obtain ⟨s₁, hs₁, h₁⟩ := insertString_eq hnew ⟨[], List.not_mem_nil⟩
  rw [fitting, hall, if_pos (by decide)] at h₁
  have hfree₁ : s₁.available = 4000 := (available_continued hnew h₁).trans hall
  obtain ⟨s₂, hs₂, h₂⟩ := insertString_eq h₁.sound ⟨ascii " ", by decide⟩
  rw [fitting, hfree₁, if_pos (by decide)] at h₂
  have hfree₂ : s₂.available = 3999 := by
    rw [available_continued h₁.sound h₂, hfree₁]
    rfl
  obtain ⟨s₃, hs₃, h₃⟩ := insertString_eq h₂.sound text
  rw [fitting, hfree₂, if_pos htext] at h₃
  have hexec : (LogStream.machine P memory).exec s₂ [.string (some text)] = some s₃ :=
    Option.bind_eq_some_iff.mpr ⟨s₃, hs₃, rfl⟩
  refine ⟨_, logged_of_exec hs₁ hs₂ hexec fileName line, ?_, ?_, rfl, rfl⟩
  · dsimp only
    rw [available_continued h₂.sound h₃, hfree₂]
  · have hempty : (LogStream.new memory).content = [] := List.take_zero
    dsimp only
    rw [h₃.content, h₂.content, h₁.content, hempty]
    rfl

theorem zero_notMem_origin (fileName : CString) (line : Int32) : 0 ∉ origin fileName line := by
  have hnumeral : 0 ∉ numeral line.toInt := notMem_numeral (by decide) _
  have hname := fileName.zero_notMem
  have hliterals : 0 ∉ ascii " -- " ∧ 0 ∉ ascii ":" ∧ 0 ∉ ascii "\n" := by decide
  simp only [origin, List.mem_append, not_or]
  exact ⟨⟨hliterals.1, hname⟩, ⟨hliterals.2.1, hnumeral⟩, hliterals.2.2⟩

/-- A text that fills its line and ends as the record should makes the record complete. -/
theorem exists_endsAlready (memory : Fin LogStream.kDefaultSize → UInt8) {fileName : CString}
    (hname : fileName.bytes ≠ []) (hshort : fileName.bytes.length < 200) (line : Int32) :
    ∃ text l, logged P memory ⟨[], List.not_mem_nil⟩ fileName line [.string (some text)] =
      some l ∧ l.EndsAlready := by
  have hlength : (origin fileName line).length ≤ 3998 := by
    have hnumeral := length_numeral_le (by decide) (LogStream.holds_int line)
    have hdashes : (ascii " -- ").length = 4 := rfl
    have hcolon : (ascii ":").length = 1 := rfl
    have hnewline : (ascii "\n").length = 1 := rfl
    simp only [origin, List.length_append]
    omega
  have hzero : 0 ∉ List.replicate (3998 - (origin fileName line).length) (97 : UInt8) ++
      origin fileName line := by
    intro h
    rcases List.mem_append.mp h with h | h
    · exact absurd (List.eq_of_mem_replicate h) (by decide)
    · exact zero_notMem_origin fileName line h
  obtain ⟨text, hbytes⟩ : ∃ text : CString, text.bytes =
      List.replicate (3998 - (origin fileName line).length) 97 ++ origin fileName line :=
    ⟨⟨_, hzero⟩, rfl⟩
  have htext : text.bytes.length = 3998 := by
    rw [hbytes, List.length_append, List.length_replicate]
    omega
  obtain ⟨l, hl, hfree, hcontent, rfl, rfl⟩ :=
    logged_text (P := P) memory fileName line (htext.trans_lt (by decide))
  refine ⟨text, l, hl, ?_⟩
  rw [htext] at hfree
  have hdropped : fitting l.stream.available l.baseName.bytes = [] := by
    refine if_neg ?_
    have hpos := List.length_pos_of_ne_nil hname
    omega
  have hnewline : fitting (l.stream.available - 0) (ascii "\n") = [] := by
    rw [hfree]
    rfl
  refine ⟨by omega, ?_⟩
  rw [hdropped, List.length_nil, hnewline, List.append_nil, List.append_nil, hcontent, hbytes,
    ← List.append_assoc]
  exact List.suffix_append _ _

/-- **A record says where it comes from exactly when it has been logged already.**  `~Logger`
completes a line only where at most four bytes are free, and what has been logged ends with the
dashes, the name, the colon and the number, up to the name or newline that still fits. -/
theorem record_complete_iff (memory : Fin LogStream.kDefaultSize → UInt8)
    (time fileName : CString) (line : Int32) {items : List (LogItem F D)}
    (hitems : ∀ item ∈ items, item.FloatShort P) :
    ∃ l r, logged P memory time fileName line items = some l ∧
      record P memory time fileName line items = some r ∧
      (origin fileName line <:+ r ↔ l.EndsAlready) := by
  obtain ⟨l, hl, hsound, rfl, rfl, -⟩ := logged_eq memory time fileName line hitems
  obtain ⟨r, hr, hiff⟩ : ∃ r, l.destroy = some r ∧
      (origin l.baseName l.line <:+ r ↔ l.EndsAlready) := by
    rcases Nat.lt_or_ge 4 l.stream.available with hfree | hfull
    · obtain ⟨r, hr, hincomplete⟩ := incomplete_of_free hsound hfree
      exact ⟨r, hr, iff_of_false hincomplete fun h => Nat.not_le.mpr hfree h.1⟩
    · exact complete_iff_of_full hsound hfull
  exact ⟨l, r, hl, by rw [record, hl, Option.bind_some, hr], hiff⟩

theorem record_complete_iff_number :
    ∃ l r, logged Printf.wholes (fun _ => 7) ⟨ascii "12:00:00", by decide⟩
        ⟨ascii "a.cc", by decide⟩ 7 [.double 3] = some l ∧
      record Printf.wholes (fun _ => 7) ⟨ascii "12:00:00", by decide⟩
        ⟨ascii "a.cc", by decide⟩ 7 [.double 3] = some r ∧
      (origin ⟨ascii "a.cc", by decide⟩ 7 <:+ r ↔ l.EndsAlready) :=
  record_complete_iff _ _ _ _ (by
    have hshort : (decimal 3).length ≤ 1 := length_decimal_le (by decide) (by decide)
    rw [List.forall_mem_singleton]
    exact Nat.lt_of_le_of_lt hshort (by decide))

/-- The record of `LOG << "hi"` at `a.cc:7`. -/
theorem record_hi :
    ∃ r, record Printf.wholes (fun _ => 7) ⟨ascii "12:00:00", by decide⟩
        ⟨ascii "a.cc", by decide⟩ 7 [.string (some ⟨ascii "hi", by decide⟩)] = some r ∧
      ¬ origin ⟨ascii "a.cc", by decide⟩ 7 <:+ r :=
  incomplete_of_room _ _ _ _ (by simp [LogItem.FloatShort]) (by decide)

end Logger

end YxAlpha
