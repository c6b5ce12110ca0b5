import YxAlpha.Library.Machine
import YxAlpha.Logger.Convert
import YxAlpha.Logger.FixedBuffer

/-!
# Streaming into a log line

`LogStream` of `logger/logstream.h` over the memory of its buffer: all of `data_`, and how far
`cur_` is in it.  A write outside `data_` is `none`.

The insertions check the free space in different ways.  Text must be shorter than what is free.
A number only asks for 32 bytes, and `add` then moves `cur_` without a check.  An insertion is
all or nothing (`insertions_all_or_nothing`): the line is continued by the whole rendering of the
item, or is what it was.
-/

namespace YxAlpha

structure LogStream where
  /-- All of `data_`. -/
  data : Bytes
  /-- `cur_ - data_`. -/
  cur : ℕ

/-- A C string. -/
structure CString where
  bytes : Bytes
  zero_notMem : 0 ∉ bytes

/-- The floating-point numbers, and how `printf` renders them with `%.12g`. -/
structure Printf (F D : Type*) where
  toDouble : F → D
  text : D → Bytes

/-- What is streamed, with the overload it selects. -/
inductive LogItem (F D : Type*)
  | bool (value : Bool)
  | short (value : Int16)
  | unsignedShort (value : UInt16)
  | int (value : Int32)
  | unsigned (value : UInt32)
  | long (value : Int64)
  | unsignedLong (value : UInt64)
  | longLong (value : Int64)
  | unsignedLongLong (value : UInt64)
  | float (value : F)
  | double (value : D)
  | string (value : Option CString)
  | unsignedString (value : Option CString)

namespace LogStream

variable {F D : Type*} (P : Printf F D)

def kDefaultSize : ℕ := 4000

def kMaxNumericSize : ℕ := 32

/-- A new stream finds `data_` as it is. -/
def new (memory : Fin kDefaultSize → UInt8) : LogStream := ⟨List.ofFn memory, 0⟩

def currentLength (s : LogStream) : ℕ := s.cur

/-- A `size_t`. -/
def available (s : LogStream) : ℕ := (((kDefaultSize : ℤ) - s.cur) % 2 ^ 64).toNat

def add (s : LogStream) (len : ℕ) : LogStream := { s with cur := s.cur + len }

/-- What has been logged. -/
def content (s : LogStream) : Bytes := s.data.take s.cur

def append (s : LogStream) (buf : Bytes) : Option LogStream :=
  if buf.length < s.available then
    (Copying.store s.data s.cur buf).map fun data => { s with data := data }.add buf.length
  else some s

def formatInteger (s : LogStream) (v : ℤ) : Option LogStream :=
  if kMaxNumericSize ≤ s.available then
    (convert s.data s.cur v).map fun (data, len) => { s with data := data }.add len
  else some s

/-- `snprintf` cuts the text to the memory it is given, and returns its length without the cut. -/
def snprintf (v : Bytes) (buf n : ℕ) (text : Bytes) : Option (Bytes × ℕ) :=
  (Copying.store v buf (text.take (n - 1) ++ [0])).map (·, text.length)

def insertBool (s : LogStream) (value : Bool) : Option LogStream :=
  s.append (ascii (if value then "1" else "0"))

def insertInt (s : LogStream) (value : Int32) : Option LogStream := s.formatInteger value.toInt

def insertShort (s : LogStream) (value : Int16) : Option LogStream := s.insertInt value.toInt32

def insertUnsigned (s : LogStream) (value : UInt32) : Option LogStream :=
  s.formatInteger value.toNat

def insertUnsignedShort (s : LogStream) (value : UInt16) : Option LogStream :=
  s.insertUnsigned value.toUInt32

def insertLong (s : LogStream) (value : Int64) : Option LogStream := s.formatInteger value.toInt

def insertUnsignedLong (s : LogStream) (value : UInt64) : Option LogStream :=
  s.formatInteger value.toNat

def insertLongLong (s : LogStream) (value : Int64) : Option LogStream :=
  s.formatInteger value.toInt

def insertUnsignedLongLong (s : LogStream) (value : UInt64) : Option LogStream :=
  s.formatInteger value.toNat

def insertDouble (s : LogStream) (value : D) : Option LogStream :=
  if kMaxNumericSize ≤ s.available then
    (snprintf s.data s.cur kMaxNumericSize (P.text value)).map fun (data, len) =>
      { s with data := data }.add len
  else some s

def insertFloat (s : LogStream) (value : F) : Option LogStream :=
  s.insertDouble P (P.toDouble value)

def insertString (s : LogStream) : Option CString → Option LogStream
  | none => s.append (ascii "(NULL)")
  | some value => s.append value.bytes

def insertUnsignedString (s : LogStream) (value : Option CString) : Option LogStream :=
  s.insertString value

/-- `operator<<`. -/
def insert (s : LogStream) : LogItem F D → Option LogStream
  | .bool value => s.insertBool value
  | .short value => s.insertShort value
  | .unsignedShort value => s.insertUnsignedShort value
  | .int value => s.insertInt value
  | .unsigned value => s.insertUnsigned value
  | .long value => s.insertLong value
  | .unsignedLong value => s.insertUnsignedLong value
  | .longLong value => s.insertLongLong value
  | .unsignedLongLong value => s.insertUnsignedLongLong value
  | .float value => s.insertFloat P value
  | .double value => s.insertDouble P value
  | .string value => s.insertString value
  | .unsignedString value => s.insertUnsignedString value

/-- The insertions into one stream. -/
def machine (memory : Fin kDefaultSize → UInt8) : Machine LogStream (LogItem F D) where
  init := new memory
  step := insert P

end LogStream

/-! ## What an item is rendered to -/

namespace LogItem

variable {F D : Type*} (P : Printf F D)

/-- The complete rendering of an item. -/
def render : LogItem F D → Bytes
  | .bool value => ascii (if value then "1" else "0")
  | .short value => numeral value.toInt
  | .unsignedShort value => numeral value.toNat
  | .int value => numeral value.toInt
  | .unsigned value => numeral value.toNat
  | .long value => numeral value.toInt
  | .unsignedLong value => numeral value.toNat
  | .longLong value => numeral value.toInt
  | .unsignedLongLong value => numeral value.toNat
  | .float value => P.text (P.toDouble value)
  | .double value => P.text value
  | .string value => value.elim (ascii "(NULL)") CString.bytes
  | .unsignedString value => value.elim (ascii "(NULL)") CString.bytes

/-- What is neither text nor a truth value. -/
def isNumber : LogItem F D → Bool
  | .bool _ | .string _ | .unsignedString _ => false
  | _ => true

/-- An item is dropped where `free` bytes are available. -/
def Dropped (free : ℕ) (item : LogItem F D) : Prop :=
  if item.isNumber then free < LogStream.kMaxNumericSize else free ≤ (item.render P).length

instance (free : ℕ) (item : LogItem F D) : Decidable (item.Dropped P free) :=
  inferInstanceAs (Decidable (if item.isNumber then _ else _))

/-- A floating-point value is rendered in fewer than 32 characters. -/
def FloatShort : LogItem F D → Prop
  | .float value => (P.text (P.toDouble value)).length < LogStream.kMaxNumericSize
  | .double value => (P.text value).length < LogStream.kMaxNumericSize
  | _ => True

end LogItem

/-! ## Writing behind the line -/

namespace LogStream

variable {F D : Type*} {P : Printf F D} {s : LogStream}

/-- The memory is that of the buffer, and a byte of it is free. -/
structure Sound (s : LogStream) : Prop where
  length_data : s.data.length = kDefaultSize
  cur_lt : s.cur < kDefaultSize

theorem sound_new (memory : Fin kDefaultSize → UInt8) : (new memory).Sound where
  length_data := by simp [new]
  cur_lt := Nat.succ_pos 3999

theorem Sound.available (h : s.Sound) : s.available = kDefaultSize - s.cur := by
  have hlt := h.cur_lt
  unfold kDefaultSize at hlt
  unfold LogStream.available kDefaultSize
  omega

theorem Sound.length_content (h : s.Sound) : s.content.length = s.cur := by
  have hlt := h.cur_lt
  have hlength := h.length_data
  rw [content, List.length_take]
  omega

/-- The line as a buffer that holds nothing but what has been written. -/
def Sound.buffer (h : s.Sound) : FixedBuffer kDefaultSize where
  data := s.content
  length_le := h.length_content ▸ Nat.le_of_lt h.cur_lt

/-- The line after an insertion that wrote `text` behind it. -/
structure Continued (s : LogStream) (text : Bytes) (t : LogStream) : Prop where
  sound : t.Sound
  content : t.content = s.content ++ text

/-- The write of `text`, with anything behind it that is still in `data_`. -/
theorem continued_splice (h : s.Sound) {text rest : Bytes}
    (hfit : s.cur + text.length < kDefaultSize)
    (hrest : s.cur + text.length + rest.length = kDefaultSize) :
    Continued s text
      ((⟨s.data.take s.cur ++ text ++ rest, s.cur⟩ : LogStream).add text.length) := by
  have hfront : (s.data.take s.cur ++ text).length = s.cur + text.length := by
    rw [List.length_append]
    exact congrArg (· + text.length) h.length_content
  refine ⟨⟨?_, hfit⟩, ?_⟩
  · show (s.data.take s.cur ++ text ++ rest).length = kDefaultSize
    rw [List.length_append, hfront, hrest]
  · show (s.data.take s.cur ++ text ++ rest).take (s.cur + text.length) = _
    rw [List.take_left' hfront]
    rfl

/-- An insertion that drops an item leaves the stream as it is. -/
theorem continued_nil (h : s.Sound) : Continued s [] s where
  sound := h
  content := (List.append_nil _).symm

theorem append_eq (h : s.Sound) (buf : Bytes) :
    ∃ t, s.append buf = some t ∧
      Continued s (if s.available ≤ buf.length then [] else buf) t := by
  have havailable := h.available
  have hlength := h.length_data
  unfold append
  by_cases hroom : buf.length < s.available
  · rw [if_pos hroom, if_neg (Nat.not_le.mpr hroom), Copying.store_eq_some (by omega)]
    refine ⟨_, rfl, continued_splice h (by omega) ?_⟩
    rw [List.length_drop]
    omega
  · rw [if_neg hroom, if_pos (Nat.not_lt.mp hroom)]
    exact ⟨s, rfl, continued_nil h⟩

/-- On the line, `Append` is that of a buffer without memory. -/
theorem append_refines (h : s.Sound) (buf : Bytes) :
    ∃ t, s.append buf = some t ∧ ∃ ht : t.Sound, ht.buffer = h.buffer.append buf := by
  obtain ⟨t, ht, hcontinued⟩ := append_eq h buf
  have hfree : h.buffer.available = s.available := by
    rw [h.available, ← h.length_content]
    rfl
  -- both drop the same texts
  refine ⟨t, ht, hcontinued.sound, FixedBuffer.ext ?_⟩
  show t.content = _
  rw [hcontinued.content]
  split
  · rename_i hfull
    rw [FixedBuffer.append_of_le (hfree ▸ hfull), List.append_nil]
    rfl
  · rename_i hroom
    exact (FixedBuffer.data_append (hfree ▸ Nat.not_le.mp hroom)).symm

/-- A number and its NUL, in the 32 bytes that have been checked for. -/
theorem continued_number (h : s.Sound) {text : Bytes} (hroom : kMaxNumericSize ≤ s.available)
    (htext : text.length < kMaxNumericSize) :
    Continued s text ((⟨s.data.take s.cur ++ text ++
      0 :: s.data.drop (s.cur + text.length + 1), s.cur⟩ : LogStream).add text.length) := by
  have havailable := h.available
  have hlength := h.length_data
  refine continued_splice h (by omega) ?_
  rw [List.length_cons, List.length_drop]
  omega

theorem formatInteger_eq (h : s.Sound) {T : IntType} (hwidth : T.width ≤ 64) {v : ℤ}
    (hv : T.Holds v) :
    ∃ t, s.formatInteger v = some t ∧
      Continued s (if s.available < kMaxNumericSize then [] else numeral v) t := by
  have hnumeral : (numeral v).length < kMaxNumericSize :=
    Nat.lt_of_le_of_lt (length_numeral_le hwidth hv) (by decide)
  unfold formatInteger
  by_cases hroom : kMaxNumericSize ≤ s.available
  · have havailable := h.available
    have hlength := h.length_data
    rw [if_pos hroom, if_neg (Nat.not_lt.mpr hroom), convert_eq v (by omega)]
    exact ⟨_, rfl, continued_number h hroom hnumeral⟩
  · rw [if_neg hroom, if_pos (Nat.not_le.mp hroom)]
    exact ⟨s, rfl, continued_nil h⟩

/-- A text that is not cut. -/
theorem snprintf_eq {v : Bytes} {buf n : ℕ} {text : Bytes} (htext : text.length < n)
    (hroom : buf + n ≤ v.length) :
    snprintf v buf n text = some (v.take buf ++ text ++ 0 :: v.drop (buf + text.length + 1),
      text.length) := by
  have hall : text.take (n - 1) = text := List.take_of_length_le (by omega)
  have hend : (text ++ [0]).length = text.length + 1 := List.length_append
  rw [snprintf, hall, Copying.store_eq_some (by omega), hend, ← Nat.add_assoc, Option.map_some,
    ← List.append_assoc, List.append_assoc (v.take buf ++ text)]
  rfl

theorem insertDouble_eq (h : s.Sound) {value : D}
    (hvalue : (P.text value).length < kMaxNumericSize) :
    ∃ t, s.insertDouble P value = some t ∧
      Continued s (if s.available < kMaxNumericSize then [] else P.text value) t := by
  unfold insertDouble
  by_cases hroom : kMaxNumericSize ≤ s.available
  · have havailable := h.available
    have hlength := h.length_data
    have hcur := h.cur_lt
    rw [if_pos hroom, if_neg (Nat.not_lt.mpr hroom), snprintf_eq hvalue (by omega)]
    exact ⟨_, rfl, continued_number h hroom hvalue⟩
  · rw [if_neg hroom, if_pos (Nat.not_le.mp hroom)]
    exact ⟨s, rfl, continued_nil h⟩

/-! ## The overloads -/

theorem holds_int (value : Int32) : IntType.Holds ⟨32, true⟩ value.toInt :=
  ⟨value.le_toInt, value.toInt_lt⟩

theorem holds_unsigned (value : UInt32) : IntType.Holds ⟨32, false⟩ (value.toNat : ℤ) :=
  ⟨Int.natCast_nonneg _, by exact_mod_cast value.toNat_lt⟩

theorem holds_long (value : Int64) : IntType.Holds ⟨64, true⟩ value.toInt :=
  ⟨value.le_toInt, value.toInt_lt⟩

theorem holds_unsignedLong (value : UInt64) : IntType.Holds ⟨64, false⟩ (value.toNat : ℤ) :=
  ⟨Int.natCast_nonneg _, by exact_mod_cast value.toNat_lt⟩

/-- One insertion writes all of its item, or nothing. -/
theorem insert_eq (h : s.Sound) {item : LogItem F D} (hitem : item.FloatShort P) :
    ∃ t, s.insert P item = some t ∧
      Continued s (if item.Dropped P s.available then [] else item.render P) t := by
  cases item with
  | bool value => exact append_eq h _
  | short value =>
      -- the value is promoted, and stays what it is
      have hrender : numeral value.toInt32.toInt = numeral value.toInt :=
        congrArg numeral value.toInt_toInt32
      rw [LogItem.render, ← hrender]
      exact formatInteger_eq h (by decide) (holds_int value.toInt32)
  | unsignedShort value =>
      exact formatInteger_eq h (by decide) (holds_unsigned value.toUInt32)
  | int value => exact formatInteger_eq h (by decide) (holds_int value)
  | unsigned value => exact formatInteger_eq h (by decide) (holds_unsigned value)
  | long value => exact formatInteger_eq h (by decide) (holds_long value)
  | unsignedLong value => exact formatInteger_eq h (by decide) (holds_unsignedLong value)
  | longLong value => exact formatInteger_eq h (by decide) (holds_long value)
  | unsignedLongLong value => exact formatInteger_eq h (by decide) (holds_unsignedLong value)
  | float value => exact insertDouble_eq h hitem
  | double value => exact insertDouble_eq h hitem
  | string value =>
      cases value with
      | none => exact append_eq h _
      | some value => exact append_eq h _
  | unsignedString value =>
      cases value with
      | none => exact append_eq h _
      | some value => exact append_eq h _

theorem sound_insert (h : s.Sound) {item : LogItem F D} (hitem : item.FloatShort P) {t : LogStream}
    (ht : s.insert P item = some t) : t.Sound := by
  obtain ⟨u, hu, hcontinued⟩ := insert_eq h hitem
  rw [ht] at hu
  cases hu
  exact hcontinued.sound

/-- The line has room for its next byte, `available()` has not wrapped, and whatever is inserted
next stays inside `data_` and is there completely or not at all. -/
def AllOrNothing (P : Printf F D) (s : LogStream) : Prop :=
  s.data.length = 4000 ∧ s.currentLength < 4000 ∧ s.available = 4000 - s.currentLength ∧
    ∀ item : LogItem F D, item.FloatShort P → ∃ t, s.insert P item = some t ∧
      t.content = if item.Dropped P s.available then s.content else s.content ++ item.render P

theorem Sound.allOrNothing (h : s.Sound) (P : Printf F D) : s.AllOrNothing P := by
  refine ⟨h.length_data, h.cur_lt, h.available, ?_⟩
  intro item hitem
  obtain ⟨t, ht, hcontinued⟩ := insert_eq h hitem
  refine ⟨t, ht, ?_⟩
  rw [hcontinued.content]
  split
  · exact List.append_nil _
  · rfl

/-- **Insertions are bounded, and all or nothing**, in every state of every run. -/
theorem insertions_all_or_nothing (memory : Fin kDefaultSize → UInt8)
    {items : List (LogItem F D)} (hitems : ∀ item ∈ items, item.FloatShort P) :
    (machine P memory).Throughout (AllOrNothing P) (machine P memory).init items := by
  have hsound : (machine P memory).Throughout Sound (machine P memory).init items :=
    Machine.throughout_of_actions (fun _ _ _ h hitem ht => sound_insert h hitem ht)
      (sound_new memory) hitems
  exact hsound.mono fun _ h => h.allOrNothing P

end LogStream

/-- The numbers from 0 to 255, which `%.12g` renders with their digits. -/
def Printf.wholes : Printf UInt8 UInt8 := ⟨id, fun value => decimal value.toNat⟩

namespace LogStream

theorem insertions_all_or_nothing_mixed :
    (machine Printf.wholes fun _ => 7).Throughout (AllOrNothing Printf.wholes)
      (machine Printf.wholes fun _ => 7).init
      [.string none, .long (-1), .float 200, .bool true] :=
  insertions_all_or_nothing _ (by
    have hshort : (decimal 200).length ≤ 3 := length_decimal_le (by decide) (by decide)
    simp only [List.forall_mem_cons, LogItem.FloatShort, true_and, List.not_mem_nil]
    exact ⟨Nat.lt_of_le_of_lt hshort (by decide), by simp⟩)

end LogStream

end YxAlpha
