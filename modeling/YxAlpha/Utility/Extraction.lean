import YxAlpha.Utility.BufferHistory

/-!
# Taking bytes out of a buffer

`GetString` and `GetCharStr` both take bytes from the front of the payload.  `GetCharStr` moves
the read index before it copies, though, so what it copies begins behind the bytes it has taken:
it returns the front of the payload only when that is repeated right behind itself
(`extracts_iff`).
-/

namespace YxAlpha

namespace RawBuffer

/-- The buffer without the bytes from its write index on. -/
def cutOff (b : RawBuffer) : RawBuffer := { b with buffer := b.buffer.take b.writeIndex }

/-- `GetCharStr(len)` takes the front of the payload, as `GetString` would. -/
structure Extracts (b : RawBuffer) (len : ℕ) : Prop where
  block : ∃ block, (b.getCharStr len).1 = some block ∧
    block.take (min len b.payloadSize) = b.payload.take (min len b.payloadSize)
  rest : (b.getCharStr len).2.payload = b.payload.drop (min len b.payloadSize)
  /-- The copy needs no byte from the write index on. -/
  inside : (b.cutOff.getCharStr len).1.isSome
  /-- With the string behind it, the block is what `GetString` alone returns. -/
  whole : ∃ block str after all emptied, (b.getCharStr len).1 = some block ∧
    (b.getCharStr len).2.getString = some (str, after) ∧ b.getString = some (all, emptied) ∧
    block.take (min len b.payloadSize) ++ str = all

end RawBuffer

namespace Buffer

variable (b : Buffer) {len : ℕ}

/-- `GetCharStr` on a payload of at least `len` bytes returns what follows the first `len`. -/
theorem getCharStr_of_le (hlen : 2 * len ≤ b.payloadSize) :
    (b.raw.getCharStr len).1 = some ((b.payload.drop len).take len) := by
  obtain ⟨-, hread, hwrite, hsize, -⟩ := b.layout
  have hmin : (if len > b.payloadSize then b.payloadSize else len) = len := if_neg (by omega)
  show readBytes b.buffer (b.readIndex + if len > b.payloadSize then b.payloadSize else len) len = _
  rw [hmin, readBytes, if_pos (by omega), payload_eq_take_drop, List.drop_take, List.drop_drop,
    List.take_take, Nat.min_eq_left (by omega)]

theorem isSome_cutOff_iff :
    (b.raw.cutOff.getCharStr len).1.isSome ↔ min len b.payloadSize + len ≤ b.payloadSize := by
  obtain ⟨-, hread, hwrite, hsize, -⟩ := b.layout
  have hmin : (if len > b.payloadSize then b.payloadSize else len) = min len b.payloadSize := by
    split <;> omega
  have hlength : (b.buffer.take b.writeIndex).length = b.writeIndex := by
    rw [List.length_take]
    omega
  show (readBytes (b.buffer.take b.writeIndex)
    (b.readIndex + if len > b.payloadSize then b.payloadSize else len) len).isSome ↔ _
  rw [hmin, readBytes, hlength]
  split
  · exact iff_of_true rfl (by omega)
  · exact iff_of_false (by simp) (by omega)

/-- What is left is the rest of the payload, whatever has been copied. -/
theorem exists_getCharStr (len : ℕ) : ∃ moved : Buffer, (b.raw.getCharStr len).2 = moved.raw ∧
    moved.payload = b.payload.drop (min len b.payloadSize) := by
  have hread := b.read_le_write
  have hsize : b.payloadSize = b.writeIndex - b.readIndex := rfl
  have hmin : (if len > b.payloadSize then b.payloadSize else len) = min len b.payloadSize := by
    split <;> omega
  refine ⟨{ b with
    readIndex := b.readIndex + min len b.payloadSize
    begin_le_read := b.begin_le_read.trans (Nat.le_add_right _ _)
    read_le_write := by omega }, ?_, ?_⟩
  · show (⟨b.buffer, b.readIndex + if len > b.payloadSize then b.payloadSize else len,
      b.writeIndex⟩ : RawBuffer) = _
    rw [hmin]
    rfl
  · exact List.drop_drop.symm

theorem extracts_raw_iff : b.raw.Extracts len ↔
    2 * len ≤ b.payloadSize ∧ (b.payload.drop len).take len = b.payload.take len := by
  constructor
  · intro h
    have hinside := b.isSome_cutOff_iff.mp h.inside
    have hlen : 2 * len ≤ b.payloadSize := by omega
    obtain ⟨block, hblock, hfront⟩ := h.block
    rw [b.getCharStr_of_le hlen] at hblock
    cases hblock
    rw [payloadSize_raw, payload_raw, Nat.min_eq_left (by omega), List.take_take,
      Nat.min_self] at hfront
    exact ⟨hlen, hfront⟩
  · rintro ⟨hlen, hrepeated⟩
    have hmin : min len b.payloadSize = len := Nat.min_eq_left (by omega)
    obtain ⟨moved, hmoved, hrest⟩ := b.exists_getCharStr len
    have hblock := b.getCharStr_of_le hlen
    rw [hrepeated] at hblock
    have hfront : (b.payload.take len).take (min len b.payloadSize) = b.payload.take len := by
      rw [hmin, List.take_take, Nat.min_self]
    refine ⟨⟨_, hblock, ?_⟩, ?_, b.isSome_cutOff_iff.mpr (by omega), ?_⟩
    · rw [payloadSize_raw, payload_raw, hfront, hmin]
    · rw [hmoved, payload_raw, hrest]
      rfl
    · refine ⟨_, _, _, _, _, hblock, hmoved ▸ moved.raw_getString, b.raw_getString, ?_⟩
      rw [payloadSize_raw, hfront, hrest, hmin, List.take_append_drop]

end Buffer

namespace BufferHistory

/-- **When `GetCharStr` agrees with `GetString`**: on every buffer that comes up, exactly when
the payload holds the first `len` bytes twice, one behind the other. -/
theorem extracts_iff {calls : List BufferCall} {s : BufferHistory}
    (hrun : machine.exec machine.init calls = some s) (len : ℕ) :
    s.buffer.Extracts len ↔ 2 * len ≤ s.buffer.payload.length ∧
      (s.buffer.payload.drop len).take len = s.buffer.payload.take len := by
  obtain ⟨b, hb⟩ := Buffer.exists_raw ((bounded_throughout calls).last hrun).toOrdered
  rw [← hb, b.extracts_raw_iff, Buffer.payload_raw, b.length_payload]

theorem step_append {s : BufferHistory} {b : Buffer} (hs : s.buffer = b.raw) (data : Bytes) :
    ∃ t, s.step (.queue (.append data)) = some t ∧ t.buffer = (b.append data).raw := by
  refine ⟨⟨(b.append data).raw, max s.peak (b.append data).raw.payloadSize⟩, ?_, rfl⟩
  rw [step, RawBuffer.call, RawBuffer.apply, hs, Buffer.raw_append, Option.map_some,
    Option.map_some, Option.map_some]

theorem exec_append (data : Bytes) :
    ∃ s, machine.exec machine.init [.queue (.append data)] = some s ∧
      s.buffer = (Buffer.new.append data).raw := by
  obtain ⟨s, hstep, hs⟩ := step_append (s := machine.init) (b := .new) rfl data
  refine ⟨s, ?_, hs⟩
  rw [Machine.exec, show machine.step = step from rfl, hstep, Option.bind_some, Machine.exec]

theorem extracts_iff_repeated : ∃ s, machine.exec machine.init [.queue (.append (ascii "aab"))] =
    some s ∧ s.buffer.Extracts 1 := by
  obtain ⟨s, hrun, hs⟩ := exec_append (ascii "aab")
  refine ⟨s, hrun, (extracts_iff hrun 1).mpr ?_⟩
  rw [hs, Buffer.payload_raw, Buffer.payload_append, Buffer.payload_new]
  decide

/-- Of the payload `ab` the call takes the `a` and returns the `b`. -/
theorem charStr_skips : ∃ s, machine.exec machine.init [.queue (.append (ascii "ab"))] = some s ∧
    s.buffer.payload = ascii "ab" ∧ (s.buffer.getCharStr 1).1 = some (ascii "b") ∧
      (s.buffer.getCharStr 1).2.payload = ascii "b" ∧ ¬ s.buffer.Extracts 1 := by
  obtain ⟨s, hrun, hs⟩ := exec_append (ascii "ab")
  have hpayload : (Buffer.new.append (ascii "ab")).payload = ascii "ab" := by
    rw [Buffer.payload_append, Buffer.payload_new, List.nil_append]
  have hsize : (Buffer.new.append (ascii "ab")).payloadSize = 2 := by
    rw [← Buffer.length_payload, hpayload]
    rfl
  obtain ⟨moved, hmoved, hrest⟩ := (Buffer.new.append (ascii "ab")).exists_getCharStr 1
  refine ⟨s, hrun, ?_, ?_, ?_, ?_⟩
  · rw [hs, Buffer.payload_raw, hpayload]
  · rw [hs, Buffer.getCharStr_of_le _ (by omega), hpayload]
    rfl
  · rw [hs, hmoved, Buffer.payload_raw, hrest, hpayload, hsize]
    rfl
  · rw [hs, Buffer.extracts_raw_iff, hpayload, hsize]
    decide

end BufferHistory

end YxAlpha
