import YxAlpha.Utility.ByteQueue

/-!
# Reads from a descriptor, and the size of the buffer

Over every history of a buffer, its scatter reads included.  A read that spills over into the
stack buffer is an append of what it read (`readFd_append`).  The vector never shrinks, but it
grows only when the payload does not fit into it any more, and then to at most twice the
payload: whatever the traffic, its size stays within twice the largest payload
(`storage_bounded`).
-/

namespace YxAlpha

/-- Everything that can be done to a buffer. -/
inductive BufferCall
  | queue (op : BufferOp)
  | getCharStr (len : ℕ)
  | readFd (extrabuf : Vector UInt8 extraBufSize) (stream : Bytes) (answer : ReadvAnswer)

namespace RawBuffer

/-- What `readv` may answer: so many bytes of the stream as the vectors have room for. -/
def MayAnswer (b : RawBuffer) (stream : Bytes) : ReadvAnswer → Prop
  | .count n => n ≤ b.iovLengths.sum ∧ n ≤ stream.length
  | .error _ => True

instance (b : RawBuffer) (stream : Bytes) : DecidablePred (b.MayAnswer stream)
  | .count n => inferInstanceAs (Decidable (n ≤ b.iovLengths.sum ∧ n ≤ stream.length))
  | .error _ => isTrue trivial

/-- The buffer after a call. -/
def call (b : RawBuffer) : BufferCall → Option RawBuffer
  | .queue op => (b.apply op).map Prod.snd
  | .getCharStr len => some (b.getCharStr len).2
  | .readFd extrabuf stream answer =>
      if b.MayAnswer stream answer then (b.readFd extrabuf stream answer 0).map fun r => r.2.2
      else none

end RawBuffer

structure BufferHistory where
  buffer : RawBuffer
  /-- The largest payload after a call so far. -/
  peak : ℕ

namespace BufferHistory

def new : BufferHistory where
  buffer := .new
  peak := 0

def step (s : BufferHistory) (c : BufferCall) : Option BufferHistory :=
  (s.buffer.call c).map fun buffer => ⟨buffer, max s.peak buffer.payloadSize⟩

def machine : Machine BufferHistory BufferCall where
  init := new
  step := step

end BufferHistory

/-! ## How far the vector grows -/

namespace Buffer

theorem buffer_moveReadIndex {b c : Buffer} {len : ℕ} (h : b.moveReadIndex len = some c) :
    c.buffer = b.buffer := by
  unfold moveReadIndex at h
  split at h
  · cases h
    rfl
  · cases h

theorem buffer_moveReadIndexUntil {b c : Buffer} {stop : ℕ}
    (h : b.moveReadIndexUntil stop = some c) : c.buffer = b.buffer := by
  unfold moveReadIndexUntil at h
  split at h
  · exact buffer_moveReadIndex h
  · cases h

theorem length_resize (b : Buffer) (len : ℕ) :
    (b.resize len).buffer.length =
      if b.readIndex - kBufBegin + b.remainSize < len then b.writeIndex + len
      else b.buffer.length := by
  obtain ⟨hbegin, hread, hwrite, -, hfree⟩ := b.layout
  unfold resize
  split
  · show (b.buffer.take (b.writeIndex + len) ++ List.replicate _ 0).length = _
    rw [List.length_append, List.length_take, List.length_replicate]
    omega
  · show (overwrite b.buffer kBufBegin b.payload).length = _
    rw [length_overwrite (by omega), length_payload, payloadSize]
    omega

theorem length_put (b : Buffer) (data : Bytes) :
    (b.put data).buffer.length = max b.buffer.length (b.writeIndex + data.length) :=
  length_overwrite b.write_le_size data

/-- The size of the vector when `n` bytes have come to the payload. -/
def grown (b : Buffer) (n : ℕ) : ℕ :=
  if b.buffer.length - kBufBegin < b.payloadSize + n then b.writeIndex + n else b.buffer.length

/-- Consumed space is reused before the vector grows. -/
theorem length_append (b : Buffer) (data : Bytes) :
    (b.append data).buffer.length = b.grown data.length := by
  obtain ⟨hbegin, hread, hwrite, hsize, hfree⟩ := b.layout
  unfold append grown
  by_cases hspace : b.remainSize < data.length
  · rw [if_pos hspace, length_put, length_resize]
    by_cases hgrow : b.readIndex - kBufBegin + b.remainSize < data.length
    · have hwriteIndex : (b.resize data.length).writeIndex = b.writeIndex := by
        rw [resize, if_pos hgrow]
      rw [if_pos hgrow, hwriteIndex, if_pos (by omega)]
      omega
    · have hwriteIndex : (b.resize data.length).writeIndex = kBufBegin + b.payloadSize := by
        rw [resize, if_neg hgrow]
      rw [if_neg hgrow, hwriteIndex, if_neg (by omega)]
      omega
  · rw [if_neg hspace, length_put, if_neg (by omega)]
    omega

/-- A scatter read grows the vector as an append of what it read. -/
theorem length_readFd (b : Buffer) (bytes : Bytes) :
    (b.readFd (.data bytes)).buffer.length = b.grown bytes.length := by
  obtain ⟨hbegin, hread, hwrite, hsize, hfree⟩ := b.layout
  simp only [readFd]
  by_cases hfits : bytes.length ≤ b.remainSize
  · rw [if_pos hfits, length_put, grown, if_neg (by omega)]
    omega
  · -- the free tail is filled, and what remains is appended to a full vector
    have htail : (bytes.take b.remainSize).length = b.remainSize := by
      rw [List.length_take]
      omega
    have hfull := b.length_put (bytes.take b.remainSize)
    have hindex : (b.put (bytes.take b.remainSize)).writeIndex = b.writeIndex + b.remainSize := by
      show b.writeIndex + (bytes.take b.remainSize).length = _
      rw [htail]
    rw [if_neg hfits, length_append, grown, grown, payloadSize_put, hindex, hfull, htail,
      List.length_drop]
    split_ifs <;> omega

theorem grown_le (b : Buffer) {n peak : ℕ} (hpeak : b.payloadSize + n ≤ peak)
    (hbound : b.buffer.length ≤ kBufBegin + max kDefaultSize (2 * peak)) :
    b.grown n ≤ kBufBegin + max kDefaultSize (2 * peak) := by
  obtain ⟨hbegin, hread, hwrite, hsize, -⟩ := b.layout
  unfold grown
  split
  · -- all of the old vector is no more than the new payload, and neither is what comes
    rename_i hfull
    have hwriteIndex : b.writeIndex ≤ kBufBegin + peak := by omega
    calc b.writeIndex + n ≤ (kBufBegin + peak) + peak := by omega
      _ = kBufBegin + 2 * peak := by omega
      _ ≤ kBufBegin + max kDefaultSize (2 * peak) := Nat.add_le_add_left (le_max_right _ _) _
  · exact hbound

end Buffer

/-! ## Calls -/

namespace RawBuffer

/-- What a call leaves is a buffer with its indices in order, whose vector is as large as before
or has grown for the bytes that came to the payload. -/
def Leaves (b : Buffer) (r : RawBuffer) : Prop :=
  ∃ a : Buffer, a.raw = r ∧ (a.buffer.length = b.buffer.length ∨
    ∃ n, a.buffer.length = b.grown n ∧ a.payloadSize = b.payloadSize + n)

theorem leaves_of_buffer_eq {a b : Buffer} (h : a.buffer = b.buffer) : Leaves b a.raw :=
  ⟨a, rfl, Or.inl (congrArg List.length h)⟩

theorem leaves_apply {b : Buffer} {op : BufferOp} {returned : Option Bytes} {r : RawBuffer}
    (h : b.raw.apply op = some (returned, r)) : Leaves b r := by
  cases op with
  | append data =>
      rw [apply, b.raw_append] at h
      cases h
      exact ⟨_, rfl, Or.inr ⟨data.length, b.length_append data, b.payloadSize_append data⟩⟩
  | moveReadIndex len =>
      rw [apply, b.raw_moveReadIndex, Option.map_map] at h
      obtain ⟨c, hc, hr⟩ := Option.map_eq_some_iff.mp h
      cases hr
      exact leaves_of_buffer_eq (Buffer.buffer_moveReadIndex hc)
  | moveReadIndexUntil len =>
      rw [apply, b.raw_moveReadIndexUntil, Option.map_map] at h
      obtain ⟨c, hc, hr⟩ := Option.map_eq_some_iff.mp h
      cases hr
      exact leaves_of_buffer_eq (Buffer.buffer_moveReadIndexUntil hc)
  | moveReadIndexAll =>
      cases h
      exact leaves_of_buffer_eq (a := b.moveReadIndexAll) rfl
  | getString =>
      rw [apply, b.raw_getString] at h
      cases h
      exact leaves_of_buffer_eq (a := b.moveReadIndexAll) rfl
  | getStringNoMove =>
      rw [apply, b.raw_getStringNoMove] at h
      cases h
      exact leaves_of_buffer_eq rfl

theorem leaves_getCharStr (b : Buffer) (len : ℕ) : Leaves b (b.raw.getCharStr len).2 := by
  have hread := b.read_le_write
  have hmin : b.readIndex + (if len > b.payloadSize then b.payloadSize else len) ≤
      b.writeIndex := by
    unfold Buffer.payloadSize
    split <;> omega
  exact leaves_of_buffer_eq (a := { b with
    readIndex := b.readIndex + (if len > b.payloadSize then b.payloadSize else len)
    begin_le_read := b.begin_le_read.trans (Nat.le_add_right _ _)
    read_le_write := hmin }) rfl

/-- One call, seen from the payload. -/
theorem leaves_call {b : Buffer} {c : BufferCall} {r : RawBuffer} (h : b.raw.call c = some r) :
    Leaves b r := by
  cases c with
  | queue op =>
      obtain ⟨⟨returned, after⟩, happly, rfl⟩ := Option.map_eq_some_iff.mp h
      exact leaves_apply happly
  | getCharStr len =>
      cases h
      exact leaves_getCharStr b len
  | readFd extrabuf stream answer =>
      rw [call] at h
      split at h
      · rename_i hanswer
        cases answer with
        | error errno =>
            cases h
            exact leaves_of_buffer_eq rfl
        | count n =>
            obtain ⟨hlimit, hstream⟩ := hanswer
            rw [b.sum_iovLengths_raw] at hlimit
            rw [b.raw_readFd extrabuf hlimit hstream] at h
            cases h
            exact ⟨_, rfl, Or.inr ⟨_, b.length_readFd _, b.payloadSize_readFd _⟩⟩
      · cases h

end RawBuffer

namespace BufferHistory

/-- The indices are in order, and the vector is within twice the largest payload. -/
structure Bounded (s : BufferHistory) : Prop extends s.buffer.Ordered where
  payload : s.buffer.payloadSize ≤ s.peak
  size : s.buffer.buffer.length ≤ kBufBegin + max kDefaultSize (2 * s.peak)

theorem bounded_new : new.Bounded where
  toOrdered := Buffer.raw_ordered .new
  payload := Nat.le_refl _
  size := by simp [new, RawBuffer.new]

theorem Bounded.step {s t : BufferHistory} {c : BufferCall} (hs : s.Bounded)
    (hstep : s.step c = some t) : t.Bounded := by
  obtain ⟨r, hr, rfl⟩ := Option.map_eq_some_iff.mp hstep
  obtain ⟨b, hb⟩ := Buffer.exists_raw hs.toOrdered
  rw [← hb] at hr
  obtain ⟨a, rfl, hlength⟩ := RawBuffer.leaves_call hr
  have hsize : b.buffer.length ≤ kBufBegin + max kDefaultSize (2 * s.peak) := by
    have := hs.size
    rwa [← hb] at this
  refine ⟨a.raw_ordered, le_max_right _ _, ?_⟩
  show a.buffer.length ≤ kBufBegin + max kDefaultSize (2 * max s.peak a.payloadSize)
  have hmore : b.buffer.length ≤
      kBufBegin + max kDefaultSize (2 * max s.peak a.payloadSize) := by omega
  rcases hlength with hsame | ⟨n, hgrown, hpayload⟩
  · rw [hsame]
    exact hmore
  · rw [hgrown]
    exact b.grown_le (by omega) hmore

theorem bounded_throughout (calls : List BufferCall) :
    machine.Throughout Bounded machine.init calls :=
  Machine.throughout_of_invariant (m := machine) (fun _ _ _ hs hstep => hs.step hstep) bounded_new
    calls

/-! ## Scatter reads -/

/-- **The scatter read is an append** of what `readv` has read, whatever its count and however
the bytes fall on the two vectors; when `readv` fails the buffer is left alone. -/
theorem readFd_append {calls : List BufferCall} {s : BufferHistory}
    (hrun : machine.exec machine.init calls = some s) (extrabuf : Vector UInt8 extraBufSize)
    (stream : Bytes) (savedErrno : ℕ) :
    (∀ n, n ≤ s.buffer.iovLengths.sum → n ≤ stream.length → ∃ after appended,
      s.buffer.readFd extrabuf stream (.count n) savedErrno = some ((n : ℤ), savedErrno, after) ∧
      after.Ordered ∧ after.payload = s.buffer.payload ++ stream.take n ∧
      s.buffer.append (stream.take n) = some appended ∧ after.payload = appended.payload) ∧
    ∀ errno, s.buffer.readFd extrabuf stream (.error errno) savedErrno =
      some (-1, errno, s.buffer) := by
  obtain ⟨b, hb⟩ := Buffer.exists_raw ((bounded_throughout calls).last hrun).toOrdered
  rw [← hb]
  refine ⟨?_, fun errno => rfl⟩
  intro n hlimit hstream
  rw [b.sum_iovLengths_raw] at hlimit
  refine ⟨_, _, b.raw_readFd extrabuf hlimit hstream savedErrno, Buffer.raw_ordered _, ?_,
    b.raw_append _, ?_⟩
  · rw [Buffer.payload_raw, Buffer.payload_readFd, Buffer.payload_raw]
  · rw [Buffer.payload_raw, Buffer.payload_readFd, Buffer.payload_raw, Buffer.payload_append]

/-- A read into a new buffer that spills over. -/
theorem readFd_append_spill : ∃ after,
    RawBuffer.new.readFd (Vector.replicate extraBufSize 0) (List.replicate 300 7) (.count 300) 0 =
      some ((300 : ℤ), 0, after) ∧ after.payload = List.replicate 300 7 := by
  have hrun : machine.exec machine.init [] = some new := rfl
  have hfree : RawBuffer.new.remainSize = 256 := by
    rw [RawBuffer.remainSize, RawBuffer.new, List.length_replicate]
    rfl
  have hlimit : 300 ≤ RawBuffer.new.iovLengths.sum := by
    rw [RawBuffer.iovLengths, hfree]
    decide
  have hlength : (List.replicate 300 (7 : UInt8)).length = 300 := List.length_replicate
  obtain ⟨after, -, hread, -, hpayload, -⟩ :=
    (readFd_append hrun (Vector.replicate extraBufSize 0) (List.replicate 300 7) 0).1 300 hlimit
      hlength.ge
  refine ⟨after, hread, hpayload.trans ?_⟩
  rw [List.take_of_length_le hlength.le]
  exact congrArg (· ++ _) Buffer.payload_new

/-! ## The size of the vector -/

/-- The vector is within twice the largest payload, and an append that enlarges it does not
find room for its bytes in all of it. -/
structure StorageBounded (s : BufferHistory) : Prop where
  size : s.buffer.buffer.length ≤ kBufBegin + max kDefaultSize (2 * s.peak)
  append : ∀ data after, s.buffer.append data = some after →
    s.buffer.buffer.length < after.buffer.length →
      s.buffer.buffer.length - kBufBegin < s.buffer.payloadSize + data.length
  readFd : ∀ extrabuf stream n savedErrno returned errno after,
    s.buffer.MayAnswer stream (.count n) →
    s.buffer.readFd extrabuf stream (.count n) savedErrno = some (returned, errno, after) →
    s.buffer.buffer.length < after.buffer.length →
      s.buffer.buffer.length - kBufBegin < s.buffer.payloadSize + n

theorem lt_of_grown {b : Buffer} {n : ℕ} (h : b.buffer.length < b.grown n) :
    b.buffer.length - kBufBegin < b.payloadSize + n := by
  by_contra hfits
  rw [Buffer.grown, if_neg hfits] at h
  exact Nat.lt_irrefl _ h

theorem Bounded.storageBounded {s : BufferHistory} (hs : s.Bounded) : s.StorageBounded := by
  obtain ⟨b, hb⟩ := Buffer.exists_raw hs.toOrdered
  refine ⟨hs.size, ?_, ?_⟩
  · rw [← hb]
    intro data after happend hlarger
    rw [b.raw_append] at happend
    cases happend
    exact lt_of_grown (hlarger.trans_eq (b.length_append data))
  · rw [← hb]
    rintro extrabuf stream n savedErrno returned errno after ⟨hlimit, hstream⟩ hread hlarger
    rw [b.sum_iovLengths_raw] at hlimit
    rw [b.raw_readFd extrabuf hlimit hstream] at hread
    cases hread
    have hgrown := hlarger.trans_eq (b.length_readFd (stream.take n))
    rw [List.length_take, Nat.min_eq_left hstream] at hgrown
    exact lt_of_grown hgrown

/-- **The storage is bounded by the peak payload**, over every history of the buffer. -/
theorem storage_bounded (calls : List BufferCall) :
    machine.Throughout StorageBounded machine.init calls :=
  (bounded_throughout calls).mono fun _ hs => hs.storageBounded

end BufferHistory

end YxAlpha
