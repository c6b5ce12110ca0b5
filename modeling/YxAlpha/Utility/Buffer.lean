import YxAlpha.Library.Delimiter
import YxAlpha.Utility.Bytes

/-!
# The byte buffer of a connection

`Buffer` is `utility/buffer.h`: a vector of bytes with a read and a write index.
The bytes between the two indices are the payload; the first `kBufBegin` bytes
of the vector are never used.

```text
|savedSpace|---------------|payload-------|-------------------end|
|----------------kBufBegin--read_index_--write_index_--buffer_.size()
```

What the indices must satisfy is a field of the structure, so every operation
below carries the proof that it keeps them in order.  Pointers into the buffer
are indices into the vector; a failed `assert` is `none`.

The rest of the development reads a buffer through its payload only: one lemma
for each operation says what it does to the payload.
-/

namespace YxAlpha

/-- `"\r\n"`, the delimiter of HTTP lines. -/
def crlf : Delimiter UInt8 where
  word := [13, 10]
  ne_nil := by decide
  unbordered := by decide

@[simp] theorem crlf_word : crlf.word = [13, 10] := rfl

def kBufBegin : ℕ := 8

def kDefaultSize : ℕ := 256

/-- The size of the stack buffer that `readFd` hands to `readv`. -/
def extraBufSize : ℕ := 4096

structure Buffer where
  buffer : Bytes
  readIndex : ℕ
  writeIndex : ℕ
  begin_le_read : kBufBegin ≤ readIndex
  read_le_write : readIndex ≤ writeIndex
  write_le_size : writeIndex ≤ buffer.length

/-- Writes `data` over the bytes of `bytes` from index `start` on. -/
def overwrite (bytes : Bytes) (start : ℕ) (data : Bytes) : Bytes :=
  bytes.take start ++ data ++ bytes.drop (start + data.length)

theorem length_overwrite {bytes : Bytes} {start : ℕ} (hstart : start ≤ bytes.length)
    (data : Bytes) :
    (overwrite bytes start data).length = max bytes.length (start + data.length) := by
  simp only [overwrite, List.length_append, List.length_take, List.length_drop]
  omega

theorem take_overwrite {bytes : Bytes} {start : ℕ} (hstart : start ≤ bytes.length)
    (data : Bytes) :
    (overwrite bytes start data).take (start + data.length) = bytes.take start ++ data := by
  have hlength : (bytes.take start ++ data).length = start + data.length := by
    rw [List.length_append, List.length_take, Nat.min_eq_left hstart]
  rw [overwrite, ← hlength, List.take_left]

namespace Buffer

/-- A buffer as the constructor leaves it. -/
def new : Buffer where
  buffer := List.replicate (kBufBegin + kDefaultSize) 0
  readIndex := kBufBegin
  writeIndex := kBufBegin
  begin_le_read := le_rfl
  read_le_write := le_rfl
  write_le_size := by simp

def payloadSize (b : Buffer) : ℕ := b.writeIndex - b.readIndex

def remainSize (b : Buffer) : ℕ := b.buffer.length - b.writeIndex

/-- The bytes in `[peek(), begin_write())`. -/
def payload (b : Buffer) : Bytes := (b.buffer.take b.writeIndex).drop b.readIndex

/-- Makes room for `len` more bytes behind the payload: by growing the vector
when the free space is too small altogether, by moving the payload to the front
otherwise. -/
def resize (b : Buffer) (len : ℕ) : Buffer :=
  if b.readIndex - kBufBegin + b.remainSize < len then
    { b with
      buffer := b.buffer.take (b.writeIndex + len) ++
        List.replicate (b.writeIndex + len - b.buffer.length) 0
      write_le_size := by
        have := b.write_le_size
        simp only [List.length_append, List.length_take, List.length_replicate]
        omega }
  else
    { buffer := overwrite b.buffer kBufBegin b.payload
      readIndex := kBufBegin
      writeIndex := kBufBegin + b.payloadSize
      begin_le_read := le_rfl
      read_le_write := Nat.le_add_right _ _
      write_le_size := by
        have hbegin := b.begin_le_read
        have hread := b.read_le_write
        have hwrite := b.write_le_size
        rw [length_overwrite (by omega)]
        simp only [payloadSize]
        omega }

/-- Copies `data` to `begin_write()` and moves the write index behind it. -/
def put (b : Buffer) (data : Bytes) : Buffer where
  buffer := overwrite b.buffer b.writeIndex data
  readIndex := b.readIndex
  writeIndex := b.writeIndex + data.length
  begin_le_read := b.begin_le_read
  read_le_write := b.read_le_write.trans (Nat.le_add_right _ _)
  write_le_size := by
    rw [length_overwrite b.write_le_size]
    exact le_max_right _ _

def append (b : Buffer) (data : Bytes) : Buffer :=
  (if b.remainSize < data.length then b.resize data.length else b).put data

/-- `assert(len <= payload_size())`, then the read index moves. -/
def moveReadIndex (b : Buffer) (len : ℕ) : Option Buffer :=
  if h : len ≤ b.payloadSize then
    some
      { b with
        readIndex := b.readIndex + len
        begin_le_read := b.begin_le_read.trans (Nat.le_add_right _ _)
        read_le_write := by
          have := b.read_le_write
          unfold payloadSize at h
          omega }
  else none

/-- `assert(end <= begin_write())` and `assert(peek() <= end)`, then the read
index moves to `stop`. -/
def moveReadIndexUntil (b : Buffer) (stop : ℕ) : Option Buffer :=
  if stop ≤ b.writeIndex ∧ b.readIndex ≤ stop then b.moveReadIndex (stop - b.readIndex) else none

def moveReadIndexAll (b : Buffer) : Buffer where
  buffer := b.buffer
  readIndex := kBufBegin
  writeIndex := kBufBegin
  begin_le_read := le_rfl
  read_le_write := le_rfl
  write_le_size := b.begin_le_read.trans (b.read_le_write.trans b.write_le_size)

/-- Where the first `"\r\n"` of the payload starts, as an index of the vector. -/
def findCRLF (b : Buffer) : Option ℕ := (crlf.search b.payload).map (b.readIndex + ·)

/-- What `readv` brings: the bytes it read (none at the end of the stream), or
the errno it failed with. -/
inductive ReadResult
  | data (bytes : Bytes)
  | failed (errno : ℕ)
  deriving DecidableEq, Repr

/-- The number of bytes `readv` may read: the second vector is only passed when
the free tail of the buffer is smaller than the stack buffer. -/
def readLimit (b : Buffer) : ℕ :=
  if b.remainSize < extraBufSize then b.remainSize + extraBufSize else b.remainSize

/-- The bytes go to the free tail first; what does not fit was read to the stack
buffer and is appended, with the write index at the end of the vector. -/
def readFd (b : Buffer) : ReadResult → Buffer
  | .failed _ => b
  | .data bytes =>
      if bytes.length ≤ b.remainSize then b.put bytes
      else (b.put (bytes.take b.remainSize)).append (bytes.drop b.remainSize)

/-- The order of the indices, and what the two sizes are. -/
theorem layout (b : Buffer) :
    kBufBegin ≤ b.readIndex ∧ b.readIndex ≤ b.writeIndex ∧ b.writeIndex ≤ b.buffer.length ∧
      b.payloadSize = b.writeIndex - b.readIndex ∧
        b.remainSize = b.buffer.length - b.writeIndex :=
  ⟨b.begin_le_read, b.read_le_write, b.write_le_size, rfl, rfl⟩

/-! ## What the operations do to the payload -/

@[simp] theorem payload_new : new.payload = [] := by
  decide

@[simp] theorem length_payload (b : Buffer) : b.payload.length = b.payloadSize := by
  have := b.write_le_size
  simp only [payload, payloadSize, List.length_drop, List.length_take]
  omega

theorem payload_overwrite {bytes : Bytes} {read write : ℕ} (hread : read ≤ write)
    (hwrite : write ≤ bytes.length) (data : Bytes) :
    ((overwrite bytes write data).take (write + data.length)).drop read =
      (bytes.take write).drop read ++ data := by
  rw [take_overwrite hwrite, List.drop_append_of_le_length]
  rw [List.length_take]
  omega

@[simp] theorem payload_resize (b : Buffer) (len : ℕ) : (b.resize len).payload = b.payload := by
  obtain ⟨hbegin, hread, hwrite, -⟩ := b.layout
  unfold resize
  split
  · have htake : (b.buffer.take (b.writeIndex + len) ++
        List.replicate (b.writeIndex + len - b.buffer.length) 0).take b.writeIndex =
        b.buffer.take b.writeIndex := by
      rw [List.take_append_of_le_length (by rw [List.length_take]; omega), List.take_take]
      congr 1
      omega
    simp only [payload, htake]
  · have hmoved := payload_overwrite (le_refl kBufBegin) (show kBufBegin ≤ b.buffer.length by omega)
      b.payload
    rw [length_payload] at hmoved
    have hempty : (b.buffer.take kBufBegin).drop kBufBegin = [] := by
      rw [List.drop_eq_nil_iff, List.length_take]
      omega
    rw [hempty, List.nil_append] at hmoved
    exact hmoved

@[simp] theorem payload_put (b : Buffer) (data : Bytes) :
    (b.put data).payload = b.payload ++ data :=
  payload_overwrite b.read_le_write b.write_le_size data

@[simp] theorem payload_append (b : Buffer) (data : Bytes) :
    (b.append data).payload = b.payload ++ data := by
  unfold append
  split <;> simp

theorem payload_moveReadIndexAll (b : Buffer) : b.moveReadIndexAll.payload = [] := by
  obtain ⟨hbegin, hread, hwrite, -⟩ := b.layout
  show (b.buffer.take kBufBegin).drop kBufBegin = []
  rw [List.drop_eq_nil_iff, List.length_take]
  omega

theorem moveReadIndex_spec {b : Buffer} {len : ℕ} (h : len ≤ b.payloadSize) :
    ∃ b', b.moveReadIndex len = some b' ∧ b'.payload = b.payload.drop len := by
  refine ⟨_, dif_pos h, ?_⟩
  simp only [payload, List.drop_drop]

theorem moveReadIndexUntil_spec (b : Buffer) {len : ℕ} (h : len ≤ b.payloadSize) :
    ∃ b', b.moveReadIndexUntil (b.readIndex + len) = some b' ∧
      b'.payload = b.payload.drop len := by
  have hread := b.read_le_write
  have hsize : b.payloadSize = b.writeIndex - b.readIndex := rfl
  unfold moveReadIndexUntil
  rw [if_pos (by omega), Nat.add_sub_cancel_left]
  exact moveReadIndex_spec h

/-- The scatter read is an append of the bytes it read. -/
theorem payload_readFd (b : Buffer) (bytes : Bytes) :
    (b.readFd (.data bytes)).payload = b.payload ++ bytes := by
  simp only [readFd]
  split
  · exact payload_put b bytes
  · rw [payload_append, payload_put, List.append_assoc, List.take_append_drop]

theorem payloadSize_put (b : Buffer) (data : Bytes) :
    (b.put data).payloadSize = b.payloadSize + data.length := by
  rw [← length_payload, payload_put, List.length_append, length_payload]

theorem payloadSize_append (b : Buffer) (data : Bytes) :
    (b.append data).payloadSize = b.payloadSize + data.length := by
  rw [← length_payload, payload_append, List.length_append, length_payload]

theorem payloadSize_readFd (b : Buffer) (bytes : Bytes) :
    (b.readFd (.data bytes)).payloadSize = b.payloadSize + bytes.length := by
  rw [← length_payload, payload_readFd, List.length_append, length_payload]

end Buffer

end YxAlpha
