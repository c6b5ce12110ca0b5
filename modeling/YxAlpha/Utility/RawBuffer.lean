import YxAlpha.Library.Copying
import YxAlpha.Utility.Buffer

/-!
# The buffer without its invariant

`RawBuffer` is `Buffer` of `utility/buffer.h` with nothing promised about its indices, and its
operations are those of the source statement by statement: an assertion that fails, a read or
write outside the vector and a `std::copy` onto a place inside its own range are `none`.

On the buffers of `Buffer.lean`, whose indices are in order, the operations are the ones
defined there and none of these happens: `raw_resize`, `raw_append` and so on.  In particular
no subtraction of two `size_t` goes below zero.
-/

namespace YxAlpha

structure RawBuffer where
  buffer : Bytes
  readIndex : ℕ
  writeIndex : ℕ
  deriving DecidableEq, Repr

/-- `vector::resize`. -/
def vectorResize (v : Bytes) (size : ℕ) : Bytes :=
  v.take size ++ List.replicate (size - v.length) 0

/-- `std::copy` of `[first, last)` to `dst`, in the same vector. -/
def stdCopy (v : Bytes) (first last dst : ℕ) : Option Bytes :=
  if first ≤ dst ∧ dst < last then none else Copying.copyLoop v first dst (last - first)

/-- The `len` bytes from index `start` on. -/
def readBytes (v : Bytes) (start len : ℕ) : Option Bytes :=
  if start + len ≤ v.length then some ((v.drop start).take len) else none

/-- What `readv` does: it has read so many bytes, or has failed. -/
inductive ReadvAnswer
  | count (n : ℕ)
  | error (errno : ℕ)
  deriving DecidableEq, Repr

/-- How `readv` spreads what it reads over vectors of these lengths, in their order. -/
def scatter : List ℕ → Bytes → List Bytes
  | [], _ => []
  | len :: lens, data => data.take len :: scatter lens (data.drop len)

namespace RawBuffer

def new : RawBuffer where
  buffer := List.replicate (kBufBegin + kDefaultSize) 0
  readIndex := kBufBegin
  writeIndex := kBufBegin

variable (b : RawBuffer)

/-- The indices are in order. -/
structure Ordered (b : RawBuffer) : Prop where
  begin_le_read : kBufBegin ≤ b.readIndex
  read_le_write : b.readIndex ≤ b.writeIndex
  write_le_size : b.writeIndex ≤ b.buffer.length

def payloadSize : ℕ := b.writeIndex - b.readIndex

def remainSize : ℕ := b.buffer.length - b.writeIndex

/-- The bytes between the indices. -/
def payload : Bytes := (b.buffer.take b.writeIndex).drop b.readIndex

def resize (len : ℕ) : Option RawBuffer :=
  if b.readIndex - kBufBegin + b.remainSize < len then
    some { b with buffer := vectorResize b.buffer (b.writeIndex + len) }
  else
    let pSize := b.payloadSize
    (stdCopy b.buffer b.readIndex b.writeIndex kBufBegin).map fun buffer =>
      { buffer, readIndex := kBufBegin, writeIndex := kBufBegin + pSize }

/-- The copy of `Append` and the move of the write index behind it. -/
def put (data : Bytes) : Option RawBuffer :=
  (Copying.store b.buffer b.writeIndex data).map fun buffer =>
    { b with buffer, writeIndex := b.writeIndex + data.length }

def append (data : Bytes) : Option RawBuffer :=
  (if b.remainSize < data.length then b.resize data.length else some b).bind fun b => b.put data

def moveReadIndex (len : ℕ) : Option RawBuffer :=
  if len ≤ b.payloadSize then some { b with readIndex := b.readIndex + len } else none

def moveReadIndexUntil (stop : ℕ) : Option RawBuffer :=
  if stop ≤ b.writeIndex ∧ b.readIndex ≤ stop then b.moveReadIndex (stop - b.readIndex) else none

def moveReadIndexAll : RawBuffer := { b with readIndex := kBufBegin, writeIndex := kBufBegin }

def getString : Option (Bytes × RawBuffer) :=
  (readBytes b.buffer b.readIndex b.payloadSize).map fun str => (str, b.moveReadIndexAll)

def getStringNoMove : Option Bytes := readBytes b.buffer b.readIndex b.payloadSize

/-- `GetCharStr` moves the read index first, and reads from there: what it returns is not
the front of the payload, and may lie outside the vector. -/
def getCharStr (len : ℕ) : Option Bytes × RawBuffer :=
  let minLen := if len > b.payloadSize then b.payloadSize else len
  let moved := { b with readIndex := b.readIndex + minLen }
  (readBytes moved.buffer moved.readIndex len, moved)

/-- The lengths of the vectors that `readFd` passes to `readv`. -/
def iovLengths : List ℕ :=
  if b.remainSize < extraBufSize then [b.remainSize, extraBufSize] else [b.remainSize]

/-- `readFd` with `stream` waiting in the descriptor: what it returns, the `errno` it leaves in
`saved_errno`, and the buffer.  `extrabuf` is the stack buffer, whatever is in it. -/
def readFd (extrabuf : Vector UInt8 extraBufSize) (stream : Bytes) (answer : ReadvAnswer)
    (savedErrno : ℕ) : Option (ℤ × ℕ × RawBuffer) :=
  let writable := b.remainSize
  match answer with
  | .error errno => some (-1, errno, b)
  | .count n =>
      let filled := scatter b.iovLengths (stream.take n)
      (Copying.store b.buffer b.writeIndex (filled.getD 0 [])).bind fun buffer =>
      (Copying.store extrabuf.toList 0 (filled.getD 1 [])).bind fun extrabuf =>
        if n ≤ writable then
          some (n, savedErrno, { b with buffer, writeIndex := b.writeIndex + n })
        else
          ({ b with buffer, writeIndex := buffer.length }.append (extrabuf.take (n - writable))).map
            fun b => (n, savedErrno, b)

end RawBuffer

/-! ## Buffers whose indices are in order -/

namespace Buffer

def raw (b : Buffer) : RawBuffer := ⟨b.buffer, b.readIndex, b.writeIndex⟩

theorem raw_ordered (b : Buffer) : b.raw.Ordered :=
  ⟨b.begin_le_read, b.read_le_write, b.write_le_size⟩

theorem exists_raw {r : RawBuffer} (h : r.Ordered) : ∃ b : Buffer, b.raw = r :=
  ⟨⟨r.buffer, r.readIndex, r.writeIndex, h.begin_le_read, h.read_le_write, h.write_le_size⟩, rfl⟩

@[simp] theorem payload_raw (b : Buffer) : b.raw.payload = b.payload := rfl

@[simp] theorem payloadSize_raw (b : Buffer) : b.raw.payloadSize = b.payloadSize := rfl

@[simp] theorem remainSize_raw (b : Buffer) : b.raw.remainSize = b.remainSize := rfl

theorem payload_eq_take_drop (b : Buffer) :
    b.payload = (b.buffer.drop b.readIndex).take b.payloadSize := by
  rw [payload, List.drop_take]
  rfl

/-- A payload is moved only when there are consumed bytes in front of it, so the two ranges of
the copy may overlap but do not begin at one place. -/
theorem raw_resize (b : Buffer) {len : ℕ} (hlen : b.remainSize < len) :
    b.raw.resize len = some (b.resize len).raw := by
  obtain ⟨hbegin, hread, hwrite, hsize, -⟩ := b.layout
  rw [RawBuffer.resize, resize]
  by_cases hgrow : b.readIndex - kBufBegin + b.remainSize < len
  · rw [if_pos (show b.raw.readIndex - kBufBegin + b.raw.remainSize < len from hgrow), if_pos hgrow]
    rfl
  · have hmove : kBufBegin < b.readIndex := by omega
    have hcopy : stdCopy b.buffer b.readIndex b.writeIndex kBufBegin =
        some (overwrite b.buffer kBufBegin b.payload) := by
      rw [stdCopy, if_neg (by omega),
        Copying.copyLoop_eq_some (Nat.le_of_lt hmove) (by omega), overwrite, length_payload,
        payload_eq_take_drop, hsize]
    rw [if_neg (show ¬ b.raw.readIndex - kBufBegin + b.raw.remainSize < len from hgrow),
      if_neg hgrow]
    show (stdCopy b.buffer b.readIndex b.writeIndex kBufBegin).map _ = _
    rw [hcopy]
    rfl

theorem raw_put (b : Buffer) {data : Bytes} (hdata : data.length ≤ b.remainSize) :
    b.raw.put data = some (b.put data).raw := by
  have hwrite := b.write_le_size
  have hroom : b.writeIndex + data.length ≤ b.buffer.length := by
    unfold remainSize at hdata
    omega
  show (Copying.store b.buffer b.writeIndex data).map _ = _
  rw [Copying.store_eq_some hroom]
  rfl

/-- After `Resize` there is room. -/
theorem le_remainSize_resize (b : Buffer) {len : ℕ} : len ≤ (b.resize len).remainSize := by
  obtain ⟨hbegin, hread, hwrite, -⟩ := b.layout
  unfold resize
  split
  · show len ≤ (b.buffer.take (b.writeIndex + len) ++ List.replicate _ 0).length - b.writeIndex
    rw [List.length_append, List.length_take, List.length_replicate]
    omega
  · rename_i hspace
    show len ≤ (overwrite b.buffer kBufBegin b.payload).length - (kBufBegin + b.payloadSize)
    rw [length_overwrite (by omega), length_payload]
    unfold remainSize payloadSize at *
    omega

theorem raw_append (b : Buffer) (data : Bytes) : b.raw.append data = some (b.append data).raw := by
  unfold RawBuffer.append append
  rw [remainSize_raw]
  by_cases hspace : b.remainSize < data.length
  · rw [if_pos hspace, if_pos hspace, raw_resize b hspace, Option.bind_some,
      raw_put _ b.le_remainSize_resize]
  · rw [if_neg hspace, if_neg hspace, Option.bind_some, raw_put b (Nat.le_of_not_lt hspace)]

theorem raw_moveReadIndex (b : Buffer) (len : ℕ) :
    b.raw.moveReadIndex len = (b.moveReadIndex len).map raw := by
  unfold RawBuffer.moveReadIndex moveReadIndex
  rw [payloadSize_raw]
  split <;> rfl

theorem raw_moveReadIndexUntil (b : Buffer) (stop : ℕ) :
    b.raw.moveReadIndexUntil stop = (b.moveReadIndexUntil stop).map raw := by
  unfold RawBuffer.moveReadIndexUntil moveReadIndexUntil
  rw [raw_moveReadIndex]
  show (if stop ≤ b.writeIndex ∧ b.readIndex ≤ stop then _ else none) = _
  split <;> rfl

theorem readBytes_payload (b : Buffer) :
    readBytes b.buffer b.readIndex b.payloadSize = some b.payload := by
  obtain ⟨-, hread, hwrite, hsize, -⟩ := b.layout
  rw [readBytes, if_pos (by omega), payload_eq_take_drop]

theorem raw_getString (b : Buffer) :
    b.raw.getString = some (b.payload, b.moveReadIndexAll.raw) := by
  show (readBytes b.buffer b.readIndex b.payloadSize).map _ = _
  rw [readBytes_payload]
  rfl

theorem raw_getStringNoMove (b : Buffer) : b.raw.getStringNoMove = some b.payload :=
  b.readBytes_payload

theorem sum_iovLengths_raw (b : Buffer) : b.raw.iovLengths.sum = b.readLimit := by
  unfold RawBuffer.iovLengths readLimit
  rw [remainSize_raw]
  split <;> simp

/-- What is read behind the free tail fits into the stack buffer. -/
theorem scatter_iovLengths (b : Buffer) {data : Bytes} (hlimit : data.length ≤ b.readLimit) :
    (scatter b.raw.iovLengths data).getD 0 [] = data.take b.remainSize ∧
      (scatter b.raw.iovLengths data).getD 1 [] = data.drop b.remainSize := by
  unfold readLimit at hlimit
  unfold RawBuffer.iovLengths
  rw [remainSize_raw]
  split
  · rename_i hsmall
    rw [if_pos hsmall] at hlimit
    refine ⟨rfl, ?_⟩
    show (data.drop b.remainSize).take extraBufSize = data.drop b.remainSize
    apply List.take_of_length_le
    rw [List.length_drop]
    omega
  · rename_i hlarge
    rw [if_neg hlarge] at hlimit
    exact ⟨rfl, (List.drop_eq_nil_of_le hlimit).symm⟩

theorem raw_readFd (b : Buffer) (extrabuf : Vector UInt8 extraBufSize) {stream : Bytes} {n : ℕ}
    (hlimit : n ≤ b.readLimit) (hstream : n ≤ stream.length) (savedErrno : ℕ) :
    b.raw.readFd extrabuf stream (.count n) savedErrno =
      some ((n : ℤ), savedErrno, (b.readFd (.data (stream.take n))).raw) := by
  set data := stream.take n with hdata
  have hlength : data.length = n := by
    rw [hdata, List.length_take, Nat.min_eq_left hstream]
  obtain ⟨hfirst, hsecond⟩ := b.scatter_iovLengths (hlength ▸ hlimit)
  have hwrite := b.write_le_size
  have hfree : b.remainSize = b.buffer.length - b.writeIndex := rfl
  have htail : (data.take b.remainSize).length ≤ b.remainSize := List.length_take_le _ _
  -- `readv` fills the free tail, then the stack buffer
  have hfilled : Copying.store b.buffer b.writeIndex (data.take b.remainSize) =
      some (b.put (data.take b.remainSize)).buffer := Copying.store_eq_some (by omega)
  have hextra : (data.drop b.remainSize).length ≤ extraBufSize := by
    rw [List.length_drop, hlength]
    unfold readLimit at hlimit
    split at hlimit <;> omega
  have hstack : Copying.store extrabuf.toList 0 (data.drop b.remainSize) =
      some (data.drop b.remainSize ++ extrabuf.toList.drop (data.drop b.remainSize).length) := by
    rw [Copying.store_eq_some (by simpa using hextra), List.take_zero, List.nil_append,
      Nat.zero_add]
  unfold RawBuffer.readFd
  dsimp only
  rw [hfirst, hsecond, hstack]
  show (Copying.store b.buffer b.writeIndex _).bind _ = _
  rw [hfilled, Option.bind_some, Option.bind_some, remainSize_raw, readFd, hlength]
  by_cases hspill : n ≤ b.remainSize
  · rw [if_pos hspill, if_pos hspill, List.take_of_length_le (hlength.trans_le hspill)]
    show some _ = some ((n : ℤ), savedErrno, (b.put data).raw)
    rw [← hlength]
    rfl
  · rw [if_neg hspill, if_neg hspill]
    have hspilled : (data.drop b.remainSize).length = n - b.remainSize := by
      rw [List.length_drop, hlength]
    have hfull : (⟨(b.put (data.take b.remainSize)).buffer, b.readIndex,
        (b.put (data.take b.remainSize)).buffer.length⟩ : RawBuffer) =
        (b.put (data.take b.remainSize)).raw := by
      have hsize : (b.put (data.take b.remainSize)).buffer.length =
          b.writeIndex + (data.take b.remainSize).length := by
        show (overwrite b.buffer b.writeIndex _).length = _
        rw [length_overwrite hwrite, List.length_take]
        omega
      rw [hsize]
      rfl
    rw [← hspilled, List.take_left]
    show (RawBuffer.append ⟨_, b.readIndex, _⟩ _).map _ = _
    rw [hfull, raw_append]
    rfl

end Buffer

end YxAlpha
