import YxAlpha.Library.Machine
import YxAlpha.Utility.RawBuffer

/-!
# The buffer is a queue of bytes

What a `Buffer` is for: `Append` puts bytes at the end of a queue, and the other operations
take them from its front or look at them.  `ByteQueue` is that queue, and the operations on it
are meant to be called with lengths up to its own.

`buffer_byteQueue` runs the buffer of the source beside it.  The two take the same sequences
of operations, with the same results; so no assertion fails on the way and no copy leaves the
vector.
-/

namespace YxAlpha

/-- The operations of a client; `moveReadIndexUntil` is given the pointer `peek() + len`. -/
inductive BufferOp
  | append (data : Bytes)
  | moveReadIndex (len : ℕ)
  | moveReadIndexUntil (len : ℕ)
  | moveReadIndexAll
  | getString
  | getStringNoMove
  deriving DecidableEq, Repr

/-- The operations with what they return, if anything. -/
def RawBuffer.apply (b : RawBuffer) : BufferOp → Option (Option Bytes × RawBuffer)
  | .append data => (b.append data).map (none, ·)
  | .moveReadIndex len => (b.moveReadIndex len).map (none, ·)
  | .moveReadIndexUntil len => (b.moveReadIndexUntil (b.readIndex + len)).map (none, ·)
  | .moveReadIndexAll => some (none, b.moveReadIndexAll)
  | .getString => b.getString.map fun returned => (some returned.1, returned.2)
  | .getStringNoMove => b.getStringNoMove.map fun str => (some str, b)

def RawBuffer.machine : Machine (RawBuffer × List (Option Bytes)) BufferOp :=
  .recording .new RawBuffer.apply

namespace ByteQueue

/-- The operations on a queue of bytes. -/
def apply (queue : Bytes) : BufferOp → Option (Option Bytes × Bytes)
  | .append data => some (none, queue ++ data)
  | .moveReadIndex len | .moveReadIndexUntil len =>
      if len ≤ queue.length then some (none, queue.drop len) else none
  | .moveReadIndexAll => some (none, [])
  | .getString => some (some queue, [])
  | .getStringNoMove => some (some queue, queue)

def machine : Machine (Bytes × List (Option Bytes)) BufferOp := .recording [] apply

end ByteQueue

namespace RawBuffer

/-- A buffer with its indices in order, and the queue of its payload. -/
def Holds (b : RawBuffer) (queue : Bytes) : Prop := b.Ordered ∧ b.payload = queue

theorem holds_raw {b : Buffer} {queue : Bytes} (h : b.payload = queue) : b.raw.Holds queue :=
  ⟨b.raw_ordered, h⟩

end RawBuffer

/-! ## One operation -/

theorem apply_rel (b : Buffer) (op : BufferOp) :
    Option.Rel (fun r q => r.1 = q.1 ∧ r.2.Holds q.2) (b.raw.apply op)
      (ByteQueue.apply b.payload op) := by
  cases op with
  | append data =>
      rw [RawBuffer.apply, b.raw_append]
      exact Option.Rel.some ⟨rfl, RawBuffer.holds_raw (b.payload_append data)⟩
  | moveReadIndex len =>
      rw [RawBuffer.apply, b.raw_moveReadIndex, ByteQueue.apply, b.length_payload]
      by_cases hlen : len ≤ b.payloadSize
      · obtain ⟨c, hc, hpayload⟩ := Buffer.moveReadIndex_spec hlen
        rw [hc, if_pos hlen]
        exact Option.Rel.some ⟨rfl, RawBuffer.holds_raw hpayload⟩
      · rw [Buffer.moveReadIndex, dif_neg hlen, if_neg hlen]
        exact Option.Rel.none
  | moveReadIndexUntil len =>
      rw [RawBuffer.apply, b.raw_moveReadIndexUntil, ByteQueue.apply, b.length_payload]
      show Option.Rel _ (((b.moveReadIndexUntil (b.readIndex + len)).map Buffer.raw).map _) _
      by_cases hlen : len ≤ b.payloadSize
      · obtain ⟨c, hc, hpayload⟩ := b.moveReadIndexUntil_spec hlen
        rw [hc, if_pos hlen]
        exact Option.Rel.some ⟨rfl, RawBuffer.holds_raw hpayload⟩
      · have hsize : b.payloadSize = b.writeIndex - b.readIndex := rfl
        rw [Buffer.moveReadIndexUntil, if_neg (by omega), if_neg hlen]
        exact Option.Rel.none
  | moveReadIndexAll =>
      exact Option.Rel.some ⟨rfl, RawBuffer.holds_raw b.payload_moveReadIndexAll⟩
  | getString =>
      rw [RawBuffer.apply, b.raw_getString]
      exact Option.Rel.some ⟨rfl, RawBuffer.holds_raw b.payload_moveReadIndexAll⟩
  | getStringNoMove =>
      rw [RawBuffer.apply, b.raw_getStringNoMove]
      exact Option.Rel.some ⟨rfl, RawBuffer.holds_raw rfl⟩

theorem machine_rel {s : RawBuffer × List (Option Bytes)} {q : Bytes × List (Option Bytes)}
    (op : BufferOp) (h : s.1.Holds q.1 ∧ s.2 = q.2) :
    Option.Rel (fun s q => s.1.Holds q.1 ∧ s.2 = q.2) (RawBuffer.machine.step s op)
      (ByteQueue.machine.step q op) := by
  obtain ⟨⟨hordered, hpayload⟩, hreturned⟩ := h
  obtain ⟨b, hb⟩ := Buffer.exists_raw hordered
  have hrel := apply_rel b op
  rw [← b.payload_raw, hb, hpayload] at hrel
  apply Machine.rel_map hrel
  rintro r p ⟨hsame, hholds⟩
  exact ⟨hholds, congrArg₂ (fun before new => before ++ [new]) hreturned hsame⟩

/-! ## Every sequence of operations -/

theorem ordered_step {s t : RawBuffer × List (Option Bytes)} {op : BufferOp} (hs : s.1.Ordered)
    (hstep : RawBuffer.machine.step s op = some t) : t.1.Ordered := by
  have hrel := machine_rel (q := (s.1.payload, s.2)) op ⟨⟨hs, rfl⟩, rfl⟩
  rw [hstep] at hrel
  cases hq : ByteQueue.machine.step (s.1.payload, s.2) op with
  | none =>
      rw [hq] at hrel
      cases hrel
  | some q =>
      rw [hq] at hrel
      cases hrel with
      | some hboth => exact hboth.1.1

/-- Growing and compacting leave the payload as it is. -/
theorem resize_of_ordered {b : RawBuffer} (hb : b.Ordered) {len : ℕ} (hlen : b.remainSize < len) :
    ∃ c, b.resize len = some c ∧ c.Ordered ∧ c.payload = b.payload := by
  obtain ⟨buffer, rfl⟩ := Buffer.exists_raw hb
  exact ⟨_, buffer.raw_resize hlen, Buffer.raw_ordered _, buffer.payload_resize len⟩

/-- **The buffer is a byte queue**: every sequence of operations that a queue of bytes takes,
with lengths up to its own, the buffer takes, returning the same strings and with the same
bytes as its payload; the indices are in order throughout, and `Resize` never changes the
payload. -/
theorem buffer_byteQueue (ops : List BufferOp) :
    Option.Rel (fun s q => s.1.payload = q.1 ∧ s.2 = q.2)
      (RawBuffer.machine.exec RawBuffer.machine.init ops)
      (ByteQueue.machine.exec ByteQueue.machine.init ops) ∧
    RawBuffer.machine.Throughout
      (fun s => s.1.Ordered ∧ ∀ len, s.1.remainSize < len →
        ∃ c, s.1.resize len = some c ∧ c.Ordered ∧ c.payload = s.1.payload)
      RawBuffer.machine.init ops := by
  have hinit : RawBuffer.new.Holds [] := RawBuffer.holds_raw Buffer.payload_new
  constructor
  · have hrun := Machine.exec_rel (m := RawBuffer.machine) (n := ByteQueue.machine)
      (fun _ _ op h => machine_rel op h) (s := RawBuffer.machine.init)
      (t := ByteQueue.machine.init) ⟨hinit, rfl⟩ ops
    have hsame := Machine.rel_map (f := id) (g := id) hrun
      (S := fun s q => s.1.payload = q.1 ∧ s.2 = q.2) fun _ _ h => ⟨h.1.2, h.2⟩
    simpa using hsame
  · apply (Machine.throughout_of_invariant (m := RawBuffer.machine) (I := fun s => s.1.Ordered)
      (fun _ _ _ hs hstep => ordered_step hs hstep) hinit.1 ops).mono
    intro s hs
    exact ⟨hs, fun _ hlen => resize_of_ordered hs hlen⟩

end YxAlpha
