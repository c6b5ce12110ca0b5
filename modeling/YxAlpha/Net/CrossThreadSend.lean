import Mathlib.Logic.Function.Basic
import YxAlpha.Library.Machine
import YxAlpha.Net.TcpConnection

/-!
# What a queued Send reads

A thread that is not the loop thread, and that `is_same_thread` does not take for
it, appends to its own `Buffer`, keeps strings, and calls both forms of `Send`.
`Send` binds a pointer and a length into the task, so the task reads the caller's
storage when the loop runs it.
`CallerMemory` is that storage: what is allocated, and where the vector of the
buffer lives; growing the vector beyond its capacity moves it.

`handed` lists what the tasks have passed to `SendInLoop`, `expected` the payloads
at the calls.  The caller's later operations decide whether they agree: `Send`
itself resets the indices of the buffer, so the next `Append` overwrites the bytes
the task points to.  `handed_expected` says what is enough: while a task waits, no
operation of the caller frees its bytes or changes one of them.
-/

namespace YxAlpha

/-- Storage by the address it was allocated at. -/
abbrev Heap := ℕ → Option Bytes

/-- A pointer into some storage and a length. -/
structure Captured where
  storage : ℕ
  offset : ℕ
  len : ℕ
  deriving DecidableEq, Repr

/-- What the pointer reads as, if its storage is still allocated. -/
def Captured.load (heap : Heap) (data : Captured) : Option Bytes :=
  (heap data.storage).map fun bytes => (bytes.drop data.offset).take data.len

/-- The storage of a thread that owns a buffer. -/
structure CallerMemory where
  heap : Heap
  /-- The next address to be allocated. -/
  next : ℕ
  buf : Buffer
  /-- Where the vector of the buffer lives, and how far it can grow there. -/
  home : ℕ
  capacity : ℕ
  home_lt_next : home < next
  heap_home : heap home = some buf.buffer

inductive CallerAction
  | append (data : Bytes) (grown : ℕ)
  | readFd (r : Buffer.ReadResult) (grown : ℕ)
  | moveReadIndex (len : ℕ)
  | moveReadIndexAll
  | renewBuffer
  | newString (str : Bytes)
  | assignString (address : ℕ) (str : Bytes)
  | freeString (address : ℕ)
  deriving Repr

namespace CallerMemory

def new : CallerMemory where
  heap := Function.update (fun _ => none) 0 (some Buffer.new.buffer)
  next := 1
  buf := .new
  home := 0
  capacity := Buffer.new.buffer.length
  home_lt_next := Nat.zero_lt_one
  heap_home := Function.update_self _ _ _

/-- Stores a buffer whose vector has been written: in place, or in new storage of
capacity `grown` when it has outgrown the old one. -/
def store (m : CallerMemory) (buf : Buffer) (grown : ℕ) : CallerMemory :=
  if buf.buffer.length ≤ m.capacity then
    { m with
      heap := Function.update m.heap m.home (some buf.buffer)
      buf
      heap_home := Function.update_self _ _ _ }
  else
    { heap := Function.update (Function.update m.heap m.home none) m.next (some buf.buffer)
      next := m.next + 1
      buf
      home := m.next
      capacity := max grown buf.buffer.length
      home_lt_next := Nat.lt_succ_self _
      heap_home := Function.update_self _ _ _ }

/-- Moves the indices of the buffer only. -/
def withBuffer (m : CallerMemory) (buf : Buffer) (h : buf.buffer = m.buf.buffer) : CallerMemory :=
  { m with buf, heap_home := by rw [h]; exact m.heap_home }

theorem buffer_moveReadIndex {b b' : Buffer} {len : ℕ} (h : b.moveReadIndex len = some b') :
    b'.buffer = b.buffer := by
  unfold Buffer.moveReadIndex at h
  split at h <;> cases h
  rfl

/-- `move_read_index_all`. -/
def resetBuffer (m : CallerMemory) : CallerMemory := m.withBuffer m.buf.moveReadIndexAll rfl

/-- Writes or frees a string of the caller, in place. -/
def writeString (m : CallerMemory) (address : ℕ) (str : Option Bytes) : Option CallerMemory :=
  if h : m.home ≠ address ∧ (m.heap address).isSome then
    some
      { m with
        heap := Function.update m.heap address str
        heap_home := by rw [Function.update_of_ne h.1]; exact m.heap_home }
  else none

def step (m : CallerMemory) : CallerAction → Option CallerMemory
  | .append data grown => some (m.store (m.buf.append data) grown)
  | .readFd r grown => some (m.store (m.buf.readFd r) grown)
  | .moveReadIndex len =>
      match h : m.buf.moveReadIndex len with
      | some buf => some (m.withBuffer buf (buffer_moveReadIndex h))
      | none => none
  | .moveReadIndexAll => some m.resetBuffer
  | .renewBuffer =>
      some
        { heap := Function.update (Function.update m.heap m.home none) m.next
            (some Buffer.new.buffer)
          next := m.next + 1
          buf := .new
          home := m.next
          capacity := Buffer.new.buffer.length
          home_lt_next := Nat.lt_succ_self _
          heap_home := Function.update_self _ _ _ }
  | .newString str =>
      some
        { m with
          heap := Function.update m.heap m.next (some str)
          next := m.next + 1
          home_lt_next := m.home_lt_next.trans (Nat.lt_succ_self _)
          heap_home := by rw [Function.update_of_ne m.home_lt_next.ne]; exact m.heap_home }
  | .assignString address str => m.writeString address (some str)
  | .freeString address => m.writeString address none

/-- What `Send(Buffer *)` binds: `peek()` and `payload_size()`. -/
def captureBuffer (m : CallerMemory) : Captured := ⟨m.home, m.buf.readIndex, m.buf.payloadSize⟩

theorem load_captureBuffer (m : CallerMemory) :
    m.captureBuffer.load m.heap = some m.buf.payload := by
  simp only [captureBuffer, Captured.load, m.heap_home, Option.map_some, Buffer.payload,
    Buffer.payloadSize, List.drop_take]

end CallerMemory

/-! ## The machine -/

/-- A thread that sends, the connection it sends on, and the queue of the loop. -/
structure CrossSender where
  conn : TcpConnection
  memory : CallerMemory
  pending : List Captured
  batch : List Captured
  callingPendingFuncs : Bool
  handed : List Bytes
  expected : List Bytes

inductive SendAction
  | caller (action : CallerAction)
  | sendBuffer
  | sendString (address : ℕ)
  | established
  | shutDown
  | handleWrite (r : WriteResult)
  | swapPendingFuncs
  | runTask (r : WriteResult) (garbage : Bytes)
  | finishPendingFuncs

namespace CrossSender

def init (highWaterMark : ℕ) (hasWriteComplete hasHighWaterMark : Bool) : CrossSender where
  conn := .new highWaterMark hasWriteComplete hasHighWaterMark
  memory := .new
  pending := []
  batch := []
  callingPendingFuncs := false
  handed := []
  expected := []

def step (s : CrossSender) : SendAction → Option CrossSender
  | .caller action => (s.memory.step action).map fun memory => { s with memory }
  | .sendBuffer =>
      if s.conn.state = .connected then
        -- Moving the indices leaves the bytes, so whether the loop runs the task
        -- before it or behind it makes no difference.
        some { s with
          pending := s.pending ++ [s.memory.captureBuffer]
          memory := s.memory.resetBuffer
          expected := s.expected ++ [s.memory.buf.payload] }
      else some s
  | .sendString address =>
      match s.memory.heap address with
      | some str =>
          if s.conn.state = .connected then
            some { s with
              pending := s.pending ++ [⟨address, 0, str.length⟩]
              expected := s.expected ++ [str] }
          else some s
      | none => none
  | .established => s.conn.setConnectionEstablished.map fun conn => { s with conn }
  | .shutDown => some { s with conn := s.conn.shutDown }
  | .handleWrite r =>
      if s.callingPendingFuncs = false ∧ r.Fits s.conn.outputBuf.payloadSize then
        (s.conn.handleWrite r).map fun conn => { s with conn }
      else none
  | .swapPendingFuncs =>
      if s.callingPendingFuncs = false then
        some { s with batch := s.pending, pending := [], callingPendingFuncs := true }
      else none
  | .runTask r garbage =>
      match s.batch with
      | data :: batch =>
          -- Freed storage reads as anything.
          let bytes := (data.load s.memory.heap).getD garbage
          if r.Fits bytes.length then
            some { s with
              conn := s.conn.sendInLoop r bytes
              batch
              handed := s.handed ++ [bytes] }
          else none
      | [] => none
  | .finishPendingFuncs =>
      if s.callingPendingFuncs = true ∧ s.batch = [] then
        some { s with callingPendingFuncs := false }
      else none

def machine (highWaterMark : ℕ) (hasWriteComplete hasHighWaterMark : Bool) :
    Machine CrossSender SendAction where
  init := init highWaterMark hasWriteComplete hasHighWaterMark
  step := step

/-- The tasks that have not run. -/
def waiting (s : CrossSender) : List Captured := s.batch ++ s.pending

/-- What the socket and the output buffer got is what the tasks have handed over,
and that is, in order, what the calls of `Send` passed, up to those of the tasks that wait. -/
def Faithful (s : CrossSender) : Prop :=
  s.conn.stream = s.handed.flatten ∧ s.handed <+: s.expected ∧
    s.expected.length = s.handed.length + s.waiting.length

/-- When no task waits, all that was passed to `Send` has been handed over. -/
theorem Faithful.handed_eq {s : CrossSender} (hs : s.Faithful) (hnone : s.waiting = []) :
    s.handed = s.expected := by
  obtain ⟨-, hprefix, hlength⟩ := hs
  rw [hnone, List.length_nil, Nat.add_zero] at hlength
  exact hprefix.eq_of_length hlength.symm

/-- An operation of the caller neither frees nor changes bytes that a waiting task
points to. -/
def Undisturbed (s : CrossSender) : SendAction → Prop
  | .caller action => ∀ memory, s.memory.step action = some memory →
      ∀ data ∈ s.waiting, data.load memory.heap = data.load s.memory.heap
  | _ => True

instance (s : CrossSender) : ∀ action, Decidable (s.Undisturbed action)
  | .caller action => Machine.decidableForallSome (s.memory.step action)
  | .sendBuffer | .sendString _ | .established | .shutDown | .handleWrite _ | .swapPendingFuncs
  | .runTask _ _ | .finishPendingFuncs => isTrue trivial

/-! ## The invariant -/

/-- The waiting tasks read as the rest of what is expected. -/
structure Inv (s : CrossSender) : Prop where
  stream : s.conn.stream = s.handed.flatten
  expected : ∃ rest, s.expected = s.handed ++ rest ∧
    s.waiting.map (Captured.load s.memory.heap) = rest.map some
  idle : s.callingPendingFuncs = false → s.batch = []

namespace Inv

variable {s t : CrossSender} {action : SendAction}

theorem init (highWaterMark : ℕ) (hasWriteComplete hasHighWaterMark : Bool) :
    (CrossSender.init highWaterMark hasWriteComplete hasHighWaterMark).Inv where
  stream := by simp [CrossSender.init, TcpConnection.new, TcpConnection.stream, Socket.new]
  expected := ⟨[], rfl, rfl⟩
  idle _ := rfl

theorem faithful (hs : s.Inv) : s.Faithful := by
  obtain ⟨rest, hexpected, hwaiting⟩ := hs.expected
  have hlength : s.waiting.length = rest.length := by
    simpa using congrArg List.length hwaiting
  refine ⟨hs.stream, ⟨rest, hexpected.symm⟩, ?_⟩
  rw [hexpected, List.length_append, hlength]

/-- The memory may change as long as the waiting tasks read the same. -/
theorem withMemory (hs : s.Inv) {memory : CallerMemory}
    (hload : ∀ data ∈ s.waiting, data.load memory.heap = data.load s.memory.heap) :
    Inv { s with memory } := by
  obtain ⟨rest, hexpected, hwaiting⟩ := hs.expected
  exact { hs with expected := ⟨rest, hexpected, (List.map_congr_left hload).trans hwaiting⟩ }

/-- A call of `Send` queues a task that reads as the payload of the call. -/
theorem queue (hs : s.Inv) (data : Captured) {payload : Bytes} {memory : CallerMemory}
    (hload : data.load s.memory.heap = some payload) (hheap : memory.heap = s.memory.heap) :
    Inv { s with pending := s.pending ++ [data], memory, expected := s.expected ++ [payload] } := by
  obtain ⟨rest, hexpected, hwaiting⟩ := hs.expected
  refine { hs with expected := ⟨rest ++ [payload], ?_, ?_⟩ }
  · rw [hexpected, List.append_assoc]
  · show (s.batch ++ (s.pending ++ [data])).map (Captured.load memory.heap) = _
    rw [← List.append_assoc, ← waiting, hheap, List.map_append, List.map_append, hwaiting]
    simp [hload]

/-- The first waiting task hands over what is expected next. -/
theorem run (hs : s.Inv) {data : Captured} {batch : List Captured}
    (hbatch : s.batch = data :: batch)
    (r : WriteResult) (garbage : Bytes)
    (hr : r.Fits ((data.load s.memory.heap).getD garbage).length) :
    Inv { s with
      conn := s.conn.sendInLoop r ((data.load s.memory.heap).getD garbage)
      batch
      handed := s.handed ++ [(data.load s.memory.heap).getD garbage] } := by
  obtain ⟨rest, hexpected, hwaiting⟩ := hs.expected
  cases rest with
  | nil => simp [waiting, hbatch] at hwaiting
  | cons payload rest =>
      simp only [waiting, hbatch, List.cons_append, List.map_cons, List.cons.injEq] at hwaiting
      obtain ⟨hload, hrest⟩ := hwaiting
      rw [hload, Option.getD_some] at hr ⊢
      refine ⟨?_, ⟨rest, ?_, hrest⟩, ?_⟩
      · rw [TcpConnection.stream_sendInLoop hr, hs.stream]
        simp
      · rw [hexpected, List.append_assoc]
        rfl
      · intro h
        rw [hs.idle h] at hbatch
        cases hbatch

theorem step (hs : s.Inv) (hguard : s.Undisturbed action) (hstep : s.step action = some t) :
    t.Inv := by
  cases action with
  | caller action =>
      obtain ⟨memory, hmemory, rfl⟩ := Option.map_eq_some_iff.mp hstep
      exact hs.withMemory (hguard memory hmemory)
  | sendBuffer =>
      simp only [CrossSender.step] at hstep
      split at hstep <;> cases hstep
      · exact hs.queue _ s.memory.load_captureBuffer rfl
      · exact hs
  | sendString address =>
      simp only [CrossSender.step] at hstep
      split at hstep
      · rename_i str hstr
        split at hstep <;> cases hstep
        · exact hs.queue ⟨address, 0, str.length⟩ (by simp [Captured.load, hstr]) rfl
        · exact hs
      · cases hstep
  | established =>
      obtain ⟨conn, hconn, rfl⟩ := Option.map_eq_some_iff.mp hstep
      unfold TcpConnection.setConnectionEstablished at hconn
      split at hconn <;> cases hconn
      exact { hs with }
  | shutDown =>
      cases hstep
      exact { hs with stream := by rw [TcpConnection.stream_shutDown]; exact hs.stream }
  | handleWrite r =>
      simp only [CrossSender.step] at hstep
      split at hstep
      · rename_i hr
        obtain ⟨conn, hwrite, rfl⟩ := Option.map_eq_some_iff.mp hstep
        exact { hs with
          stream := by rw [TcpConnection.stream_handleWrite hr.2 hwrite]; exact hs.stream }
      · cases hstep
  | swapPendingFuncs =>
      simp only [CrossSender.step] at hstep
      split at hstep <;> cases hstep
      refine { hs with expected := ?_, idle := by simp }
      simpa [waiting, hs.idle ‹_›] using hs.expected
  | runTask r garbage =>
      simp only [CrossSender.step] at hstep
      split at hstep
      · split at hstep <;> cases hstep
        exact hs.run ‹_› r garbage ‹_›
      · cases hstep
  | finishPendingFuncs =>
      simp only [CrossSender.step] at hstep
      split at hstep <;> cases hstep
      rename_i hdone
      exact { hs with idle := fun _ => hdone.2 }

end Inv

/-- **What a queued Send transmits.**  In a run whose caller leaves the bytes of
waiting tasks alone, the tasks hand over what was passed to `Send`, in order; what has not
been handed over is what the waiting tasks are for. -/
theorem handed_expected (highWaterMark : ℕ) (hasWriteComplete hasHighWaterMark : Bool)
    (actions : List SendAction)
    (hguard : (machine highWaterMark hasWriteComplete hasHighWaterMark).EachStep Undisturbed
      (machine highWaterMark hasWriteComplete hasHighWaterMark).init actions) :
    (machine highWaterMark hasWriteComplete hasHighWaterMark).Throughout Faithful
      (machine highWaterMark hasWriteComplete hasHighWaterMark).init actions :=
  (Machine.throughout_of_guarded (I := Inv) (fun _ _ _ hs hguard hstep => hs.step hguard hstep)
    (Inv.init highWaterMark hasWriteComplete hasHighWaterMark) hguard).mono fun _ hs => hs.faithful

/-- A caller that waits for the task before it appends again. -/
def appendAfterTask : List SendAction :=
  [.established, .caller (.append [97] 0), .sendBuffer, .swapPendingFuncs, .runTask (.wrote 1) [],
    .finishPendingFuncs, .caller (.append [98] 0)]

theorem handed_expected_appendAfterTask :
    (machine 1 false false).Throughout Faithful (machine 1 false false).init appendAfterTask :=
  handed_expected 1 false false appendAfterTask (by decide +kernel)

/-- A caller that appends again before the task runs. -/
def appendBeforeTask : List SendAction :=
  [.established, .caller (.append [97] 0), .sendBuffer, .caller (.append [98] 0),
    .swapPendingFuncs, .runTask (.wrote 1) []]

theorem not_faithful_appendBeforeTask :
    ∃ s, (machine 1 false false).exec (machine 1 false false).init appendBeforeTask = some s ∧
      s.expected = [[97]] ∧ s.handed = [[98]] ∧ ¬ s.Faithful := by
  have hrun : ((machine 1 false false).exec (machine 1 false false).init appendBeforeTask).map
      (fun s => (s.expected, s.handed)) = some ([[97]], [[98]]) := by
    decide +kernel
  obtain ⟨s, hs, hpair⟩ := Option.map_eq_some_iff.mp hrun
  obtain ⟨hexpected, hhanded⟩ := Prod.mk.inj hpair
  refine ⟨s, hs, hexpected, hhanded, ?_⟩
  intro hfaithful
  have hpre := hfaithful.2.1
  rw [hexpected, hhanded] at hpre
  simp at hpre

end CrossSender

end YxAlpha
