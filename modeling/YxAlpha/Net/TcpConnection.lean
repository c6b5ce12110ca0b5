import YxAlpha.Utility.Buffer

/-!
# TCP connections

`TcpConnection` is `net/tcpconnection.h` with the interest set of its
`EventHandler` and the two things its `Socket` has done that the peer can see:
the bytes `write` has accepted and the calls of `ShutDownWrite`.  What the
operating system decides is an argument of an operation, a failed `assert` is
`none`, and the user callbacks that are queued in the loop are logged in
`queued`.

The operations are those of the loop thread.  A call from another thread queues
the same operations as tasks, which is what the machines of the following files
model.
-/

namespace YxAlpha

inductive ConnState
  | connecting | connected | disconnecting | disconnected
  deriving DecidableEq, Repr

/-- What `write` returns: a number of bytes, or `-1` with an errno. -/
inductive WriteResult
  | wrote (n : ℕ)
  | failed (errno : ℕ)
  deriving DecidableEq, Repr

namespace WriteResult

/-- The result is one `write` can have for `len` bytes. -/
def Fits (len : ℕ) : WriteResult → Prop
  | wrote n => n ≤ len
  | failed _ => True

instance (len : ℕ) : ∀ r : WriteResult, Decidable (r.Fits len)
  | wrote n => inferInstanceAs (Decidable (n ≤ len))
  | failed _ => inferInstanceAs (Decidable True)

end WriteResult

/-- The answer of the kernel to a `write` of any length. -/
abbrev KernelWrite := (len : ℕ) → { r : WriteResult // r.Fits len }

namespace WriteResult

/-- The kernel that gives this answer, where it can. -/
def kernel (r : WriteResult) : KernelWrite := fun len =>
  if h : r.Fits len then ⟨r, h⟩ else ⟨.failed 0, trivial⟩

theorem kernel_eq {r : WriteResult} {len : ℕ} (hr : r.Fits len) :
    (r.kernel len : WriteResult) = r := by
  rw [kernel, dif_pos hr]

end WriteResult

structure Socket where
  accepted : Bytes
  shutDownWrites : ℕ

namespace Socket

def new : Socket := ⟨[], 0⟩

/-- The kernel accepts the first `n` bytes of `data`. -/
def write (socket : Socket) (data : Bytes) (n : ℕ) : Socket :=
  { socket with accepted := socket.accepted ++ data.take n }

def shutDownWrite (socket : Socket) : Socket :=
  { socket with shutDownWrites := socket.shutDownWrites + 1 }

end Socket

/-- User callbacks, queued with a strong reference to the connection. -/
inductive Callback
  | writeComplete
  | highWaterMark (size : ℕ)
  deriving DecidableEq, Repr

structure TcpConnection where
  state : ConnState
  careRead : Bool
  careWrite : Bool
  socket : Socket
  inputBuf : Buffer
  outputBuf : Buffer
  highWaterMark : ℕ
  hasWriteCompleteCallback : Bool
  hasHighWaterMarkCallback : Bool
  queued : List Callback

namespace TcpConnection

def new (highWaterMark : ℕ) (hasWriteComplete hasHighWaterMark : Bool) : TcpConnection where
  state := .connecting
  careRead := false
  careWrite := false
  socket := .new
  inputBuf := .new
  outputBuf := .new
  highWaterMark := highWaterMark
  hasWriteCompleteCallback := hasWriteComplete
  hasHighWaterMarkCallback := hasHighWaterMark
  queued := []

variable (c : TcpConnection)

def isConnected : Bool := c.state = .connected

def queueWriteComplete : TcpConnection :=
  if c.hasWriteCompleteCallback then { c with queued := c.queued ++ [.writeComplete] } else c

/-! ## Sending -/

/-- The direct `write` of `SendInLoop`: how many bytes it took off `data`. -/
def writeDirectly (r : WriteResult) (data : Bytes) : TcpConnection × ℕ :=
  match r with
  | .wrote n =>
      let written := { c with socket := c.socket.write data n }
      -- The remaining length is `data.length - n`, so nothing remains from here on.
      (if n < data.length then written else written.queueWriteComplete, n)
  | .failed _ => (c, 0)

/-- The buffered part of `SendInLoop`, for the bytes `write` has left. -/
def appendOutput (rest : Bytes) : TcpConnection :=
  let size := c.outputBuf.payloadSize + rest.length
  let raised := c.highWaterMark ≤ size ∧ c.outputBuf.payloadSize < c.highWaterMark ∧
    c.hasHighWaterMarkCallback
  { c with
    queued := if raised then c.queued ++ [.highWaterMark size] else c.queued
    outputBuf := c.outputBuf.append rest
    careWrite := true }

/-- `r` is what the direct `write` returns when it is made. -/
def sendInLoop (r : WriteResult) (data : Bytes) : TcpConnection :=
  let (d, n) :=
    if c.careWrite = false ∧ c.outputBuf.payloadSize = 0 then c.writeDirectly r data else (c, 0)
  if 0 < data.length - n then d.appendOutput (data.drop n) else d

/-- `Send(const std::string &)` on the loop thread. -/
def send (r : WriteResult) (str : Bytes) : TcpConnection :=
  if c.state = .connected then c.sendInLoop r str else c

/-- `Send(Buffer *)` on the loop thread, with the buffer it leaves. -/
def sendBuffer (r : WriteResult) (buf : Buffer) : TcpConnection × Buffer :=
  if c.state = .connected then (c.sendInLoop r buf.payload, buf.moveReadIndexAll) else (c, buf)

/-! ## Shutting down -/

def shutDownInLoop : TcpConnection :=
  if c.careWrite then c else { c with socket := c.socket.shutDownWrite }

/-- `ShutDown` on the loop thread. -/
def shutDown : TcpConnection :=
  if c.state = .connected then { c with state := .disconnecting }.shutDownInLoop else c

/-! ## Events -/

def setConnectionEstablished : Option TcpConnection :=
  if c.state = .connecting then some { c with state := .connected, careRead := true } else none

def setConnectionDestroyed : Option TcpConnection :=
  if c.state = .connected ∨ c.state = .disconnecting then
    some { c with state := .disconnected, careRead := false, careWrite := false }
  else none

/-- The part of `HandleRead` before the callback. -/
def handleRead (r : Buffer.ReadResult) : TcpConnection := { c with inputBuf := c.inputBuf.readFd r }

/-- `HandleWrite` after a `write` that has taken the last byte of the buffer. -/
def outputDrained : TcpConnection :=
  let drained := { c with careWrite := false }.queueWriteComplete
  if c.state = .disconnecting then drained.shutDownInLoop else drained

def handleWrite (r : WriteResult) : Option TcpConnection :=
  if c.careWrite then
    match r with
    | .wrote n =>
        if 0 < n then
          (c.outputBuf.moveReadIndex n).map fun outputBuf =>
            let written := { c with socket := c.socket.write c.outputBuf.payload n, outputBuf }
            if written.outputBuf.payloadSize = 0 then written.outputDrained else written
        else some c
    | .failed _ => some c
  else some c

/-- The part of `HandleClose` before the callback. -/
def handleClose : Option TcpConnection :=
  if c.state = .connected ∨ c.state = .disconnecting then
    some { c with careRead := false, careWrite := false }
  else none

/-! ## What the operations do to the output

`stream` is everything the connection has taken over for sending.  `Flowing` says
that write interest is set exactly when bytes are waiting.
-/

/-- The bytes the kernel has accepted and those that wait in the output buffer. -/
def stream : Bytes := c.socket.accepted ++ c.outputBuf.payload

def Flowing : Prop := c.careWrite = true ↔ c.outputBuf.payload ≠ []

variable {c}

theorem payloadSize_eq_zero_iff {b : Buffer} : b.payloadSize = 0 ↔ b.payload = [] := by
  rw [← b.length_payload, List.length_eq_zero_iff]

/-- A direct write touches the socket only. -/
theorem writeDirectly_spec {r : WriteResult} {data : Bytes} (hr : r.Fits data.length) :
    ∃ n queued, c.writeDirectly r data = ({ c with socket := c.socket.write data n, queued }, n) ∧
      n ≤ data.length := by
  cases r with
  | wrote n =>
      refine ⟨n, (c.writeDirectly (.wrote n) data).1.queued, ?_, hr⟩
      unfold writeDirectly queueWriteComplete
      dsimp only
      split
      · rfl
      · split <;> rfl
  | failed errno => exact ⟨0, c.queued, by simp [writeDirectly, Socket.write], Nat.zero_le _⟩

/-- What `SendInLoop` does, in one of three ways: it writes all of `data`, it
writes the first `n` bytes and buffers the rest, or it buffers all of it. -/
theorem sendInLoop_spec {r : WriteResult} {data : Bytes} (hr : r.Fits data.length) :
    ∃ n queued, n ≤ data.length ∧ (0 < n → c.careWrite = false ∧ c.outputBuf.payload = []) ∧
      c.sendInLoop r data =
        if n < data.length then
          { c with
            socket := c.socket.write data n
            outputBuf := c.outputBuf.append (data.drop n)
            careWrite := true
            queued }
        else { c with socket := c.socket.write data n, queued } := by
  obtain ⟨n, queued, hdirect, hn, hidle⟩ : ∃ n queued,
      (if c.careWrite = false ∧ c.outputBuf.payloadSize = 0 then c.writeDirectly r data
        else (c, 0)) = ({ c with socket := c.socket.write data n, queued }, n) ∧
      n ≤ data.length ∧ (0 < n → c.careWrite = false ∧ c.outputBuf.payload = []) := by
    split
    · rename_i hidle
      obtain ⟨n, queued, hwrite, hn⟩ := c.writeDirectly_spec hr
      exact ⟨n, queued, hwrite, hn, fun _ => ⟨hidle.1, payloadSize_eq_zero_iff.mp hidle.2⟩⟩
    · exact ⟨0, c.queued, by simp [Socket.write], Nat.zero_le _, fun h => absurd h (by omega)⟩
  set written : TcpConnection := { c with socket := c.socket.write data n, queued }
  have hsend : c.sendInLoop r data =
      if n < data.length then written.appendOutput (data.drop n) else written := by
    rw [sendInLoop, hdirect]
    simp only [Nat.sub_pos_iff_lt]
  by_cases hrest : n < data.length
  · refine ⟨n, (written.appendOutput (data.drop n)).queued, hn, hidle, ?_⟩
    rw [hsend, if_pos hrest, if_pos hrest]
    rfl
  · exact ⟨n, queued, hn, hidle, by rw [hsend, if_neg hrest, if_neg hrest]⟩

section SendInLoop

variable {r : WriteResult} {data : Bytes} (hr : r.Fits data.length)
include hr

/-- `SendInLoop` is about the output only, and does not end it. -/
theorem frame_sendInLoop :
    (c.sendInLoop r data).state = c.state ∧ (c.sendInLoop r data).careRead = c.careRead ∧
      (c.sendInLoop r data).inputBuf = c.inputBuf ∧
      (c.sendInLoop r data).socket.shutDownWrites = c.socket.shutDownWrites := by
  obtain ⟨n, queued, -, -, hsend⟩ := c.sendInLoop_spec hr
  rw [hsend]
  split <;> exact ⟨rfl, rfl, rfl, rfl⟩

theorem state_sendInLoop : (c.sendInLoop r data).state = c.state := (frame_sendInLoop hr).1

theorem careRead_sendInLoop : (c.sendInLoop r data).careRead = c.careRead :=
  (frame_sendInLoop hr).2.1

theorem inputBuf_sendInLoop : (c.sendInLoop r data).inputBuf = c.inputBuf :=
  (frame_sendInLoop hr).2.2.1

theorem shutDownWrites_sendInLoop :
    (c.sendInLoop r data).socket.shutDownWrites = c.socket.shutDownWrites :=
  (frame_sendInLoop hr).2.2.2

theorem stream_sendInLoop : (c.sendInLoop r data).stream = c.stream ++ data := by
  obtain ⟨n, queued, hn, hidle, hsend⟩ := c.sendInLoop_spec hr
  rw [hsend]
  split
  · -- Bytes are written directly only when none wait before them.
    rcases Nat.eq_zero_or_pos n with rfl | hpos
    · simp [stream, Socket.write]
    · simp [stream, Socket.write, (hidle hpos).2, List.append_assoc]
  · obtain rfl : n = data.length := by omega
    rcases Nat.eq_zero_or_pos data.length with hzero | hpos
    · simp [stream, Socket.write, List.length_eq_zero_iff.mp hzero]
    · simp [stream, Socket.write, (hidle hpos).2]

theorem Flowing.sendInLoop (hflow : c.Flowing) : (c.sendInLoop r data).Flowing := by
  obtain ⟨n, queued, -, -, hsend⟩ := c.sendInLoop_spec hr
  rw [hsend]
  split
  · rename_i hrest
    simp [Flowing, Nat.not_le.mpr hrest]
  · exact hflow

end SendInLoop

@[simp] theorem state_shutDownInLoop : c.shutDownInLoop.state = c.state := by
  unfold shutDownInLoop; split <;> rfl

@[simp] theorem careRead_shutDownInLoop : c.shutDownInLoop.careRead = c.careRead := by
  unfold shutDownInLoop; split <;> rfl

/-- `ShutDown` moves a connected connection on, and no other. -/
theorem state_shutDown : c.shutDown.state = c.state ∨
    (c.state = .connected ∧ c.shutDown.state = .disconnecting) := by
  unfold shutDown
  split
  · rename_i hstate
    exact Or.inr ⟨hstate, state_shutDownInLoop⟩
  · exact Or.inl rfl

@[simp] theorem careRead_shutDown : c.shutDown.careRead = c.careRead := by
  unfold shutDown
  split
  · exact careRead_shutDownInLoop
  · rfl

@[simp] theorem inputBuf_shutDown : c.shutDown.inputBuf = c.inputBuf := by
  unfold shutDown shutDownInLoop
  split
  · split <;> rfl
  · rfl

theorem state_send {r : WriteResult} {data : Bytes} (hr : r.Fits data.length) :
    (c.send r data).state = c.state := by
  unfold send; split <;> simp [state_sendInLoop hr]

theorem inputBuf_send {r : WriteResult} {data : Bytes} (hr : r.Fits data.length) :
    (c.send r data).inputBuf = c.inputBuf := by
  unfold send; split <;> simp [inputBuf_sendInLoop hr]

theorem careRead_send {r : WriteResult} {data : Bytes} (hr : r.Fits data.length) :
    (c.send r data).careRead = c.careRead := by
  unfold send; split <;> simp [careRead_sendInLoop hr]

@[simp] theorem stream_shutDownInLoop : c.shutDownInLoop.stream = c.stream := by
  unfold shutDownInLoop; split <;> rfl

@[simp] theorem stream_shutDown : c.shutDown.stream = c.stream := by
  unfold shutDown
  split
  · exact stream_shutDownInLoop
  · rfl

theorem Flowing.shutDownInLoop (hflow : c.Flowing) : c.shutDownInLoop.Flowing := by
  unfold TcpConnection.shutDownInLoop; split <;> exact hflow

theorem accepted_sendInLoop_prefix {r : WriteResult} {data : Bytes} (hr : r.Fits data.length) :
    c.socket.accepted <+: (c.sendInLoop r data).socket.accepted := by
  obtain ⟨n, queued, -, -, hsend⟩ := c.sendInLoop_spec hr
  rw [hsend]
  split <;> exact List.prefix_append _ _

theorem outputDrained_spec :
    ∃ queued, c.outputDrained =
      { c with
        careWrite := false
        socket := if c.state = .disconnecting then c.socket.shutDownWrite else c.socket
        queued } := by
  refine ⟨c.outputDrained.queued, ?_⟩
  unfold outputDrained queueWriteComplete shutDownInLoop
  dsimp only
  split_ifs <;> simp_all

/-- The write event takes the last byte of a disconnecting connection. -/
def Drains (c : TcpConnection) (r : WriteResult) : Prop :=
  c.careWrite = true ∧ c.state = .disconnecting ∧ c.outputBuf.payload ≠ [] ∧
    r = .wrote c.outputBuf.payloadSize

/-- What `HandleWrite` does: nothing, or it writes the first `n` bytes of the
buffer.  After the last byte it gives up write interest, and shuts the write side
down if that was waiting for it. -/
theorem handleWrite_spec {r : WriteResult} (hr : r.Fits c.outputBuf.payloadSize) :
    (c.handleWrite r = some c ∧ ¬ c.Drains r) ∨
      ∃ n outputBuf queued, c.careWrite = true ∧ 0 < n ∧ r = .wrote n ∧
        outputBuf.payload = c.outputBuf.payload.drop n ∧
        (outputBuf.payload = [] ↔ n = c.outputBuf.payloadSize) ∧
        c.handleWrite r = some
          (let socket := c.socket.write c.outputBuf.payload n
           if outputBuf.payload = [] then
             { c with
               outputBuf
               careWrite := false
               socket := if c.state = .disconnecting then socket.shutDownWrite else socket
               queued }
           else { c with socket, outputBuf }) := by
  unfold handleWrite Drains
  split
  · rename_i hcare
    cases r with
    | wrote n =>
        dsimp only
        split
        · rename_i hpos
          obtain ⟨outputBuf, hmove, hpayload⟩ := Buffer.moveReadIndex_spec (b := c.outputBuf) hr
          have hle : n ≤ c.outputBuf.payloadSize := hr
          have hlast : outputBuf.payload = [] ↔ n = c.outputBuf.payloadSize := by
            rw [hpayload, List.drop_eq_nil_iff, Buffer.length_payload]
            omega
          obtain ⟨queued, hdrained⟩ := outputDrained_spec
            (c := { c with socket := c.socket.write c.outputBuf.payload n, outputBuf })
          refine Or.inr ⟨n, outputBuf, queued, hcare, hpos, rfl, hpayload, hlast, ?_⟩
          simp only [hmove, Option.map_some, payloadSize_eq_zero_iff, hdrained]
        · rename_i hpos
          refine Or.inl ⟨rfl, fun ⟨_, _, hwaiting, hall⟩ => ?_⟩
          rw [WriteResult.wrote.injEq] at hall
          exact hwaiting (payloadSize_eq_zero_iff.mp (by omega))
    | failed errno => exact Or.inl ⟨rfl, by simp⟩
  · rename_i hcare
    exact Or.inl ⟨rfl, fun h => hcare h.1⟩

theorem isSome_handleWrite {r : WriteResult} (hr : r.Fits c.outputBuf.payloadSize) :
    (c.handleWrite r).isSome := by
  rcases c.handleWrite_spec hr with ⟨h, -⟩ | ⟨n, outputBuf, queued, -, -, -, -, -, h⟩ <;> rw [h] <;>
    rfl

section HandleWrite

variable {r : WriteResult} (hr : r.Fits c.outputBuf.payloadSize) {d : TcpConnection}
  (hwrite : c.handleWrite r = some d)
include hr hwrite

/-- A write event is about the output only. -/
theorem frame_handleWrite :
    d.state = c.state ∧ d.careRead = c.careRead ∧ d.inputBuf = c.inputBuf := by
  rcases c.handleWrite_spec hr with ⟨h, -⟩ | ⟨n, outputBuf, queued, -, -, -, -, -, h⟩ <;>
    rw [h] at hwrite <;> cases hwrite
  · exact ⟨rfl, rfl, rfl⟩
  · dsimp only
    split <;> exact ⟨rfl, rfl, rfl⟩

theorem state_handleWrite : d.state = c.state := (frame_handleWrite hr hwrite).1

theorem careRead_handleWrite : d.careRead = c.careRead := (frame_handleWrite hr hwrite).2.1

theorem inputBuf_handleWrite : d.inputBuf = c.inputBuf := (frame_handleWrite hr hwrite).2.2

theorem accepted_handleWrite_prefix : c.socket.accepted <+: d.socket.accepted := by
  rcases c.handleWrite_spec hr with ⟨h, -⟩ | ⟨n, outputBuf, queued, -, -, -, -, -, h⟩ <;>
    rw [h] at hwrite <;> cases hwrite
  · exact List.prefix_rfl
  · dsimp only
    split
    · split <;> exact List.prefix_append _ _
    · exact List.prefix_append _ _

theorem stream_handleWrite : d.stream = c.stream := by
  rcases c.handleWrite_spec hr with ⟨h, -⟩ | ⟨n, outputBuf, queued, -, -, -, hpayload, -, h⟩ <;>
    rw [h] at hwrite <;> cases hwrite
  · rfl
  · have hmoved : c.socket.accepted ++ c.outputBuf.payload.take n ++ outputBuf.payload =
        c.stream := by
      rw [hpayload, List.append_assoc, List.take_append_drop, stream]
    dsimp only
    split
    · split <;> exact hmoved
    · exact hmoved

theorem Flowing.handleWrite (hflow : c.Flowing) : d.Flowing := by
  rcases c.handleWrite_spec hr with ⟨h, -⟩ | ⟨n, outputBuf, queued, hcare, -, -, -, -, h⟩ <;>
    rw [h] at hwrite <;> cases hwrite
  · exact hflow
  · dsimp only
    split
    · rename_i hempty
      simp [Flowing, hempty]
    · rename_i hwaiting
      simp [Flowing, hcare, hwaiting]

/-- The write side is shut down by a write event that drains the buffer of a
disconnecting connection, and by no other. -/
theorem shutDownWrites_handleWrite :
    (c.Drains r ∧ d.outputBuf.payload = [] ∧
        d.socket.shutDownWrites = c.socket.shutDownWrites + 1) ∨
      (¬ c.Drains r ∧ d.socket.shutDownWrites = c.socket.shutDownWrites ∧
        (d = c ∨ (c.outputBuf.payload ≠ [] ∧ d.outputBuf.payload ≠ []) ∨
          c.state ≠ .disconnecting)) := by
  rcases c.handleWrite_spec hr with
    ⟨h, hdrains⟩ | ⟨n, outputBuf, queued, hcare, hpos, hn, -, hlast, h⟩ <;>
    rw [h] at hwrite <;> cases hwrite
  · exact Or.inr ⟨hdrains, rfl, Or.inl rfl⟩
  · have hwaiting : c.outputBuf.payload ≠ [] := by
      rintro hempty
      have hle : n ≤ c.outputBuf.payloadSize := by simpa [hn, WriteResult.Fits] using hr
      rw [payloadSize_eq_zero_iff.mpr hempty] at hle
      omega
    by_cases hempty : outputBuf.payload = []
    · simp only [if_pos hempty]
      by_cases hstate : c.state = .disconnecting
      · refine Or.inl ⟨⟨hcare, hstate, hwaiting, by rw [hn, hlast.mp hempty]⟩, hempty, ?_⟩
        rw [if_pos hstate]
        rfl
      · refine Or.inr ⟨fun h => hstate h.2.1, ?_, Or.inr (Or.inr hstate)⟩
        rw [if_neg hstate]
        rfl
    · simp only [if_neg hempty]
      refine Or.inr ⟨fun ⟨_, _, _, hall⟩ => hempty (hlast.mpr ?_), rfl,
        Or.inr (Or.inl ⟨hwaiting, hempty⟩)⟩
      rw [hn] at hall
      exact WriteResult.wrote.inj hall

end HandleWrite

end TcpConnection

end YxAlpha
