import YxAlpha.Net.OutputStream

/-!
# Flushing the output buffer

`FlushOutputBuf` writes what a user has appended to the output buffer of a connection.  Whatever
`write` returns, it empties the buffer, and it does not look at write interest.  So the output
stays intact exactly when the kernel takes all of the buffer and no write interest was set, for
one flush and for a whole run of calls (`flush_intact_iff`).
-/

namespace YxAlpha

namespace TcpConnection

variable (c : TcpConnection)

/-- An append through `get_output_buffer()`. -/
def appendOutputBuffer (data : Bytes) : TcpConnection :=
  { c with outputBuf := c.outputBuf.append data }

/-- `Flush_`. -/
def flush (r : WriteResult) : TcpConnection :=
  let n := match r with
    | .wrote n => n
    | .failed _ => 0
  { c with
    socket := c.socket.write c.outputBuf.payload n
    outputBuf := c.outputBuf.moveReadIndexAll }

/-- `FlushOutputBuf` on the loop thread. -/
def flushOutputBuf (r : WriteResult) : TcpConnection :=
  if c.state = .connected then c.flush r else c

/-- What a flush owes to the connection as it was before. -/
structure FlushIntact (before after : TcpConnection) : Prop where
  stream : after.socket.accepted ++ after.outputBuf.payload =
    before.socket.accepted ++ before.outputBuf.payload
  interest : after.careWrite = true ↔ after.outputBuf.payload ≠ []

/-- No write interest is set, and all of the buffer with `data` behind it is taken. -/
def FlushTakesAll (data : Bytes) (r : WriteResult) : Prop :=
  c.careWrite = false ∧ (c.outputBuf.payload ++ data = [] ∨
    r = .wrote (c.outputBuf.payload ++ data).length)

end TcpConnection

/-- The events of a connection that is flushed, too; `data` is appended before the flush. -/
inductive FlushEvent
  | stream (event : StreamEvent)
  | flush (data : Bytes) (r : WriteResult)

namespace FlushedStream

def step (s : OutputStream) : FlushEvent → Option OutputStream
  | .stream event => s.step event
  | .flush data r =>
      if s.conn.state = .connected ∧ r.Fits (s.conn.outputBuf.payload ++ data).length then
        some ⟨(s.conn.appendOutputBuffer data).flushOutputBuf r, s.sent ++ data⟩
      else none

def machine (highWaterMark : ℕ) (hasWriteComplete hasHighWaterMark : Bool) :
    Machine OutputStream FlushEvent where
  init := (OutputStream.machine highWaterMark hasWriteComplete hasHighWaterMark).init
  step := step

/-- The flushes of a run find no write interest and are taken whole. -/
def TakesAll (s : OutputStream) : FlushEvent → Prop
  | .stream _ => True
  | .flush data r => s.conn.FlushTakesAll data r

end FlushedStream

/-! ## One flush -/

namespace TcpConnection

variable {c : TcpConnection} {r : WriteResult} {data : Bytes}

theorem payload_flush : (c.flush r).outputBuf.payload = [] :=
  c.outputBuf.payload_moveReadIndexAll

/-- The kernel takes the whole payload, if there is any. -/
theorem accepted_flush_iff (hr : r.Fits c.outputBuf.payload.length) :
    (c.flush r).socket.accepted = c.socket.accepted ++ c.outputBuf.payload ↔
      c.outputBuf.payload = [] ∨ r = .wrote c.outputBuf.payload.length := by
  cases r with
  | wrote n =>
      have hle : n ≤ c.outputBuf.payload.length := hr
      show c.socket.accepted ++ c.outputBuf.payload.take n = _ ↔ _
      rw [List.append_cancel_left_eq, List.take_eq_self_iff, WriteResult.wrote.injEq,
        ← List.length_eq_zero_iff]
      omega
  | failed errno =>
      show c.socket.accepted ++ c.outputBuf.payload.take 0 = _ ↔ _
      rw [List.append_cancel_left_eq, List.take_zero]
      constructor
      · exact fun h => Or.inl h.symm
      · rintro (h | h)
        · exact h.symm
        · cases h

theorem flushIntact_iff (hr : r.Fits c.outputBuf.payload.length) :
    FlushIntact c (c.flush r) ↔ c.careWrite = false ∧
      (c.outputBuf.payload = [] ∨ r = .wrote c.outputBuf.payload.length) := by
  have hinterest : (c.flush r).careWrite = c.careWrite := rfl
  constructor
  · intro h
    have hstream := h.stream
    rw [payload_flush, List.append_nil] at hstream
    refine ⟨?_, (accepted_flush_iff hr).mp hstream⟩
    by_contra hcare
    exact h.interest.mp (hinterest.trans (by simpa using hcare)) payload_flush
  · rintro ⟨hcare, hall⟩
    refine ⟨?_, ?_⟩
    · rw [payload_flush, List.append_nil]
      exact (accepted_flush_iff hr).mpr hall
    · rw [hinterest, payload_flush, hcare]
      simp

/-- A flush behind an append. -/
theorem flushIntact_append_iff (hstate : c.state = .connected)
    (hr : r.Fits (c.outputBuf.payload ++ data).length) :
    FlushIntact (c.appendOutputBuffer data) ((c.appendOutputBuffer data).flushOutputBuf r) ↔
      c.FlushTakesAll data r := by
  have hpayload : (c.appendOutputBuffer data).outputBuf.payload = c.outputBuf.payload ++ data :=
    c.outputBuf.payload_append data
  have hflush : (c.appendOutputBuffer data).flushOutputBuf r =
      (c.appendOutputBuffer data).flush r := if_pos hstate
  rw [hflush, flushIntact_iff (hpayload ▸ hr), hpayload]
  rfl

end TcpConnection

/-! ## Runs -/

namespace FlushedStream

variable {s t : OutputStream}

/-- From an intact output, a step keeps it intact exactly if it is no flush that loses bytes or
leaves write interest behind. -/
theorem intact_step_iff {event : FlushEvent} (hs : s.Intact) (hstep : step s event = some t) :
    t.Intact ↔ TakesAll s event := by
  cases event with
  | stream event => exact iff_of_true (hs.step hstep) trivial
  | flush data r =>
      obtain ⟨⟨hstate, hr⟩, rfl⟩ : (s.conn.state = .connected ∧
          r.Fits (s.conn.outputBuf.payload ++ data).length) ∧
          ⟨(s.conn.appendOutputBuffer data).flushOutputBuf r, s.sent ++ data⟩ = t := by
        simpa [step] using hstep
      have hflush : (s.conn.appendOutputBuffer data).flushOutputBuf r =
          (s.conn.appendOutputBuffer data).flush r := if_pos hstate
      have hsent : (s.conn.appendOutputBuffer data).socket.accepted ++
          (s.conn.appendOutputBuffer data).outputBuf.payload = s.sent ++ data := by
        show s.conn.socket.accepted ++ (s.conn.outputBuf.append data).payload = _
        rw [Buffer.payload_append, ← List.append_assoc, hs.stream]
      have hiff := TcpConnection.flushIntact_append_iff hstate hr
      rw [hflush] at hiff ⊢
      rw [TakesAll, ← hiff]
      constructor
      · exact fun h => ⟨h.stream.trans hsent.symm, h.interest⟩
      · intro h
        have hhalf := hs.halfClose
        rw [if_neg (by simp [hstate])] at hhalf
        refine ⟨h.stream.trans hsent, h.interest, ?_⟩
        rw [if_neg (fun hdown => ConnState.noConfusion (hstate.symm.trans hdown.1))]
        exact hhalf

/-- **When flushing loses nothing**: a flush of a connected connection keeps the output exactly
if no write interest is set and the kernel takes the whole buffer; and the output is intact
throughout a run of calls and write events exactly if every flush of it is of that kind. -/
theorem flush_intact_iff {c : TcpConnection} {r : WriteResult} {data : Bytes}
    (hstate : c.state = .connected) (hr : r.Fits (c.outputBuf.payload ++ data).length)
    (highWaterMark : ℕ) (hasWriteComplete hasHighWaterMark : Bool) (events : List FlushEvent) :
    (TcpConnection.FlushIntact (c.appendOutputBuffer data)
        ((c.appendOutputBuffer data).flushOutputBuf r) ↔ c.FlushTakesAll data r) ∧
      ((machine highWaterMark hasWriteComplete hasHighWaterMark).Throughout OutputStream.Intact
          (machine highWaterMark hasWriteComplete hasHighWaterMark).init events ↔
        (machine highWaterMark hasWriteComplete hasHighWaterMark).EachStep TakesAll
          (machine highWaterMark hasWriteComplete hasHighWaterMark).init events) := by
  refine ⟨TcpConnection.flushIntact_append_iff hstate hr, ?_⟩
  exact Machine.throughout_iff_eachStep
    (m := machine highWaterMark hasWriteComplete hasHighWaterMark) (I := fun _ => True)
    (fun _ _ _ _ _ => trivial) (fun _ _ _ _ hs hstep => intact_step_iff hs hstep) trivial
    (OutputStream.Intact.init highWaterMark hasWriteComplete hasHighWaterMark) events

/-- A connection on which nothing waits. -/
def idleConnection : TcpConnection :=
  { TcpConnection.new 1 false false with state := .connected }

theorem payload_idleConnection : idleConnection.outputBuf.payload = [] := Buffer.payload_new

theorem flush_intact_iff_taken :
    TcpConnection.FlushIntact (idleConnection.appendOutputBuffer [7, 8])
        ((idleConnection.appendOutputBuffer [7, 8]).flushOutputBuf (.wrote 2)) ∧
      (machine 1 false false).Throughout OutputStream.Intact (machine 1 false false).init
        [.stream .established] := by
  have hr : (WriteResult.wrote 2).Fits (idleConnection.outputBuf.payload ++ [7, 8]).length := by
    rw [payload_idleConnection]
    decide
  obtain ⟨hflush, hrun⟩ := flush_intact_iff (c := idleConnection) rfl hr 1 false false
    [.stream .established]
  refine ⟨hflush.mpr ⟨rfl, Or.inr ?_⟩, hrun.mpr fun _ _ => ⟨trivial, trivial⟩⟩
  rw [payload_idleConnection]
  rfl

/-- The kernel takes the first of two bytes, and the other is gone. -/
theorem flush_loses_byte :
    (idleConnection.appendOutputBuffer [7, 8]).outputBuf.payload = [7, 8] ∧
      ((idleConnection.appendOutputBuffer [7, 8]).flushOutputBuf (.wrote 1)).socket.accepted =
        [7] ∧
      ((idleConnection.appendOutputBuffer [7, 8]).flushOutputBuf (.wrote 1)).outputBuf.payload =
        [] ∧
      ¬ TcpConnection.FlushIntact (idleConnection.appendOutputBuffer [7, 8])
        ((idleConnection.appendOutputBuffer [7, 8]).flushOutputBuf (.wrote 1)) := by
  have hpayload : (idleConnection.appendOutputBuffer [7, 8]).outputBuf.payload = [7, 8] :=
    (Buffer.payload_append _ _).trans (congrArg (· ++ _) payload_idleConnection)
  have hr : (WriteResult.wrote 1).Fits (idleConnection.outputBuf.payload ++ [7, 8]).length := by
    rw [payload_idleConnection]
    decide
  have hflush : (idleConnection.appendOutputBuffer [7, 8]).flushOutputBuf (.wrote 1) =
      (idleConnection.appendOutputBuffer [7, 8]).flush (.wrote 1) := if_pos rfl
  refine ⟨hpayload, ?_, ?_, ?_⟩
  · show [] ++ (idleConnection.appendOutputBuffer [7, 8]).outputBuf.payload.take 1 = [7]
    rw [hpayload]
    rfl
  · rw [hflush, TcpConnection.payload_flush]
  · rw [TcpConnection.flushIntact_append_iff rfl hr, TcpConnection.FlushTakesAll,
      payload_idleConnection]
    decide

end FlushedStream

end YxAlpha
