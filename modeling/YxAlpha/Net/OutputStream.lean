import YxAlpha.Library.Machine
import YxAlpha.Net.TcpConnection

/-!
# The output stream of a connection

A connection that is used from its own loop thread only.  Calls of `Send` and
`ShutDown` and write events come in any order, and every `write` returns what it
likes.  `sent` collects the data of the calls of `Send` that found the connection
`CONNECTED`.

`Intact` is what holds at every step: no byte is lost, duplicated or reordered,
write interest follows the output buffer, and the write side is shut down once,
when the last byte has left.  It is inductive as it stands.
-/

namespace YxAlpha

inductive StreamEvent
  | established
  | send (r : WriteResult) (str : Bytes)
  | sendBuffer (r : WriteResult) (buf : Buffer)
  | shutDown
  | handleWrite (r : WriteResult)

structure OutputStream where
  conn : TcpConnection
  sent : Bytes

namespace OutputStream

/-- `sent` after a call of `Send` with `data`. -/
def sentWith (s : OutputStream) (data : Bytes) : Bytes :=
  if s.conn.state = .connected then s.sent ++ data else s.sent

def step (s : OutputStream) : StreamEvent → Option OutputStream
  | .established => s.conn.setConnectionEstablished.map fun conn => { s with conn }
  | .send r str =>
      if r.Fits str.length then some ⟨s.conn.send r str, s.sentWith str⟩ else none
  | .sendBuffer r buf =>
      if r.Fits buf.payloadSize then
        some ⟨(s.conn.sendBuffer r buf).1, s.sentWith buf.payload⟩
      else none
  | .shutDown => some { s with conn := s.conn.shutDown }
  | .handleWrite r =>
      -- The assertion of `move_read_index` holds of every result that fits.
      if r.Fits s.conn.outputBuf.payloadSize then
        (s.conn.handleWrite r).map fun conn => { s with conn }
      else none

/-- A connection with the given high water mark and callbacks, and its events. -/
def machine (highWaterMark : ℕ) (hasWriteComplete hasHighWaterMark : Bool) :
    Machine OutputStream StreamEvent where
  init := ⟨.new highWaterMark hasWriteComplete hasHighWaterMark, []⟩
  step := step

structure Intact (s : OutputStream) : Prop where
  /-- What the kernel has accepted, followed by what waits, is what was sent. -/
  stream : s.conn.socket.accepted ++ s.conn.outputBuf.payload = s.sent
  /-- Write interest is set exactly when bytes wait. -/
  interest : s.conn.careWrite = true ↔ s.conn.outputBuf.payload ≠ []
  /-- The write side is shut down once, when a disconnecting connection has
  nothing left to send. -/
  halfClose : s.conn.socket.shutDownWrites =
    if s.conn.state = .disconnecting ∧ s.conn.outputBuf.payload = [] then 1 else 0

namespace Intact

variable {s : OutputStream}

theorem init (highWaterMark : ℕ) (hasWriteComplete hasHighWaterMark : Bool) :
    Intact (machine highWaterMark hasWriteComplete hasHighWaterMark).init where
  stream := by simp [machine, TcpConnection.new, Socket.new]
  interest := by simp [machine, TcpConnection.new]
  halfClose := rfl

theorem established {conn : TcpConnection} (hs : s.Intact)
    (hconn : s.conn.setConnectionEstablished = some conn) : Intact { s with conn } := by
  unfold TcpConnection.setConnectionEstablished at hconn
  split at hconn
  · rename_i hstate
    cases hconn
    have hhalf := hs.halfClose
    rw [if_neg (by simp [hstate])] at hhalf
    exact ⟨hs.stream, hs.interest, by rw [if_neg (by simp)]; exact hhalf⟩
  · cases hconn

/-- Sending from `CONNECTED` appends to the stream and never shuts down. -/
theorem sendInLoop {r : WriteResult} {data : Bytes} (hr : r.Fits data.length) (hs : s.Intact)
    (hstate : s.conn.state = .connected) :
    Intact ⟨s.conn.sendInLoop r data, s.sent ++ data⟩ where
  stream := by
    have hstream := s.conn.stream_sendInLoop hr
    rwa [TcpConnection.stream, TcpConnection.stream, hs.stream] at hstream
  interest := TcpConnection.Flowing.sendInLoop hr hs.interest
  halfClose := by
    have hhalf := hs.halfClose
    rw [if_neg (by simp [hstate])] at hhalf
    rw [TcpConnection.shutDownWrites_sendInLoop hr, TcpConnection.state_sendInLoop hr, hhalf,
      if_neg (by simp [hstate])]

theorem shutDown (hs : s.Intact) : Intact { s with conn := s.conn.shutDown } := by
  unfold TcpConnection.shutDown
  split
  · rename_i hstate
    have hhalf := hs.halfClose
    rw [if_neg (by simp [hstate])] at hhalf
    unfold TcpConnection.shutDownInLoop
    split
    · rename_i hcare
      exact ⟨hs.stream, hs.interest, by rw [if_neg (by simp [hs.interest.mp hcare])]; exact hhalf⟩
    · rename_i hcare
      have hempty : s.conn.outputBuf.payload = [] := by
        by_contra hwaiting
        exact hcare (hs.interest.mpr hwaiting)
      exact ⟨hs.stream, hs.interest, by simp [Socket.shutDownWrite, hempty, hhalf]⟩
  · exact hs

/-- A write event moves bytes from the buffer to the kernel; the one that takes
the last byte completes a deferred shutdown. -/
theorem handleWrite {r : WriteResult} (hr : r.Fits s.conn.outputBuf.payloadSize) (hs : s.Intact)
    {conn : TcpConnection} (hconn : s.conn.handleWrite r = some conn) :
    Intact { s with conn } where
  stream := (TcpConnection.stream_handleWrite hr hconn).trans hs.stream
  interest := TcpConnection.Flowing.handleWrite hr hconn hs.interest
  halfClose := by
    have hhalf := hs.halfClose
    rw [TcpConnection.state_handleWrite hr hconn]
    rcases TcpConnection.shutDownWrites_handleWrite hr hconn with
      ⟨⟨-, hstate, hwaiting, -⟩, hempty, hcount⟩ | ⟨-, hcount, rfl | ⟨hbefore, hwaiting⟩ | hstate⟩
    · rw [if_neg (by simp [hwaiting])] at hhalf
      rw [hcount, hhalf, if_pos ⟨hstate, hempty⟩]
    · exact hhalf
    · rw [if_neg (by simp [hbefore])] at hhalf
      rw [hcount, hhalf, if_neg (by simp [hwaiting])]
    · rw [if_neg (by simp [hstate])] at hhalf
      rw [hcount, hhalf, if_neg (by simp [hstate])]

theorem step {event : StreamEvent} {t : OutputStream} (hs : s.Intact)
    (hstep : s.step event = some t) : t.Intact := by
  cases event with
  | established =>
      obtain ⟨conn, hconn, rfl⟩ := Option.map_eq_some_iff.mp hstep
      exact hs.established hconn
  | send r str =>
      obtain ⟨hr, rfl⟩ : r.Fits str.length ∧ ⟨s.conn.send r str, s.sentWith str⟩ = t := by
        simpa [OutputStream.step] using hstep
      unfold TcpConnection.send sentWith
      split
      · exact hs.sendInLoop hr ‹_›
      · exact hs
  | sendBuffer r buf =>
      obtain ⟨hr, rfl⟩ : r.Fits buf.payloadSize ∧
          ⟨(s.conn.sendBuffer r buf).1, s.sentWith buf.payload⟩ = t := by
        simpa [OutputStream.step] using hstep
      unfold TcpConnection.sendBuffer sentWith
      split
      · exact hs.sendInLoop (by rwa [Buffer.length_payload]) ‹_›
      · exact hs
  | shutDown =>
      cases hstep
      exact hs.shutDown
  | handleWrite r =>
      obtain ⟨hr, conn, hconn, rfl⟩ : r.Fits s.conn.outputBuf.payloadSize ∧
          ∃ conn, s.conn.handleWrite r = some conn ∧ { s with conn } = t := by
        simpa [OutputStream.step] using hstep
      exact hs.handleWrite hr hconn

end Intact

/-- **The output stream is intact** at every step of every run before the
connection is closed. -/
theorem output_intact (highWaterMark : ℕ) (hasWriteComplete hasHighWaterMark : Bool)
    (events : List StreamEvent) :
    (machine highWaterMark hasWriteComplete hasHighWaterMark).Throughout Intact
      (machine highWaterMark hasWriteComplete hasHighWaterMark).init events :=
  Machine.throughout_of_invariant (I := Intact) (fun _ _ _ hs hstep => hs.step hstep)
    (Intact.init highWaterMark hasWriteComplete hasHighWaterMark) events

end OutputStream

end YxAlpha
