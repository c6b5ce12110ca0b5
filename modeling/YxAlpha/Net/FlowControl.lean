import YxAlpha.Net.OutputStream

/-!
# Flow control

The two callbacks by which a sender paces itself.  Over a whole run they are a function of the
sizes the output buffer goes through: the high water callback is queued at each step from below
the mark to the mark, with the size that has been reached, and the write complete callback by
each `Send` that the kernel takes whole and at each step that drains the buffer
(`callbacks_edge_triggered`).
-/

namespace YxAlpha

namespace TcpConnection

/-- The output buffer goes from below the mark `H` to at least `H`. -/
def Rises (H : ℕ) (c d : TcpConnection) : Prop :=
  c.outputBuf.payloadSize < H ∧ H ≤ d.outputBuf.payloadSize

/-- An output buffer that is not empty is emptied. -/
def Emptied (c d : TcpConnection) : Prop := c.outputBuf.payload ≠ [] ∧ d.outputBuf.payload = []

instance (H : ℕ) (c d : TcpConnection) : Decidable (Rises H c d) :=
  inferInstanceAs (Decidable (_ ∧ _))

instance (c d : TcpConnection) : Decidable (Emptied c d) := inferInstanceAs (Decidable (_ ∧ _))

/-- The callbacks that a step calls for; `whole` says that it is a `Send` all of which the
kernel has taken. -/
def edges (H : ℕ) (c d : TcpConnection) (whole : Prop) [Decidable whole] : List Callback :=
  (if Rises H c d then [.highWaterMark d.outputBuf.payloadSize] else []) ++
    if whole ∨ Emptied c d then [.writeComplete] else []

end TcpConnection

namespace OutputStream

/-- A `Send` on a connection with nothing waiting, all of which the kernel takes. -/
def TakenWhole (s : OutputStream) : StreamEvent → Prop
  | .send r str =>
      s.conn.state = .connected ∧ s.conn.outputBuf.payload = [] ∧ r = .wrote str.length
  | .sendBuffer r buf =>
      s.conn.state = .connected ∧ s.conn.outputBuf.payload = [] ∧ r = .wrote buf.payload.length
  | _ => False

instance (s : OutputStream) : DecidablePred s.TakenWhole
  | .send r str => inferInstanceAs (Decidable (s.conn.state = .connected ∧
      s.conn.outputBuf.payload = [] ∧ r = .wrote str.length))
  | .sendBuffer r buf => inferInstanceAs (Decidable (s.conn.state = .connected ∧
      s.conn.outputBuf.payload = [] ∧ r = .wrote buf.payload.length))
  | .established | .shutDown | .handleWrite _ => isFalse id

/-- The callbacks that a step of a run calls for. -/
def calledFor (H : ℕ) (s : OutputStream) (event : StreamEvent) (t : OutputStream) :
    List Callback :=
  TcpConnection.edges H s.conn t.conn (s.TakenWhole event)

end OutputStream

/-! ## What the operations queue -/

namespace TcpConnection

variable {H : ℕ} {c d : TcpConnection} {r : WriteResult} {data : Bytes} {whole : Prop}
  [Decidable whole]

theorem edges_congr {other : Prop} [Decidable other] (h : whole ↔ other) :
    edges H c d whole = edges H c d other := by
  simp only [edges, h]

/-- A step that lets the output buffer neither grow nor run empty. -/
theorem edges_of_kept (hwhole : ¬ whole)
    (hsize : d.outputBuf.payloadSize ≤ c.outputBuf.payloadSize)
    (hwaiting : c.outputBuf.payload ≠ [] → d.outputBuf.payload ≠ []) :
    edges H c d whole = [] := by
  have hrises : ¬ Rises H c d := by
    rintro ⟨hbelow, hreached⟩
    omega
  have hemptied : ¬ (whole ∨ Emptied c d) := by
    rintro (h | ⟨hbefore, hafter⟩)
    · exact hwhole h
    · exact hwaiting hbefore hafter
  rw [edges, if_neg hrises, if_neg hemptied, List.append_nil]

/-- A step that comes to an empty buffer, all there was having been written. -/
theorem edges_of_empty (hempty : d.outputBuf.payload = [])
    (hall : whole ∨ c.outputBuf.payload ≠ []) : edges H c d whole = [.writeComplete] := by
  have hrises : ¬ Rises H c d := by
    rintro ⟨hbelow, hreached⟩
    rw [payloadSize_eq_zero_iff.mpr hempty] at hreached
    omega
  rw [edges, if_neg hrises, if_pos (hall.imp_right fun h => ⟨h, hempty⟩), List.nil_append]

/-- A step that comes to a buffer that is not empty. -/
theorem edges_of_waiting (hwhole : ¬ whole) (hwaiting : d.outputBuf.payload ≠ []) :
    edges H c d whole = if Rises H c d then [.highWaterMark d.outputBuf.payloadSize] else [] := by
  have hemptied : ¬ (whole ∨ Emptied c d) := by
    rintro (h | ⟨-, hafter⟩)
    · exact hwhole h
    · exact hwaiting hafter
  rw [edges, if_neg hemptied, List.append_nil]

/-- Comes to an empty buffer when it queues the write complete callback. -/
theorem empty_of_mem_edges (hwhole : whole → d.outputBuf.payload = [])
    (h : .writeComplete ∈ edges H c d whole) : d.outputBuf.payload = [] := by
  rw [edges, List.mem_append] at h
  rcases h with h | h
  · split at h <;> simp at h
  · split at h
    · rename_i hemptied
      exact hemptied.elim hwhole And.right
    · cases h

/-- Both callbacks are set, with the mark `H`, and write interest follows the buffer. -/
structure Paced (H : ℕ) (c : TcpConnection) : Prop where
  mark : c.highWaterMark = H
  writeComplete : c.hasWriteCompleteCallback = true
  highWater : c.hasHighWaterMarkCallback = true
  flowing : c.Flowing

theorem payloadSize_appendOutput (rest : Bytes) :
    (c.appendOutput rest).outputBuf.payloadSize = c.outputBuf.payloadSize + rest.length :=
  c.outputBuf.payloadSize_append rest

theorem queued_appendOutput (hmark : c.highWaterMark = H)
    (hset : c.hasHighWaterMarkCallback = true) (rest : Bytes) :
    (c.appendOutput rest).queued = c.queued ++ if Rises H c (c.appendOutput rest)
      then [.highWaterMark (c.appendOutput rest).outputBuf.payloadSize] else [] := by
  by_cases hrises : Rises H c (c.appendOutput rest)
  · have hsize := payloadSize_appendOutput (c := c) rest
    obtain ⟨hbelow, hreached⟩ := hrises
    rw [if_pos ⟨hbelow, hreached⟩, hsize]
    rw [hsize, ← hmark] at hreached
    rw [← hmark] at hbelow
    exact if_pos ⟨hreached, hbelow, hset⟩
  · have hnot : ¬ (c.highWaterMark ≤ c.outputBuf.payloadSize + rest.length ∧
        c.outputBuf.payloadSize < c.highWaterMark ∧ c.hasHighWaterMarkCallback) := by
      rintro ⟨hreached, hbelow, -⟩
      rw [← payloadSize_appendOutput, hmark] at hreached
      exact hrises ⟨hmark ▸ hbelow, hreached⟩
    rw [if_neg hrises, List.append_nil]
    exact if_neg hnot

/-- `SendInLoop` behind its direct write. -/
theorem sendInLoop_of_direct {written : TcpConnection} {n : ℕ}
    (hdirect : (if c.careWrite = false ∧ c.outputBuf.payloadSize = 0 then c.writeDirectly r data
      else (c, 0)) = (written, n)) :
    c.sendInLoop r data =
      if 0 < data.length - n then written.appendOutput (data.drop n) else written := by
  rw [sendInLoop, hdirect]

/-- A call that has written nothing buffers all of `data`, if there is any. -/
theorem sendInLoop_of_unwritten
    (hdirect : (if c.careWrite = false ∧ c.outputBuf.payloadSize = 0 then c.writeDirectly r data
      else (c, 0)) = (c, 0)) :
    (∃ n < data.length, c.sendInLoop r data =
      { c with socket := c.socket.write data n }.appendOutput (data.drop n)) ∨
    c.sendInLoop r data = c := by
  have hsend := sendInLoop_of_direct hdirect
  rcases Nat.eq_zero_or_pos data.length with hzero | hpos
  · rw [if_neg (by omega)] at hsend
    exact Or.inr hsend
  · have hsame : c.socket.write data 0 = c.socket := by simp [Socket.write]
    rw [if_pos (by omega)] at hsend
    exact Or.inl ⟨0, hpos, by rw [hsend, hsame]⟩

/-- `SendInLoop` in one of three ways: the kernel takes all of `data`, the rest of `data` is
buffered, or there is nothing to send and nothing is taken. -/
theorem sendInLoop_cases (hc : c.Paced H) (hr : r.Fits data.length) :
    (c.outputBuf.payload = [] ∧ r = .wrote data.length ∧
      c.sendInLoop r data = { c with
        socket := c.socket.write data data.length
        queued := c.queued ++ [.writeComplete] }) ∨
    (¬ (c.outputBuf.payload = [] ∧ r = .wrote data.length) ∧
      ((∃ n < data.length, c.sendInLoop r data =
        { c with socket := c.socket.write data n }.appendOutput (data.drop n)) ∨
      c.sendInLoop r data = c)) := by
  by_cases hempty : c.outputBuf.payload = []
  · -- nothing waits, so write interest is not set and the write is direct
    have hcare : c.careWrite = false := by
      by_contra hcare
      exact hc.flowing.mp (by simpa using hcare) hempty
    have hidle : (if c.careWrite = false ∧ c.outputBuf.payloadSize = 0 then c.writeDirectly r data
        else (c, 0)) = c.writeDirectly r data :=
      if_pos ⟨hcare, payloadSize_eq_zero_iff.mpr hempty⟩
    cases r with
    | wrote n =>
        rcases Nat.lt_or_eq_of_le hr with hshort | hwhole
        · have hsend := sendInLoop_of_direct (hidle.trans (congrArg (·, n) (if_pos hshort)))
          rw [if_pos (by omega)] at hsend
          refine Or.inr ⟨?_, Or.inl ⟨n, hshort, hsend⟩⟩
          rintro ⟨-, hall⟩
          exact hshort.ne (WriteResult.wrote.inj hall)
        · subst hwhole
          have hsend := sendInLoop_of_direct
            (hidle.trans (congrArg (·, data.length) (if_neg (Nat.lt_irrefl _))))
          rw [if_neg (by omega), queueWriteComplete, if_pos hc.writeComplete] at hsend
          exact Or.inl ⟨hempty, rfl, hsend⟩
    | failed errno => exact Or.inr ⟨by simp, sendInLoop_of_unwritten hidle⟩
  · exact Or.inr ⟨fun h => hempty h.1, sendInLoop_of_unwritten
      (if_neg fun h => hempty (payloadSize_eq_zero_iff.mp h.2))⟩

theorem queued_sendInLoop (hc : c.Paced H) (hr : r.Fits data.length) :
    (c.sendInLoop r data).queued = c.queued ++
      edges H c (c.sendInLoop r data) (c.outputBuf.payload = [] ∧ r = .wrote data.length) := by
  rcases sendInLoop_cases hc hr with
    ⟨hempty, hwhole, hsend⟩ | ⟨hnot, ⟨n, hn, hsend⟩ | hsend⟩ <;> rw [hsend]
  · set written : TcpConnection := { c with
      socket := c.socket.write data data.length
      queued := c.queued ++ [.writeComplete] }
    rw [edges_of_empty (d := written) hempty (Or.inl ⟨hempty, hwhole⟩)]
  · set written : TcpConnection := { c with socket := c.socket.write data n }
    have hwaiting : (written.appendOutput (data.drop n)).outputBuf.payload ≠ [] := by
      show (written.outputBuf.append (data.drop n)).payload ≠ []
      rw [Buffer.payload_append]
      simp [hn]
    rw [edges_of_waiting hnot hwaiting]
    exact queued_appendOutput (c := written) hc.mark hc.highWater (data.drop n)
  · rw [edges_of_kept hnot le_rfl id, List.append_nil]

theorem shutDownInLoop_output :
    c.shutDownInLoop.queued = c.queued ∧ c.shutDownInLoop.outputBuf = c.outputBuf := by
  unfold shutDownInLoop
  split <;> exact ⟨rfl, rfl⟩

theorem shutDown_output :
    c.shutDown.queued = c.queued ∧ c.shutDown.outputBuf = c.outputBuf := by
  unfold shutDown
  split
  · exact shutDownInLoop_output
  · exact ⟨rfl, rfl⟩

theorem outputDrained_output (hset : c.hasWriteCompleteCallback = true) :
    c.outputDrained.queued = c.queued ++ [.writeComplete] ∧
      c.outputDrained.outputBuf = c.outputBuf := by
  have hqueue : { c with careWrite := false }.queueWriteComplete =
      { c with careWrite := false, queued := c.queued ++ [.writeComplete] } := if_pos hset
  unfold outputDrained
  rw [hqueue]
  split
  · exact shutDownInLoop_output
  · exact ⟨rfl, rfl⟩

theorem queued_handleWrite (hc : c.Paced H) (hr : r.Fits c.outputBuf.payloadSize)
    (hwrite : c.handleWrite r = some d) : d.queued = c.queued ++ edges H c d False := by
  have hsame : c.queued = c.queued ++ edges H c c False := by
    rw [edges_of_kept not_false le_rfl id, List.append_nil]
  unfold handleWrite at hwrite
  split at hwrite
  · cases r with
    | wrote n =>
        dsimp only at hwrite
        split at hwrite
        · rename_i hpos
          obtain ⟨moved, hmove, rfl⟩ := Option.map_eq_some_iff.mp hwrite
          obtain ⟨outputBuf, houtput, hpayload⟩ := Buffer.moveReadIndex_spec (b := c.outputBuf) hr
          obtain rfl : moved = outputBuf := Option.some.inj (hmove.symm.trans houtput)
          have hle : n ≤ c.outputBuf.payloadSize := hr
          -- something was waiting, so a buffer that is empty now has been emptied
          have hwaiting : c.outputBuf.payload ≠ [] := by
            intro hempty
            have hzero := payloadSize_eq_zero_iff.mpr hempty
            omega
          set written : TcpConnection :=
            { c with socket := c.socket.write c.outputBuf.payload n, outputBuf := moved }
          by_cases hempty : moved.payload = []
          · obtain ⟨hqueued, houtputBuf⟩ := outputDrained_output (c := written) hc.writeComplete
            rw [if_pos (payloadSize_eq_zero_iff.mpr hempty), hqueued,
              edges_of_empty (houtputBuf ▸ hempty) (Or.inr hwaiting)]
          · have hsize : moved.payloadSize ≤ c.outputBuf.payloadSize := by
              rw [← moved.length_payload, hpayload, List.length_drop, Buffer.length_payload]
              exact Nat.sub_le _ _
            rw [if_neg fun h => hempty (payloadSize_eq_zero_iff.mp h),
              edges_of_kept (d := written) not_false hsize fun _ => hempty, List.append_nil]
        · cases hwrite
          exact hsame
    | failed errno =>
        cases hwrite
        exact hsame
  · cases hwrite
    exact hsame

/-! ## Connections that stay paced -/

theorem Paced.sendInLoop (hc : c.Paced H) (hr : r.Fits data.length) :
    (c.sendInLoop r data).Paced H := by
  have hflow := hc.flowing.sendInLoop hr
  rcases sendInLoop_cases hc hr with ⟨-, -, hsend⟩ | ⟨-, ⟨n, hn, hsend⟩ | hsend⟩ <;>
    rw [hsend] at hflow ⊢ <;> exact ⟨hc.mark, hc.writeComplete, hc.highWater, hflow⟩

theorem Paced.handleWrite (hc : c.Paced H) (hr : r.Fits c.outputBuf.payloadSize)
    (hwrite : c.handleWrite r = some d) : d.Paced H := by
  have hflow := Flowing.handleWrite hr hwrite hc.flowing
  rcases c.handleWrite_spec hr with ⟨h, -⟩ | ⟨n, outputBuf, queued, -, -, -, -, -, h⟩ <;>
    rw [h] at hwrite <;> cases hwrite
  · exact hc
  · dsimp only at hflow ⊢
    split at hflow <;> rename_i hempty
    · rw [if_pos hempty]
      exact ⟨hc.mark, hc.writeComplete, hc.highWater, hflow⟩
    · rw [if_neg hempty]
      exact ⟨hc.mark, hc.writeComplete, hc.highWater, hflow⟩

theorem Paced.shutDown (hc : c.Paced H) : c.shutDown.Paced H := by
  unfold TcpConnection.shutDown TcpConnection.shutDownInLoop
  split
  · split <;> exact { hc with }
  · exact hc

end TcpConnection

/-! ## Runs -/

namespace OutputStream

variable {s t : OutputStream} {H : ℕ} {event : StreamEvent}

/-- A step that leaves the output as it is calls for nothing. -/
theorem queued_of_same (hevent : ¬ s.TakenWhole event) (hqueued : t.conn.queued = s.conn.queued)
    (houtput : t.conn.outputBuf = s.conn.outputBuf) :
    t.conn.queued = s.conn.queued ++ calledFor H s event t := by
  rw [calledFor, TcpConnection.edges_of_kept hevent (congrArg _ houtput).le (by simp [houtput]),
    List.append_nil, hqueued]

/-- What a call of `Send` is given, and the result of its write. -/
def sendCall : StreamEvent → Option (WriteResult × Bytes)
  | .send r str => some (r, str)
  | .sendBuffer r buf => some (r, buf.payload)
  | _ => none

variable {r : WriteResult} {data : Bytes}

theorem takenWhole_iff (hsent : sendCall event = some (r, data)) :
    s.TakenWhole event ↔ s.conn.state = .connected ∧ s.conn.outputBuf.payload = [] ∧
      r = .wrote data.length := by
  cases event with
  | send r str =>
      cases hsent
      exact Iff.rfl
  | sendBuffer r buf =>
      cases hsent
      exact Iff.rfl
  | _ => cases hsent

/-- Both calls come to `SendInLoop`. -/
theorem conn_of_sendCall (hsent : sendCall event = some (r, data)) (hstep : s.step event = some t) :
    r.Fits data.length ∧
      t.conn = if s.conn.state = .connected then s.conn.sendInLoop r data else s.conn := by
  cases event with
  | send r str =>
      cases hsent
      obtain ⟨hr, rfl⟩ : r.Fits data.length ∧ ⟨s.conn.send r data, s.sentWith data⟩ = t := by
        simpa [OutputStream.step] using hstep
      exact ⟨hr, rfl⟩
  | sendBuffer r buf =>
      cases hsent
      obtain ⟨hr, rfl⟩ : r.Fits buf.payload.length ∧
          ⟨(s.conn.sendBuffer r buf).1, s.sentWith buf.payload⟩ = t := by
        simpa [OutputStream.step] using hstep
      refine ⟨hr, ?_⟩
      dsimp only
      unfold TcpConnection.sendBuffer
      split <;> rfl
  | _ => cases hsent

theorem paced_sent (hs : s.conn.Paced H) (hsent : sendCall event = some (r, data))
    (hstep : s.step event = some t) :
    t.conn.Paced H ∧ t.conn.queued = s.conn.queued ++ calledFor H s event t := by
  obtain ⟨hr, hconn⟩ := conn_of_sendCall hsent hstep
  by_cases hstate : s.conn.state = .connected
  · rw [if_pos hstate] at hconn
    have hwhole : s.TakenWhole event ↔
        s.conn.outputBuf.payload = [] ∧ r = .wrote data.length :=
      (takenWhole_iff hsent).trans (and_iff_right hstate)
    rw [calledFor, TcpConnection.edges_congr hwhole, hconn]
    exact ⟨hs.sendInLoop hr, TcpConnection.queued_sendInLoop hs hr⟩
  · rw [if_neg hstate] at hconn
    have hnot : ¬ s.TakenWhole event := fun h => hstate ((takenWhole_iff hsent).mp h).1
    exact ⟨hconn ▸ hs, queued_of_same hnot (congrArg _ hconn) (congrArg _ hconn)⟩

theorem paced_step (hs : s.conn.Paced H) (hstep : s.step event = some t) :
    t.conn.Paced H ∧ t.conn.queued = s.conn.queued ++ calledFor H s event t := by
  cases event with
  | established =>
      obtain ⟨conn, hconn, rfl⟩ := Option.map_eq_some_iff.mp hstep
      unfold TcpConnection.setConnectionEstablished at hconn
      split at hconn
      · cases hconn
        exact ⟨{ hs with }, queued_of_same id rfl rfl⟩
      · cases hconn
  | send r str => exact paced_sent hs rfl hstep
  | sendBuffer r buf => exact paced_sent hs rfl hstep
  | shutDown =>
      cases hstep
      obtain ⟨hqueued, houtput⟩ := s.conn.shutDown_output
      exact ⟨hs.shutDown, queued_of_same id hqueued houtput⟩
  | handleWrite r =>
      obtain ⟨hr, conn, hconn, rfl⟩ : r.Fits s.conn.outputBuf.payloadSize ∧
          ∃ conn, s.conn.handleWrite r = some conn ∧ { s with conn } = t := by
        simpa [OutputStream.step] using hstep
      exact ⟨hs.handleWrite hr hconn, TcpConnection.queued_handleWrite hs hr hconn⟩

/-- A `Send` that the kernel takes whole leaves the buffer empty. -/
theorem empty_of_takenWhole (hs : s.conn.Paced H) (hstep : s.step event = some t)
    (hwhole : s.TakenWhole event) : t.conn.outputBuf.payload = [] := by
  obtain ⟨⟨r, data⟩, hsent⟩ : ∃ call, sendCall event = some call := by
    cases event with
    | send r str => exact ⟨_, rfl⟩
    | sendBuffer r buf => exact ⟨_, rfl⟩
    | _ => cases hwhole
  obtain ⟨hstate, hall⟩ := (takenWhole_iff hsent).mp hwhole
  obtain ⟨hr, hconn⟩ := conn_of_sendCall hsent hstep
  rw [if_pos hstate] at hconn
  rw [hconn]
  rcases TcpConnection.sendInLoop_cases hs hr with ⟨hempty, -, hsend⟩ | ⟨hnot, -⟩
  · rw [hsend]
    exact hempty
  · exact absurd hall hnot

theorem paced_init (H : ℕ) : (machine H true true).init.conn.Paced H where
  mark := rfl
  writeComplete := rfl
  highWater := rfl
  flowing := by simp [TcpConnection.Flowing, machine, TcpConnection.new]

/-- **Flow control is edge-triggered.**  In every run of a connection with both callbacks set
and the mark `H`, the callbacks queued so far are those that the steps have called for: one
high water callback for each step from below the mark, one write complete callback for each
`Send` that was taken whole and each time the buffer was emptied.  The latter are queued with
the buffer empty. -/
theorem callbacks_edge_triggered {H : ℕ} {events : List StreamEvent} {s : OutputStream}
    (hrun : (machine H true true).exec (machine H true true).init events = some s) :
    s.conn.queued =
        (machine H true true).observed (calledFor H) (machine H true true).init events ∧
      (machine H true true).EachStep
        (fun t event => ∀ u, t.step event = some u → .writeComplete ∈ calledFor H t event u →
          u.conn.outputBuf.payload = [])
        (machine H true true).init events := by
  have hinv (t : OutputStream) (event : StreamEvent) (u : OutputStream) (ht : t.conn.Paced H)
      (hstep : (machine H true true).step t event = some u) : u.conn.Paced H :=
    (paced_step ht hstep).1
  constructor
  · exact Machine.log_eq_observed (fun t => t.conn.queued) hinv
      (fun _ _ _ ht hstep => (paced_step ht hstep).2) (paced_init H) hrun
  · refine Machine.eachStep_of_invariant hinv ?_ (paced_init H) events
    intro t event _ ht _ u hstep hcomplete
    exact TcpConnection.empty_of_mem_edges (empty_of_takenWhole ht hstep) hcomplete

/-- A `Send` that is taken whole, and one of which three bytes wait, which leave in two
writes.  The mark is at two bytes. -/
def sendTwice : List StreamEvent :=
  [.established, .send (.wrote 1) [7], .send (.wrote 1) [8, 9, 10, 11], .handleWrite (.wrote 1),
    .handleWrite (.wrote 2)]

theorem callbacks_edge_triggered_twice : ∃ s,
    (machine 2 true true).exec (machine 2 true true).init sendTwice = some s ∧
      s.conn.queued = [.writeComplete, .highWaterMark 3, .writeComplete] ∧
      (machine 2 true true).observed (calledFor 2) (machine 2 true true).init sendTwice =
        [.writeComplete, .highWaterMark 3, .writeComplete] := by
  have hqueued : ((machine 2 true true).exec (machine 2 true true).init sendTwice).map
      (fun s => s.conn.queued) = some [.writeComplete, .highWaterMark 3, .writeComplete] := by
    decide +kernel
  obtain ⟨s, hrun, hs⟩ := Option.map_eq_some_iff.mp hqueued
  exact ⟨s, hrun, hs, (callbacks_edge_triggered hrun).1.symm.trans hs⟩

end OutputStream

end YxAlpha
