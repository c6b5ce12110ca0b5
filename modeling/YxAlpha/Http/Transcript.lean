import YxAlpha.Http.Dispatch
import YxAlpha.Http.Rejection

/-!
# What a client is sent

A reply is what one call of `OnMessage` makes of the input: the rejection, or the response
of the callback to a finished request.  A reply may close the connection, the rejection
always does.  `offers` are the replies of a step whatever the state of the connection;
those behind the first closing one come too late for `Send`, which is then no longer
`CONNECTED` (`upToClosing`).

`Output` ties the connection to the replies offered so far: the stream, the state and the
number of times the write side has been shut down are functions of them.  It says nothing
of a connection that `HandleClose` has left but for the bytes, since its write interest is
gone, and with it what waits in the output buffer.
-/

namespace YxAlpha

inductive Reply
  | rejection
  | answer (request : HttpRequest) (response : HttpResponse)

namespace Reply

def bytes : Reply → Bytes
  | .rejection => badRequest
  | .answer _ response => response.bytes

/-- The connection is shut down behind the reply. -/
def closing : Reply → Bool
  | .rejection => true
  | .answer _ response => response.closeConnection

def request? : Reply → Option HttpRequest
  | .rejection => none
  | .answer request _ => some request

/-- `OnRequest`: the callback fills in a response that closes if the request asks for it. -/
def onRequest (callBack : HttpCallBack) (request : HttpRequest) : Reply :=
  .answer request (callBack request (.new (Conversation.closes request)))

/-- `Send` and, behind a closing reply, `ShutDown`. -/
def sendTo (reply : Reply) (c : TcpConnection) (r : WriteResult) : TcpConnection :=
  if reply.closing then (c.send r reply.bytes).shutDown else c.send r reply.bytes

end Reply

/-- The replies up to the first that closes the connection. -/
def upToClosing : List Reply → List Reply
  | [] => []
  | reply :: replies => if reply.closing then [reply] else reply :: upToClosing replies

theorem upToClosing_append (replies more : List Reply) :
    upToClosing (replies ++ more) =
      if replies.any Reply.closing then upToClosing replies else replies ++ upToClosing more := by
  induction replies with
  | nil => rfl
  | cons reply replies ih =>
      cases hclosing : reply.closing with
      | true => simp [upToClosing, hclosing]
      | false =>
          simp only [List.cons_append, upToClosing, hclosing, List.any_cons, Bool.false_or, ih,
            Bool.false_eq_true, if_false]
          split <;> rfl

theorem upToClosing_of_open {replies : List Reply} (hopen : replies.any Reply.closing = false) :
    upToClosing replies = replies := by
  simpa [hopen, upToClosing] using upToClosing_append replies []

/-! ## The connection -/

/-- The connection after the replies that have been offered to it. -/
structure Output (offered : List Reply) (c : TcpConnection) : Prop where
  stream : c.stream = (upToClosing offered).flatMap Reply.bytes
  /-- The connection leaves `CONNECTED` with the first closing reply. -/
  closing : offered.any Reply.closing = true → c.state = .disconnecting ∨ c.state = .disconnected
  opened : c.state = .disconnecting → offered.any Reply.closing = true
  connecting : c.state = .connecting → offered = []
  /-- Reading goes on until the connection is closed. -/
  reading : c.careRead = true → c.state = .connected ∨ c.state = .disconnecting
  interest : c.careWrite = true ↔ c.careRead = true ∧ c.outputBuf.payload ≠ []
  /-- The write side is shut down once, when the last byte of a closing reply has left. -/
  halfClose : c.socket.shutDownWrites =
    if offered.any Reply.closing = true ∧ c.outputBuf.payload = [] then 1 else 0

namespace Output

variable {offered : List Reply} {c d : TcpConnection}

theorem new (highWaterMark : ℕ) (hasWriteComplete hasHighWaterMark : Bool) :
    Output [] (.new highWaterMark hasWriteComplete hasHighWaterMark) where
  stream := by simp [TcpConnection.stream, TcpConnection.new, Socket.new, upToClosing]
  closing := by simp
  opened := by simp [TcpConnection.new]
  connecting _ := rfl
  reading := by simp [TcpConnection.new]
  interest := by simp [TcpConnection.new]
  halfClose := by simp [TcpConnection.new, Socket.new]

/-- While the connection is open nothing has been offered that closes it. -/
theorem open_of_state (hc : Output offered c)
    (hstate : c.state = .connecting ∨ c.state = .connected) :
    offered.any Reply.closing = false := by
  rw [← Bool.not_eq_true]
  intro hclosing
  rcases hstate with h | h <;> rcases hc.closing hclosing with h' | h' <;> simp [h] at h'

/-- What leaves the output alone keeps it. -/
theorem setInput (hc : Output offered c) (inputBuf : Buffer) :
    Output offered { c with inputBuf } :=
  ⟨hc.stream, hc.closing, hc.opened, hc.connecting, hc.reading, hc.interest, hc.halfClose⟩

theorem established (hc : Output offered c) (hd : c.setConnectionEstablished = some d) :
    Output offered d := by
  rw [TcpConnection.setConnectionEstablished, Option.ite_none_right_eq_some] at hd
  obtain ⟨hstate, hd⟩ := hd
  cases hd
  have hopen := hc.open_of_state (Or.inl hstate)
  have hnone : c.stream = [] := by
    rw [hc.stream, hc.connecting hstate]
    rfl
  have hempty : c.outputBuf.payload = [] := (List.append_eq_nil_iff.mp hnone).2
  have hidle : c.careWrite = false := by
    rw [← Bool.not_eq_true]
    intro hcare
    exact (hc.interest.mp hcare).2 hempty
  exact {
    stream := hc.stream
    closing := fun h => absurd h (by simp [hopen])
    opened := by simp
    connecting := by simp
    reading := fun _ => Or.inl rfl
    interest := by simp [hempty, hidle]
    halfClose := hc.halfClose }

/-- Giving up both interests, with the state it is in or with `DISCONNECTED`. -/
theorem closed (hc : Output offered c) {state : ConnState}
    (hstate : state = c.state ∨ state = .disconnected) :
    Output offered { c with state, careRead := false, careWrite := false } where
  stream := hc.stream
  closing hclosing := by
    rcases hstate with rfl | rfl
    · exact hc.closing hclosing
    · exact Or.inr rfl
  opened hleft := by
    rcases hstate with rfl | rfl
    · exact hc.opened hleft
    · cases hleft
  connecting hleft := by
    rcases hstate with rfl | rfl
    · exact hc.connecting hleft
    · cases hleft
  reading := by simp
  interest := by simp
  halfClose := hc.halfClose

theorem handleWrite {r : WriteResult} (hr : r.Fits c.outputBuf.payloadSize)
    (hc : Output offered c) (hd : c.handleWrite r = some d) : Output offered d := by
  by_cases hcare : c.careWrite = true
  · obtain ⟨hread, hwaiting⟩ := hc.interest.mp hcare
    obtain ⟨hstate, hread', -⟩ := TcpConnection.frame_handleWrite hr hd
    have hflow := TcpConnection.Flowing.handleWrite hr hd (by simp [TcpConnection.Flowing, *])
    have hclosing : c.state = .disconnecting ↔ offered.any Reply.closing = true := by
      constructor
      · exact hc.opened
      · intro hany
        refine (hc.closing hany).resolve_right ?_
        intro hgone
        rcases hc.reading hread with h | h <;> simp [hgone] at h
    refine ⟨(TcpConnection.stream_handleWrite hr hd).trans hc.stream, ?_, ?_, ?_, ?_, ?_, ?_⟩
    · rw [hstate]; exact hc.closing
    · rw [hstate]; exact hc.opened
    · rw [hstate]; exact hc.connecting
    · rw [hread', hstate]; exact hc.reading
    · rw [hread', hread]
      exact hflow.trans (and_iff_right rfl).symm
    · have hcount := hc.halfClose
      rw [if_neg (by simp [hwaiting])] at hcount
      simp only [← hclosing]
      rcases TcpConnection.shutDownWrites_handleWrite hr hd with
        ⟨⟨-, hleft, -, -⟩, hempty, hraised⟩ | ⟨-, hsame, rfl | ⟨-, hwaiting'⟩ | hstays⟩
      · rw [if_pos ⟨hleft, hempty⟩, hraised, hcount]
      · rw [if_neg (by simp [hwaiting]), hcount]
      · rw [if_neg (by simp [hwaiting']), hsame, hcount]
      · rw [if_neg (by simp [hstays]), hsame, hcount]
  · obtain rfl : c = d := by simpa [TcpConnection.handleWrite, hcare] using hd
    exact hc

/-! ### Replies -/

/-- A reply that is offered once the connection has left `CONNECTED` changes nothing. -/
theorem sendTo_of_left {r : WriteResult} {reply : Reply} (hstate : c.state ≠ .connected) :
    reply.sendTo c r = c := by
  simp [Reply.sendTo, TcpConnection.send, TcpConnection.shutDown, hstate]

theorem sendTo_late {r : WriteResult} {reply : Reply} (hc : Output offered c)
    (hread : c.careRead = true) (hstate : c.state ≠ .connected) :
    Output (offered ++ [reply]) (reply.sendTo c r) := by
  have hleft : c.state = .disconnecting := (hc.reading hread).resolve_left hstate
  have hclosing := hc.opened hleft
  rw [sendTo_of_left hstate]
  refine ⟨?_, fun _ => Or.inl hleft, ?_, ?_, hc.reading, hc.interest, ?_⟩
  · rw [upToClosing_append, if_pos hclosing]
    exact hc.stream
  · simp [hclosing]
  · simp [hleft]
  · simpa [hclosing] using hc.halfClose

theorem sendTo_connected {r : WriteResult} {reply : Reply} (hr : r.Fits reply.bytes.length)
    (hc : Output offered c) (hread : c.careRead = true) (hstate : c.state = .connected) :
    Output (offered ++ [reply]) (reply.sendTo c r) := by
  have hopen := hc.open_of_state (Or.inr hstate)
  have hzero : c.socket.shutDownWrites = 0 := by
    have hcount := hc.halfClose
    rwa [if_neg (by simp [hopen])] at hcount
  have hflow : c.Flowing := by
    rw [TcpConnection.Flowing, hc.interest, and_iff_right hread]
  set sent := c.sendInLoop r reply.bytes with hsent
  have hsend : c.send r reply.bytes = sent := by rw [TcpConnection.send, if_pos hstate]
  obtain ⟨hstate', hread', -, hzero'⟩ := TcpConnection.frame_sendInLoop (c := c) hr
  rw [← hsent] at hstate' hread' hzero'
  have hstream : sent.stream = (upToClosing (offered ++ [reply])).flatMap Reply.bytes := by
    rw [hsent, TcpConnection.stream_sendInLoop hr, hc.stream, upToClosing_append,
      upToClosing_of_open hopen, if_neg (by simp [hopen]), List.flatMap_append]
    simp [upToClosing]
  have hflow' : sent.careWrite = true ↔ sent.careRead = true ∧ sent.outputBuf.payload ≠ [] := by
    rw [hread', and_iff_right hread]
    exact TcpConnection.Flowing.sendInLoop hr hflow
  have hany : (offered ++ [reply]).any Reply.closing = reply.closing := by simp [hopen]
  rw [Reply.sendTo, hsend]
  cases hclosing : reply.closing with
  | false =>
      rw [hclosing] at hany
      refine ⟨hstream, ?_, ?_, ?_, ?_, hflow', ?_⟩
      · simp [hany]
      · simp [hstate', hstate]
      · simp [hstate', hstate]
      · exact fun _ => Or.inl (hstate'.trans hstate)
      · simp [hany, hzero', hzero]
  | true =>
      rw [hclosing] at hany
      rw [if_pos rfl, TcpConnection.shutDown, if_pos (hstate'.trans hstate),
        TcpConnection.shutDownInLoop]
      split
      · rename_i hcare
        have hwaiting := (hflow'.mp hcare).2
        refine ⟨hstream, fun _ => Or.inl rfl, fun _ => hany, by simp, fun _ => Or.inr rfl, hflow',
          ?_⟩
        simp [hwaiting, hzero', hzero]
      · rename_i hcare
        have hempty : sent.outputBuf.payload = [] := by
          by_contra hwaiting
          exact hcare (hflow'.mpr ⟨hread'.trans hread, hwaiting⟩)
        refine ⟨hstream, fun _ => Or.inl rfl, fun _ => hany, by simp, fun _ => Or.inr rfl, hflow',
          ?_⟩
        simp [Socket.shutDownWrite, hany, hempty, hzero', hzero]

/-- A reply offered to a connection that is still read. -/
theorem sendTo {r : WriteResult} {reply : Reply} (hr : r.Fits reply.bytes.length)
    (hc : Output offered c) (hread : c.careRead = true) :
    Output (offered ++ [reply]) (reply.sendTo c r) := by
  by_cases hstate : c.state = .connected
  · exact hc.sendTo_connected hr hread hstate
  · exact hc.sendTo_late hread hstate

end Output

/-! ## The conversation -/

namespace Conversation

variable {s t : Conversation} {offered : List Reply}

/-- What `OnMessage` answers, given how `ParseRequest` has ended. -/
def answers (callBack : HttpCallBack) (ok : Bool) (context : HttpContext) : List Reply :=
  (if ok then [] else [.rejection]) ++
    if context.isDone then [.onRequest callBack context.request] else []

/-- The replies of a step. -/
def offers (s : Conversation) : ConversationAction → Conversation → List Reply
  | .read (.data (byte :: bytes)) input, _ =>
      match s.context.parseRequest input.fuel
          (s.conn.handleRead (.data (byte :: bytes))).inputBuf with
      | some (ok, context, _) => answers input.callBack ok context
      | none => []
  | _, _ => []

/-- What the client has been sent, and the requests it is the answer to. -/
structure Transcript (offered : List Reply) (s : Conversation) : Prop where
  output : Output offered s.conn
  requests : s.requests = offered.filterMap Reply.request?

/-- `OnRequest` sends the response of the callback. -/
theorem onRequest_eq (input : MessageInput) (request : HttpRequest) :
    ∃ r, r.Fits (Reply.onRequest input.callBack request).bytes.length ∧
      s.onRequest input request =
        { s with
          conn := (Reply.onRequest input.callBack request).sendTo s.conn r
          requests := s.requests ++ [request] } := by
  let buf := (input.callBack request (.new (closes request))).appendToBuffer .new
  have hpayload : buf.payload = (Reply.onRequest input.callBack request).bytes :=
    HttpResponse.payload_appendToBuffer _ .new
  have hsize : buf.payloadSize = (Reply.onRequest input.callBack request).bytes.length := by
    rw [← hpayload, buf.length_payload]
  have hsent : (s.conn.sendBuffer (input.writeResponse buf.payloadSize) buf).1 =
      s.conn.send (input.writeResponse buf.payloadSize)
        (Reply.onRequest input.callBack request).bytes := by
    rw [TcpConnection.sendBuffer, TcpConnection.send, hpayload]
    split <;> rfl
  refine ⟨(input.writeResponse buf.payloadSize).1, ?_, ?_⟩
  · rw [← hsize]
    exact (input.writeResponse buf.payloadSize).2
  · rw [Reply.sendTo, ← hsent]
    rfl

/-- `OnMessage` makes one reply at most. -/
theorem Transcript.onMessage {input : MessageInput} (hs : Transcript offered s)
    (hread : s.conn.careRead = true) (ht : s.onMessage input = some t) :
    ∃ ok context buf, s.context.parseRequest input.fuel s.conn.inputBuf = some (ok, context, buf) ∧
      Transcript (offered ++ answers input.callBack ok context) t := by
  obtain ⟨⟨ok, context, buf⟩, hparse, rfl⟩ := Option.map_eq_some_iff.mp ht
  refine ⟨ok, context, buf, hparse, ?_⟩
  have hinput := hs.output.setInput buf
  dsimp only
  cases ok with
  | false =>
      obtain ⟨hstate, -, -⟩ := rejects_of_parseRequest hparse
      have hnone : answers input.callBack false context = [.rejection] := by
        simp [answers, HttpContext.isDone, hstate]
      rw [respond_of_rejection hstate, hnone]
      have hfits : (input.writeRejection badRequest.length).1.Fits Reply.rejection.bytes.length :=
        (input.writeRejection badRequest.length).2
      refine ⟨hinput.sendTo hfits hread, ?_⟩
      rw [List.filterMap_append, ← hs.requests]
      exact (List.append_nil _).symm
  | true =>
      cases hdone : context.isDone with
      | false =>
          simp only [respond, answers, hdone]
          exact ⟨by simpa using hinput, by simpa using hs.requests⟩
      | true =>
          have hcalls : respond true context = (context.reset, [.onRequest context.request]) := by
            simp [respond, hdone]
          have hone : answers input.callBack true context =
              [.onRequest input.callBack context.request] := by simp [answers, hdone]
          rw [hcalls, hone]
          obtain ⟨r, hr, heq⟩ := onRequest_eq (s := { s with
            context := context.reset, conn := { s.conn with inputBuf := buf }
            parsed := s.parsed ++ [true] }) input context.request
          simp only [List.foldl_cons, List.foldl_nil, runCall, heq]
          refine ⟨hinput.sendTo hr hread, ?_⟩
          rw [List.filterMap_append, ← hs.requests]
          rfl

theorem Transcript.step {action : ConversationAction} (hs : Transcript offered s)
    (hstep : s.step action = some t) : Transcript (offered ++ offers s action t) t := by
  cases action with
  | established =>
      obtain ⟨conn, hconn, rfl⟩ := Option.map_eq_some_iff.mp hstep
      simp only [offers, List.append_nil]
      exact ⟨hs.output.established hconn, hs.requests⟩
  | read r input =>
      simp only [Conversation.step, Option.ite_none_right_eq_some] at hstep
      obtain ⟨hread, hstep⟩ := hstep
      have hinput : Transcript offered { s with conn := s.conn.handleRead r } :=
        ⟨hs.output.setInput _, hs.requests⟩
      cases r with
      | data bytes =>
          cases bytes with
          | nil =>
              obtain ⟨conn, hconn, rfl⟩ := Option.map_eq_some_iff.mp hstep
              rw [TcpConnection.handleClose, Option.ite_none_right_eq_some] at hconn
              cases hconn.2
              simp only [offers, List.append_nil]
              exact ⟨hinput.output.closed (Or.inl rfl), hs.requests⟩
          | cons byte bytes =>
              obtain ⟨ok, context, buf, hparse, ht⟩ := hinput.onMessage hread hstep
              simp only [offers, hparse]
              exact ht
      | failed errno =>
          cases hstep
          simp only [offers, List.append_nil]
          exact hinput
  | write r =>
      obtain ⟨conn, hconn, rfl⟩ := Option.map_eq_some_iff.mp hstep
      simp only [offers, List.append_nil]
      exact ⟨hs.output.handleWrite (r s.conn.outputBuf.payloadSize).2 hconn, hs.requests⟩
  | destroyed =>
      obtain ⟨conn, hconn, rfl⟩ := Option.map_eq_some_iff.mp hstep
      rw [TcpConnection.setConnectionDestroyed, Option.ite_none_right_eq_some] at hconn
      cases hconn.2
      simp only [offers, List.append_nil]
      exact ⟨hs.output.closed (Or.inr rfl), hs.requests⟩

theorem Transcript.new (highWaterMark : ℕ) : Transcript [] (new highWaterMark) :=
  ⟨Output.new highWaterMark false false, rfl⟩

theorem Transcript.exec {highWaterMark : ℕ} {actions : List ConversationAction}
    (hs : Transcript offered s) (hrun : (machine highWaterMark).exec s actions = some t) :
    Transcript (offered ++ (machine highWaterMark).observed offers s actions) t :=
  Machine.observed_invariant (I := Transcript) (fun _ _ _ _ hs hstep => hs.step hstep) hs hrun

/-- **The transcript of a conversation.**  In every run, whatever the writes return, the client
is sent the replies up to the first closing one, each whole and in order. -/
theorem transcript_of_run (highWaterMark : ℕ) (actions : List ConversationAction)
    (t : Conversation)
    (hrun : (machine highWaterMark).exec (machine highWaterMark).init actions = some t) :
    Transcript ((machine highWaterMark).observed offers (machine highWaterMark).init actions) t :=
  (Transcript.new highWaterMark).exec hrun

theorem transcript_of_run_answered : ∃ t,
    Transcript ((machine 64).observed offers (machine 64).init answeredOnce) t := by
  obtain ⟨t, ht⟩ : ∃ t, (machine 64).exec (machine 64).init answeredOnce = some t :=
    Option.isSome_iff_exists.mp (by decide +kernel)
  exact ⟨t, transcript_of_run 64 answeredOnce t ht⟩

/-! ## Delivery -/

/-- A `write` of something takes something. -/
def Progresses (w : KernelWrite) : Prop :=
  ∀ len, 0 < len → ∃ n, 0 < n ∧ (w len : WriteResult) = .wrote n

theorem outputBuf_outputDrained (c : TcpConnection) : c.outputDrained.outputBuf = c.outputBuf := by
  obtain ⟨queued, hdrained⟩ := c.outputDrained_spec
  rw [hdrained]

/-- A write event on a connection that is read leaves less in the output buffer. -/
theorem drain_one {offered : List Reply} {c : TcpConnection} {w : KernelWrite}
    (hc : Output offered c) (hread : c.careRead = true) (hw : Progresses w) :
    ∃ d, c.handleWrite (w c.outputBuf.payloadSize) = some d ∧ Output offered d ∧
      d.careRead = true ∧ d.outputBuf.payloadSize ≤ c.outputBuf.payloadSize - 1 := by
  have hr := (w c.outputBuf.payloadSize).2
  obtain ⟨d, hd⟩ := Option.isSome_iff_exists.mp (TcpConnection.isSome_handleWrite hr)
  refine ⟨d, hd, hc.handleWrite hr hd, (TcpConnection.careRead_handleWrite hr hd).trans hread, ?_⟩
  by_cases hempty : c.outputBuf.payload = []
  · -- Without write interest the event does nothing.
    have hidle : c.careWrite = false := by
      rw [← Bool.not_eq_true, hc.interest, not_and_not_right]
      exact fun _ => hempty
    obtain rfl : c = d := by simpa [TcpConnection.handleWrite, hidle] using hd
    rw [TcpConnection.payloadSize_eq_zero_iff.mpr hempty]
  · have hpos : 0 < c.outputBuf.payloadSize := by
      rw [Nat.pos_iff_ne_zero, Ne, TcpConnection.payloadSize_eq_zero_iff]
      exact hempty
    obtain ⟨n, hn, hwrote⟩ := hw _ hpos
    have hcare : c.careWrite = true := hc.interest.mpr ⟨hread, hempty⟩
    rw [hwrote] at hr
    obtain ⟨outputBuf, hmove, hpayload⟩ := Buffer.moveReadIndex_spec hr
    have hleft : outputBuf.payloadSize = c.outputBuf.payloadSize - n := by
      rw [← outputBuf.length_payload, hpayload, List.length_drop, c.outputBuf.length_payload]
    have hbuf : d.outputBuf = outputBuf := by
      simp only [TcpConnection.handleWrite, hcare, if_true, hwrote, hn, hmove, Option.map_some,
        Option.some.injEq] at hd
      subst hd
      split
      · rw [outputBuf_outputDrained]
      · rfl
    rw [hbuf, hleft]
    omega

/-- As many write events as bytes wait, at most, empty the output buffer. -/
theorem exec_writes {offered : List Reply} {highWaterMark : ℕ} (ws : List KernelWrite)
    (hs : Transcript offered s) (hread : s.conn.careRead = true) (hws : ∀ w ∈ ws, Progresses w)
    (hmany : s.conn.outputBuf.payloadSize ≤ ws.length) :
    ∃ t, (machine highWaterMark).exec s (ws.map .write) = some t ∧ Transcript offered t ∧
      t.conn.outputBuf.payload = [] := by
  induction ws generalizing s with
  | nil => exact ⟨s, rfl, hs, TcpConnection.payloadSize_eq_zero_iff.mp (Nat.le_zero.mp hmany)⟩
  | cons w ws ih =>
      rw [List.forall_mem_cons] at hws
      obtain ⟨d, hd, houtput, hread', hless⟩ := drain_one hs.output hread hws.1
      have hstep : s.step (.write w) = some { s with conn := d } := by
        rw [Conversation.step, hd, Option.map_some]
      have hmany' : d.outputBuf.payloadSize ≤ ws.length := by
        rw [List.length_cons] at hmany
        omega
      obtain ⟨t, hrun, htranscript, hempty⟩ :=
        ih (s := { s with conn := d }) ⟨houtput, hs.requests⟩ hread' hws.2 hmany'
      refine ⟨t, ?_, htranscript, hempty⟩
      rw [List.map_cons, Machine.exec]
      exact Option.bind_eq_some_iff.mpr ⟨_, hstep, hrun⟩

/-- **Every reply is delivered.**  On a connection that has not been closed, in whatever state a
run has left it, write events that take something empty the output buffer: the kernel has
then got every reply up to the first closing one, and the end of the stream behind that. -/
theorem replies_delivered (highWaterMark : ℕ) (actions : List ConversationAction)
    (s : Conversation) (ws : List KernelWrite)
    (hrun : (machine highWaterMark).exec (machine highWaterMark).init actions = some s)
    (hread : s.conn.careRead = true) (hws : ∀ w ∈ ws, Progresses w)
    (hmany : s.conn.outputBuf.payloadSize ≤ ws.length) :
    let offered := (machine highWaterMark).observed offers (machine highWaterMark).init actions
    ∃ t, (machine highWaterMark).exec s (ws.map .write) = some t ∧
      t.conn.socket.accepted = (upToClosing offered).flatMap Reply.bytes ∧
      t.conn.socket.shutDownWrites = if offered.any Reply.closing then 1 else 0 := by
  intro offered
  have hs : Transcript ([] ++ offered) s := (Transcript.new highWaterMark).exec hrun
  obtain ⟨t, ht, htranscript, hempty⟩ := exec_writes ws hs hread hws hmany
  refine ⟨t, ht, ?_, ?_⟩
  · have hstream := htranscript.output.stream
    rwa [TcpConnection.stream, hempty, List.append_nil] at hstream
  · have hcount := htranscript.output.halfClose
    simpa [hempty] using hcount

/-- A kernel that takes one byte at a time. -/
def takesOne : KernelWrite := (WriteResult.wrote 1).kernel

theorem progresses_takesOne : Progresses takesOne := fun _ hlen =>
  ⟨1, Nat.one_pos, WriteResult.kernel_eq (r := .wrote 1) hlen⟩

/-- A connection that has got one byte of its first response. -/
def answering : List ConversationAction :=
  [.established, .read (.data (ascii "GET / HTTP/1.1\r\n\r\n"))
    { okInput with writeResponse := takesOne }]

theorem replies_delivered_answering : ∃ s, ∃ ws : List KernelWrite, ∃ t,
    s.conn.outputBuf.payload ≠ [] ∧ (machine 64).exec s (ws.map .write) = some t ∧
      t.conn.socket.accepted = (upToClosing ((machine 64).observed offers (machine 64).init
        answering)).flatMap Reply.bytes := by
  obtain ⟨s, hs⟩ : ∃ s, (machine 64).exec (machine 64).init answering = some s :=
    Option.isSome_iff_exists.mp (by decide +kernel)
  have hall : ∀ s, (machine 64).exec (machine 64).init answering = some s →
      s.conn.careRead = true ∧ s.conn.outputBuf.payload ≠ [] := by decide +kernel
  obtain ⟨hread, hwaiting⟩ := hall s hs
  obtain ⟨t, ht, haccepted, -⟩ := replies_delivered 64 answering s
    (List.replicate s.conn.outputBuf.payloadSize takesOne) hs hread
    (fun w hw => List.eq_of_mem_replicate hw ▸ progresses_takesOne) (by simp)
  exact ⟨s, _, t, hwaiting, ht, haccepted⟩

end Conversation

end YxAlpha
